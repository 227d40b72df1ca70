import Varta.Lib.Steps

/-!
# Steps that answer

A step function that answers each input, the answers of a run, and simulations between two of
them: related states answer alike and stay related, for as long as each input meets a guard.
-/
namespace Transducer

variable {σ τ α β : Type}

/-- The step without its answer. -/
def advance (step : σ → α → β × σ) (s : σ) (a : α) : σ := (step s a).2

/-- The state after a run. -/
def final (step : σ → α → β × σ) : σ → List α → σ := Steps.run (advance step)

def answers (step : σ → α → β × σ) : σ → List α → List β
  | _, [] => []
  | s, a :: as => (step s a).1 :: answers step (advance step s a) as

variable {step : σ → α → β × σ} {step' : τ → α → β × τ}

@[simp] theorem answers_nil (s : σ) : answers step s [] = [] := rfl

@[simp] theorem answers_cons (s : σ) (a : α) (as : List α) :
    answers step s (a :: as) = (step s a).1 :: answers step (step s a).2 as := rfl

@[simp] theorem final_nil (s : σ) : final step s [] = s := rfl

@[simp] theorem final_cons (s : σ) (a : α) (as : List α) :
    final step s (a :: as) = final step (step s a).2 as := rfl

variable {s : σ} {t : τ}

/-- Related states give the same answers along a run, and end related. -/
theorem simulates {related : σ → τ → Prop} {guard : σ → α → Prop}
    (simulated : ∀ s t a, related s t → guard s a →
      (step s a).1 = (step' t a).1 ∧ related (step s a).2 (step' t a).2)
    {as : List α} (start : related s t) (guarded : Steps.Guarded (advance step) guard s as) :
    answers step s as = answers step' t as ∧ related (final step s as) (final step' t as) := by
  induction as generalizing s t with
  | nil => exact ⟨rfl, start⟩
  | cons a as ih =>
    obtain ⟨same, next⟩ := simulated s t a start guarded.1
    obtain ⟨rest, last⟩ := ih next guarded.2
    exact ⟨by rw [answers_cons, answers_cons, same, rest], last⟩

theorem simulates_always {related : σ → τ → Prop}
    (simulated : ∀ s t a, related s t →
      (step s a).1 = (step' t a).1 ∧ related (step s a).2 (step' t a).2)
    (start : related s t) (as : List α) :
    answers step s as = answers step' t as ∧ related (final step s as) (final step' t as) :=
  simulates (fun s t a now (_ : True) => simulated s t a now) start
    (Steps.guarded_of_forall s fun _ _ => trivial)

/-! ### Answers and the answers before them -/

def record (past : List β) (b : β) : List β := past ++ [b]

/-- Each answer, with those before it, meets `p`. -/
def Throughout (p : List β → β → Prop) (bs : List β) : Prop := Steps.Guarded record p [] bs

instance {p : List β → β → Prop} [∀ past b, Decidable (p past b)] (bs : List β) :
    Decidable (Throughout p bs) :=
  inferInstanceAs (Decidable (Steps.Guarded _ _ _ _))

/-- As long as the simulating run meets `guard`, related states give the same answers, and these
meet `p`. -/
theorem simulates_recorded {related : List β → σ → τ → Prop} {guard : τ → α → Prop}
    {p : List β → β → Prop}
    (simulated : ∀ past s t a, related past s t → guard t a →
      (step s a).1 = (step' t a).1 ∧ p past (step s a).1 ∧
        related (record past (step s a).1) (step s a).2 (step' t a).2)
    {as : List α} (start : related [] s t) (guarded : Steps.Guarded (advance step') guard t as) :
    answers step s as = answers step' t as ∧ Throughout p (answers step s as) := by
  unfold Throughout
  generalize ([] : List β) = past at start ⊢
  induction as generalizing s t past with
  | nil => exact ⟨rfl, trivial⟩
  | cons a as ih =>
    obtain ⟨same, now, next⟩ := simulated past s t a start guarded.1
    obtain ⟨rest, later⟩ := ih guarded.2 _ next
    exact ⟨List.cons_eq_cons.mpr ⟨same, rest⟩, now, later⟩

end Transducer
