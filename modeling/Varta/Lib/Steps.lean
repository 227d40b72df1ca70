import Mathlib.Logic.Relation

/-!
# Runs of a step function

What one step keeps, a run keeps. The rules here are the only inductions over runs; a
component that takes step after step proves its step lemma and applies one of them.
-/
namespace Steps

section

variable {σ α : Type} (step : σ → α → σ)

/-- The state after the inputs `as`, taken in order. -/
def run (s : σ) (as : List α) : σ := as.foldl step s

@[simp] theorem run_nil (s : σ) : run step s [] = s := rfl

@[simp] theorem run_cons (s : σ) (a : α) (as : List α) :
    run step s (a :: as) = run step (step s a) as := rfl

theorem run_append (s : σ) (as bs : List α) :
    run step s (as ++ bs) = run step (run step s as) bs :=
  List.foldl_append

/-- Each input of the run meets `guard` in the state it is taken in. -/
def Guarded (guard : σ → α → Prop) : σ → List α → Prop
  | _, [] => True
  | s, a :: as => guard s a ∧ Guarded guard (step s a) as

instance Guarded.decidable {guard : σ → α → Prop} [∀ s a, Decidable (guard s a)] :
    (s : σ) → (as : List α) → Decidable (Guarded step guard s as)
  | _, [] => inferInstanceAs (Decidable True)
  | s, a :: as =>
    have : Decidable (Guarded step guard (step s a) as) := Guarded.decidable (step s a) as
    inferInstanceAs (Decidable (guard s a ∧ Guarded step guard (step s a) as))

variable {step}

variable {guard : σ → α → Prop} {inv : σ → Prop}

/-- A guarded run keeps what its guarded steps keep. -/
theorem Guarded.invariant (keeps : ∀ s a, inv s → guard s a → inv (step s a)) {s : σ} {as : List α}
    (start : inv s) (guarded : Guarded step guard s as) : inv (run step s as) := by
  induction as generalizing s with
  | nil => exact start
  | cons a as ih => exact ih (keeps s a start guarded.1) guarded.2

theorem guarded_of_forall {allowed : α → Prop} (s : σ) {as : List α}
    (all : ∀ a ∈ as, allowed a) : Guarded step (fun _ a => allowed a) s as := by
  induction as generalizing s with
  | nil => trivial
  | cons a as ih =>
    refine ⟨all a (List.mem_cons_self ..), ih (step s a) fun b later => ?_⟩
    exact all b (List.mem_cons_of_mem a later)

/-- The guard holds at every input that is allowed, because of an invariant. -/
theorem guarded_of_invariant {allowed : α → Prop} (holds : ∀ s a, inv s → allowed a → guard s a)
    (keeps : ∀ s a, inv s → allowed a → inv (step s a)) {s : σ} {as : List α} (start : inv s)
    (all : ∀ a ∈ as, allowed a) : Guarded step guard s as := by
  induction as generalizing s with
  | nil => trivial
  | cons a as ih =>
    have first := all a List.mem_cons_self
    exact ⟨holds s a start first, ih (keeps s a start first) fun b member =>
      all b (List.mem_cons_of_mem a member)⟩

theorem guarded_append {s : σ} {as bs : List α} :
    Guarded step guard s (as ++ bs) ↔
      Guarded step guard s as ∧ Guarded step guard (run step s as) bs := by
  induction as generalizing s with
  | nil => simp [Guarded]
  | cons a as ih => simp only [List.cons_append, Guarded, run_cons, ih, and_assoc]

theorem run_invariant (keeps : ∀ s a, inv s → inv (step s a)) {s : σ} (as : List α)
    (start : inv s) : inv (run step s as) := by
  induction as generalizing s with
  | nil => exact start
  | cons a as ih => exact ih (keeps s a start)

/-- A reflexive and transitive relation that each step respects relates the ends of a run. -/
theorem run_related {r : σ → σ → Prop} (refl : ∀ s, r s s)
    (trans : ∀ s t u, r s t → r t u → r s u) (related : ∀ s a, r s (step s a)) (s : σ)
    (as : List α) : r s (run step s as) := by
  induction as generalizing s with
  | nil => exact refl s
  | cons a as ih => exact trans _ _ _ (related s a) (ih (step s a))

/-! ### Counting events -/

variable (step) in
/-- How many of the inputs are a `hit` in the state they are taken in. -/
def count (hit : σ → α → Bool) : σ → List α → Nat
  | _, [] => 0
  | s, a :: as => (hit s a).toNat + count hit (step s a) as

section

variable {hit : σ → α → Bool} {guard : σ → α → Prop} {base spent : σ → Prop}

/-- Once `spent` holds and guarded steps neither hit nor leave it, nothing hits. -/
theorem Guarded.count_eq_zero (wf : ∀ s a, base s → base (step s a))
    (keeps : ∀ s a, base s → spent s → guard s a → hit s a = false ∧ spent (step s a))
    {s : σ} {as : List α} (ready : base s) (done : spent s) (guarded : Guarded step guard s as) :
    count step hit s as = 0 := by
  induction as generalizing s with
  | nil => rfl
  | cons a as ih =>
    have kept := keeps s a ready done guarded.1
    rw [count, kept.1, ih (wf s a ready) kept.2 guarded.2]
    rfl

/-- A hit leads to `spent`, so a first step and the guarded run after it hit at most once. -/
theorem Guarded.count_cons_le_one (wf : ∀ s a, base s → base (step s a))
    (spends : ∀ s a, base s → hit s a = true → spent (step s a))
    (keeps : ∀ s a, base s → spent s → guard s a → hit s a = false ∧ spent (step s a))
    {s : σ} {a : α} {as : List α} (ready : base s)
    (guarded : Guarded step guard (step s a) as) : count step hit s (a :: as) ≤ 1 := by
  induction as generalizing s a with
  | nil => exact Bool.toNat_le (hit s a)
  | cons b as ih =>
    rw [count]
    cases first : hit s a with
    -- the first step missed: the second is the new first one
    | false =>
      rw [Bool.toNat_false, Nat.zero_add]
      exact ih (wf s a ready) guarded.2
    -- the first step hit: nothing after it does
    | true =>
      rw [guarded.count_eq_zero wf keeps (wf s a ready) (spends s a ready first)]
      exact Nat.le_refl 1

/-- Each step spends no more than it earns, except for one more at a hit. -/
theorem spent_le_earned_add_count (wf : ∀ s a, base s → base (step s a)) {spends earns : σ → Nat}
    (pays : ∀ s a, base s →
      spends (step s a) + earns s ≤ spends s + earns (step s a) + (hit s a).toNat)
    {s : σ} (as : List α) (ready : base s) :
    spends (run step s as) + earns s ≤ spends s + earns (run step s as) + count step hit s as := by
  induction as generalizing s with
  | nil => exact Nat.le_refl _
  | cons a as ih =>
    have now := pays s a ready
    have later := ih (wf s a ready)
    simp only [run_cons, count]
    omega

end

end

end Steps
