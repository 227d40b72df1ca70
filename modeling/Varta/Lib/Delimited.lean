import Mathlib.Data.List.Basic
import Mathlib.Data.List.Infix

/-!
# Texts with a delimiter of two symbols

The first place of the delimiter, and texts without it. The two symbols are distinct, so that
the delimiter cannot overlap itself.
-/
namespace Delimited

variable {α : Type}

/-- The delimiter does not occur. -/
def Unbroken (a b : α) (text : List α) : Prop := ¬ [a, b] <:+: text

/-- Lines, each with the delimiter at its end. -/
def terminated (a b : α) (lines : List (List α)) : List α := lines.flatMap fun line => line ++ [a, b]

variable {a b : α}

theorem unbroken_nil : Unbroken a b [] := by
  intro occurs
  have short := occurs.length_le
  simp at short

theorem unbroken_singleton (x : α) : Unbroken a b [x] := by
  intro occurs
  have short := occurs.length_le
  simp at short

theorem unbroken_cons_cons {x y : α} {rest : List α} :
    Unbroken a b (x :: y :: rest) ↔ ¬ (x = a ∧ y = b) ∧ Unbroken a b (y :: rest) := by
  simp only [Unbroken, List.infix_cons_iff, List.cons_prefix_cons, List.nil_prefix, and_true, not_or]
  rw [eq_comm (b := x), eq_comm (b := y)]

@[simp] theorem terminated_nil : terminated a b [] = [] := rfl

@[simp] theorem terminated_cons (line : List α) (lines : List (List α)) :
    terminated a b (line :: lines) = line ++ a :: b :: terminated a b lines := by
  simp [terminated]

theorem terminated_append (lines more : List (List α)) :
    terminated a b (lines ++ more) = terminated a b lines ++ terminated a b more :=
  List.flatMap_append

variable [DecidableEq α]

/-- The position of the first delimiter. -/
def first (a b : α) : List α → Option Nat
  | x :: y :: rest => if x = a ∧ y = b then some 0 else (first a b (y :: rest)).map (· + 1)
  | _ => none

theorem first_eq_none_iff {text : List α} : first a b text = none ↔ Unbroken a b text := by
  induction text with
  | nil => simp [first, unbroken_nil]
  | cons x rest ih =>
    cases rest with
    | nil => simp [first, unbroken_singleton]
    | cons y rest =>
      rw [unbroken_cons_cons, first, ← ih]
      by_cases here : x = a ∧ y = b
      · simp [here]
      · simp [here]

/-- What comes before the first delimiter does not contain it. -/
theorem first_eq_some {text : List α} {i : Nat} (found : first a b text = some i) :
    ∃ line rest, text = line ++ a :: b :: rest ∧ line.length = i ∧ Unbroken a b line := by
  induction text generalizing i with
  | nil => cases found
  | cons x text ih =>
    cases text with
    | nil => cases found
    | cons y text =>
      rw [first] at found
      split at found
      next here =>
        cases found
        exact ⟨[], text, by rw [here.1, here.2]; rfl, rfl, unbroken_nil⟩
      next other =>
        obtain ⟨j, later, rfl⟩ := Option.map_eq_some_iff.mp found
        obtain ⟨line, rest, shape, length, unbroken⟩ := ih later
        refine ⟨x :: line, rest, by rw [shape]; rfl, by rw [List.length_cons, length], ?_⟩
        cases line with
        | nil => exact unbroken_singleton x
        | cons z line =>
          cases shape
          exact unbroken_cons_cons.mpr ⟨other, unbroken⟩

/-- A text without delimiter ends where the delimiter behind it begins. -/
theorem first_append (distinct : a ≠ b) {line : List α} (unbroken : Unbroken a b line)
    (rest : List α) : first a b (line ++ a :: b :: rest) = some line.length := by
  induction line with
  | nil => simp [first]
  | cons x line ih =>
    cases line with
    | nil =>
      -- the last symbol of the line is not followed by the second symbol of the delimiter
      simp [first, distinct]
    | cons y line =>
      obtain ⟨other, unbroken⟩ := unbroken_cons_cons.mp unbroken
      have later := ih unbroken
      rw [List.cons_append] at later
      rw [List.cons_append, List.cons_append, first, if_neg other, later]
      rfl

end Delimited
