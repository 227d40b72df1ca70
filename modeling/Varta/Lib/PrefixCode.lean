import Mathlib.Data.List.Infix

/-!
# Prefix codes

A code in which no code word begins another can be read back from the left: what is written
word by word determines the words.
-/
namespace PrefixCode

variable {α β : Type}

/-- No code word begins the code word of another symbol. -/
def PrefixFree (code : α → List β) : Prop := ∀ a b, code a <+: code b → a = b

variable {code : α → List β}

/-- The first symbol can be read off, and what is left is the rest. -/
theorem PrefixFree.cons_inj (free : PrefixFree code) {a b : α} {rest rest' : List β}
    (same : code a ++ rest = code b ++ rest') : a = b ∧ rest = rest' := by
  have first : code a <+: code b ++ rest' := same ▸ List.prefix_append ..
  have symbol : a = b := by
    rcases List.prefix_or_prefix_of_prefix first (List.prefix_append ..) with left | right
    · exact free a b left
    · exact (free b a right).symm
  rw [symbol] at same
  exact ⟨symbol, List.append_cancel_left same⟩

theorem PrefixFree.flatMap_injective (free : PrefixFree code) (nonempty : ∀ a, code a ≠ []) :
    Function.Injective fun text : List α => text.flatMap code := by
  intro xs
  induction xs with
  | nil =>
    intro ys same
    cases ys with
    | nil => rfl
    | cons y ys => exact absurd (List.append_eq_nil_iff.mp same.symm).1 (nonempty y)
  | cons x xs ih =>
    intro ys same
    cases ys with
    | nil => exact absurd (List.append_eq_nil_iff.mp same).1 (nonempty x)
    | cons y ys =>
      obtain ⟨symbol, rest⟩ := free.cons_inj same
      rw [symbol, ih rest]

end PrefixCode
