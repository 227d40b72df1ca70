import Mathlib.Data.List.Basic

/-!
# Lists written in place

Counts and orders of a list of which one place is overwritten, or dropped with the last entry
moved into its place.
-/
namespace Lists

variable {α : Type} {l : List α} {i : Nat}

theorem countP_set_add {p : α → Bool} {old new : α} (held : l[i]? = some old) :
    (l.set i new).countP p + (p old).toNat = l.countP p + (p new).toNat := by
  induction l generalizing i with
  | nil => simp at held
  | cons first rest ih =>
    cases i with
    | zero =>
      obtain rfl : first = old := by simpa using held
      simp only [List.set_cons_zero, List.countP_cons]
      cases p first <;> cases p new <;> simp
    | succ i =>
      have later := ih (by simpa using held)
      simp only [List.set_cons_succ, List.countP_cons]
      omega

theorem getElem?_append_of_some {a : α} (held : l[i]? = some a) (more : List α) :
    (l ++ more)[i]? = some a := by
  rw [List.getElem?_append_left (List.getElem?_eq_some_iff.mp held).1, held]

theorem set_of_held {a : α} (held : l[i]? = some a) : l.set i a = l := by
  obtain ⟨bound, rfl⟩ := List.getElem?_eq_some_iff.mp held
  exact List.set_getElem_self bound

theorem eq_take_cons_drop {a : α} (held : l[i]? = some a) :
    l = l.take i ++ a :: l.drop (i + 1) := by
  obtain ⟨bound, rfl⟩ := List.getElem?_eq_some_iff.mp held
  rw [← List.drop_eq_getElem_cons bound, List.take_append_drop]

/-- Before and after one place is overwritten. -/
theorem set_perm {a : α} (held : l[i]? = some a) (b : α) :
    ∃ rest, l.Perm (a :: rest) ∧ (l.set i b).Perm (b :: rest) := by
  refine ⟨l.take i ++ l.drop (i + 1), ?_, ?_⟩
  · conv => lhs; rw [eq_take_cons_drop held]
    exact List.perm_middle
  · rw [List.set_eq_take_append_cons_drop, if_pos (List.getElem?_eq_some_iff.mp held).1]
    exact List.perm_middle

/-- The last entry in the place of one that is dropped. -/
theorem swapRemove_shape {moved : α} (inner : i < l.length - 1)
    (last : l[l.length - 1]? = some moved) :
    ∃ rest, (l.set i moved).dropLast = l.take i ++ rest ∧ rest.Perm (l.drop (i + 1)) := by
  have remains : l.drop (i + 1) ≠ [] := by
    rw [Ne, List.drop_eq_nil_iff]
    omega
  have tail : (l.drop (i + 1)).dropLast ++ [moved] = l.drop (i + 1) := by
    apply List.dropLast_append_getLast?
    rw [List.getLast?_drop, if_neg (by omega), List.getLast?_eq_getElem?]
    exact last
  refine ⟨moved :: (l.drop (i + 1)).dropLast, ?_, ?_⟩
  · rw [List.set_eq_take_append_cons_drop, if_pos (by omega),
      List.dropLast_append_of_ne_nil (by simp), List.dropLast_cons_of_ne_nil remains]
  · conv => rhs; rw [← tail]
    exact (List.perm_append_singleton ..).symm

/-- An entry is dropped and the last one takes its place. -/
def swapRemove (l : List α) (i : Nat) : List α :=
  match l.getLast? with
  | none => []
  | some last => (l.set i last).dropLast

theorem swapRemove_perm {a : α} (held : l[i]? = some a) : l.Perm (a :: swapRemove l i) := by
  have bound := (List.getElem?_eq_some_iff.mp held).1
  obtain ⟨last, at_end⟩ : ∃ last, l.getLast? = some last :=
    ⟨_, List.getLast?_eq_some_getLast (List.ne_nil_of_length_pos (by omega))⟩
  simp only [swapRemove, at_end]
  rw [List.getLast?_eq_getElem?] at at_end
  by_cases inner : i < l.length - 1
  · obtain ⟨rest, shape, perm⟩ := swapRemove_shape inner at_end
    rw [shape]
    conv => lhs; rw [eq_take_cons_drop held]
    exact List.perm_middle.trans ((perm.symm.append_left _).cons a)
  · -- the last entry is put back in its place and dropped
    obtain rfl : i = l.length - 1 := by omega
    obtain rfl : a = last := by
      rw [held] at at_end
      exact Option.some.inj at_end
    have tail : l.dropLast ++ [a] = l := by
      apply List.dropLast_append_getLast?
      rw [List.getLast?_eq_getElem?]
      exact held
    rw [set_of_held held]
    conv => lhs; rw [← tail]
    exact List.perm_append_singleton a l.dropLast

end Lists
