import Varta.Lib.Lists
import Varta.Lib.Steps
import Mathlib.Data.List.Rotate

/-!
# A cursor that walks around a list

Each visit looks at the item under the cursor. The item stays and the cursor moves on, or the
item is taken out and the last one is put in its place. Around the end the cursor starts again.

A window is the front of the list that begins under the cursor. What is taken out before the cursor
moves its place.
-/
namespace Lists

variable {α : Type} {l : List α} {i j : Nat}

theorem swapRemove_eq (inside : i < l.length) :
    swapRemove l i = (l.set i (l.getLast (List.ne_nil_of_length_pos (by omega)))).dropLast := by
  rw [swapRemove, List.getLast?_eq_some_getLast (List.ne_nil_of_length_pos (by omega))]

theorem length_swapRemove (inside : i < l.length) : (swapRemove l i).length = l.length - 1 := by
  rw [swapRemove_eq inside, List.length_dropLast, List.length_set]

/-- The other items stay where they are. -/
theorem getElem?_swapRemove_of_ne (inside : i < l.length) (other : j ≠ i) (inner : j < l.length - 1) :
    (swapRemove l i)[j]? = l[j]? := by
  rw [swapRemove_eq inside, List.getElem?_dropLast, if_pos (by simpa using inner),
    List.getElem?_set_ne other.symm]

/-- The last item moves to the place that is free now. -/
theorem getElem?_swapRemove_self (inner : i < l.length - 1) :
    (swapRemove l i)[i]? = l[l.length - 1]? := by
  rw [swapRemove_eq (by omega), List.getElem?_dropLast, if_pos (by simpa using inner),
    List.getElem?_set_self (by omega), ← List.getLast?_eq_getElem?,
    List.getLast?_eq_some_getLast]

end Lists

namespace Rotation

/-- The place of a cursor in a list of length `n`. -/
def wrapped (cursor n : Nat) : Nat := if cursor ≥ n then 0 else cursor

/-- The visits it takes at most to get from `i` to `p`: to the end of the list, and once around
if `p` has been passed. -/
def reach (i p n : Nat) : Nat := if i ≤ p then n - i else n - i + n

section Reach

variable {i p n : Nat}

theorem reach_wrapped_succ (inside : i < n) (bound : p < n) (other : p ≠ i) :
    reach (wrapped (i + 1) n) p n < reach i p n := by
  unfold reach wrapped
  repeat' split
  all_goals omega

theorem reach_shorter (inner : p < n - 1) (inside : i < n) :
    reach (wrapped i (n - 1)) p (n - 1) < reach i p n := by
  unfold reach wrapped
  repeat' split
  all_goals omega

theorem reach_swapped (inner : i < n - 1) :
    reach (wrapped i (n - 1)) i (n - 1) < reach i (n - 1) n := by
  unfold reach wrapped
  repeat' split
  all_goals omega

end Reach

section Ring

variable {n p : Nat}

theorem exists_offset (inside : p < n) (start : Nat) :
    ∃ offset < n, (start + offset) % n = p := by
  have below := Nat.mod_lt start (Nat.zero_lt_of_lt inside)
  refine ⟨(p + n - start % n) % n, Nat.mod_lt _ (Nat.zero_lt_of_lt inside), ?_⟩
  rw [Nat.add_mod_mod, ← Nat.mod_add_mod, show start % n + (p + n - start % n) = p + n by omega,
    Nat.add_mod_right, Nat.mod_eq_of_lt inside]

/-- Windows one behind the other meet every position of a ring they are long enough for. -/
theorem exists_window {width rounds : Nat} (inside : p < n) (turn : n ≤ rounds * width)
    (start : Nat) :
    ∃ round < rounds, ∃ i < width, (start + round * width + i) % n = p := by
  obtain ⟨offset, short, reached⟩ := exists_offset inside start
  have positive : 0 < width := by
    rcases Nat.eq_zero_or_pos width with zero | positive
    · rw [zero] at turn
      omega
    · exact positive
  refine ⟨offset / width, ?_, offset % width, Nat.mod_lt _ positive, ?_⟩
  · rw [Nat.div_lt_iff_lt_mul positive]
    omega
  · rw [Nat.add_assoc, Nat.div_add_mod' offset width, reached]

end Ring

structure Walk (α : Type) where
  items : List α
  cursor : Nat

namespace Walk

variable {α : Type}

/-- Where the next visit looks. -/
def place (w : Walk α) : Nat := wrapped w.cursor w.items.length

/-- The walk after a visit that takes the item out, or leaves it. -/
def visit (w : Walk α) (taken : Bool) : Walk α :=
  if taken then ⟨Lists.swapRemove w.items w.place, w.place⟩ else ⟨w.items, w.place + 1⟩

/-- The items that the visits look at. -/
def seen : Walk α → List Bool → List α
  | _, [] => []
  | w, taken :: rest => w.items[w.place]?.toList ++ seen (w.visit taken) rest

def distance (w : Walk α) (p : Nat) : Nat := reach w.place p w.items.length

variable {w : Walk α} {p : Nat} {a : α}

theorem place_lt (some_item : w.items ≠ []) : w.place < w.items.length := by
  have := List.length_pos_iff.mpr some_item
  unfold place wrapped
  split <;> omega

theorem ne_nil_of_held (held : w.items[p]? = some a) : w.items ≠ [] :=
  List.ne_nil_of_mem (List.mem_of_getElem? held)

theorem distance_le (w : Walk α) (p : Nat) : w.distance p ≤ 2 * w.items.length := by
  unfold distance reach
  split <;> omega

theorem distance_pos (held : w.items[p]? = some a) : 0 < w.distance p := by
  have := place_lt (ne_nil_of_held held)
  unfold distance reach
  split <;> omega

/-- Step lemma: a visit to another place brings the item closer, wherever it is put. -/
theorem visit_closer (held : w.items[p]? = some a) (away : p ≠ w.place) (taken : Bool) :
    ∃ p', (w.visit taken).items[p']? = some a ∧ (w.visit taken).distance p' < w.distance p := by
  have inside := place_lt (ne_nil_of_held held)
  have bound := (List.getElem?_eq_some_iff.mp held).1
  cases taken with
  | false => exact ⟨p, held, reach_wrapped_succ inside bound away⟩
  | true =>
    have items : (w.visit true).items = Lists.swapRemove w.items w.place := rfl
    have shrunk (p' : Nat) : (w.visit true).distance p' =
        reach (wrapped w.place (w.items.length - 1)) p' (w.items.length - 1) := by
      rw [← Lists.length_swapRemove inside]
      rfl
    by_cases last : p = w.items.length - 1
    -- the item is the last one: it is put under the cursor
    · have inner : w.place < w.items.length - 1 := by omega
      refine ⟨w.place, ?_, ?_⟩
      · rw [items, Lists.getElem?_swapRemove_self inner, ← last, held]
      · rw [shrunk, last]
        exact reach_swapped inner
    · refine ⟨p, ?_, ?_⟩
      · rw [items, Lists.getElem?_swapRemove_of_ne inside away (by omega), held]
      · rw [shrunk]
        exact reach_shorter (by omega) inside

/-- Run lemma: an item is seen, or is closer by as much as there were visits. -/
theorem seen_or_closer (held : w.items[p]? = some a) (visits : List Bool) :
    a ∈ seen w visits ∨ ∃ p', (Steps.run visit w visits).items[p']? = some a ∧
      (Steps.run visit w visits).distance p' + visits.length ≤ w.distance p := by
  induction visits generalizing w p with
  | nil => exact Or.inr ⟨p, held, Nat.le_refl _⟩
  | cons taken rest ih =>
    by_cases here : p = w.place
    · left
      rw [seen, ← here, held]
      exact List.mem_cons_self ..
    · obtain ⟨p', held', closer⟩ := visit_closer held here taken
      rcases ih held' with found | ⟨p'', left_, bound⟩
      · exact Or.inl (List.mem_append_right _ found)
      · refine Or.inr ⟨p'', left_, ?_⟩
        rw [Steps.run_cons, List.length_cons]
        omega

/-- Twice around is enough to see everything. -/
theorem mem_seen (held : w.items[p]? = some a) {visits : List Bool}
    (enough : 2 * w.items.length ≤ visits.length ∨ (Steps.run visit w visits).items = []) :
    a ∈ seen w visits := by
  rcases seen_or_closer held visits with found | ⟨p', left_, bound⟩
  · exact found
  · have most := distance_le w p
    have least := distance_pos left_
    rcases enough with enough | none_left
    · omega
    · rw [none_left] at left_
      cases left_

end Walk

section Window

variable {α : Type} {l : List α} {i : Nat}

/-- What is left of a list, from a place on: it is read late by what was taken out before. -/
theorem filter_rotate (keep : α → Bool) (inside : i ≤ l.length) :
    (l.filter keep).rotate i =
      ((l.rotate i).filter keep).rotate ((l.take i).countP (!keep ·)) := by
  have front : i = ((l.take i).filter keep).length + (l.take i).countP (!keep ·) := by
    rw [List.countP_eq_length_filter, ← List.length_eq_length_filter_add,
      List.length_take_of_le inside]
  have split : l.filter keep = (l.take i).filter keep ++ (l.drop i).filter keep := by
    rw [← List.filter_append, List.take_append_drop]
  conv => lhs; rw [front, split]
  rw [← List.rotate_rotate, List.rotate_append_length_eq, ← List.filter_append,
    List.rotate_eq_drop_append_take inside]

variable [DecidableEq α] {a b : List α} {x v : α} {k m : Nat}

/-- A window that reaches an item of `b` has the items of `a` in front of it. -/
def Leads (a b window : List α) : Prop :=
  ∀ x ∈ a, ∀ v ∈ b, v ∈ window → x ∈ window ∧ window.idxOf x < window.idxOf v

end Window

end Rotation
