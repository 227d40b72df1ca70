import Mathlib.Data.List.Basic

/-!
# Indexed tables

Cells with an index from keys to positions. The index is any function; what an operation on
the index does to it is a hypothesis of the rule for that operation, so that the rules fit
every implementation of the index. All operations are writes of one cell: a cell is filled,
overwritten or emptied, and the index follows.
-/
namespace Indexed

variable {α κ : Type} {key : α → κ} {get get' : κ → Option Nat}

/-! ### Cells -/

section Cells

variable {cell cell' : Nat → Option α}

/-- The index finds exactly the contents of the cells, under their keys. -/
def Holds (key : α → κ) (get : κ → Option Nat) (cell : Nat → Option α) : Prop :=
  ∀ k i, get k = some i ↔ ∃ a, cell i = some a ∧ key a = k

/-- The content under a key. -/
def find (get : κ → Option Nat) (cell : Nat → Option α) (k : κ) : Option α := (get k).bind cell

/-- Cell `i` is written: the key of the new content leads to it, and the key of what was there
before leads nowhere. -/
structure Written [DecidableEq κ] (key : α → κ) (get get' : κ → Option Nat)
    (cell cell' : Nat → Option α) (i : Nat) (new : Option α) : Prop where
  here : cell' i = new
  elsewhere : ∀ j, j ≠ i → cell' j = cell j
  index : ∀ k, get' k = if new.map key = some k then some i
    else if (cell i).map key = some k then none else get k

namespace Holds

variable {i : Nat} {a : α} {k : κ}

section

variable (holds : Holds key get cell)

include holds

theorem get_key (held : cell i = some a) : get (key a) = some i :=
  (holds (key a) i).mpr ⟨a, held, rfl⟩

/-- Two contents of one key are in one cell. -/
theorem index_unique {j : Nat} {b : α} (at_i : cell i = some a) (at_j : cell j = some b)
    (same : key a = key b) : i = j := by
  have found := holds.get_key at_i
  rw [same, holds.get_key at_j] at found
  exact (Option.some.inj found).symm

theorem find_key (held : cell i = some a) : find get cell (key a) = some a := by
  rw [find, holds.get_key held]
  exact held

theorem find_eq_some_iff : find get cell k = some a ↔ ∃ i, cell i = some a ∧ key a = k := by
  constructor
  · intro found
    obtain ⟨i, at_k, held⟩ := Option.bind_eq_some_iff.mp found
    -- what the index leads to has this key
    obtain ⟨b, also, owner⟩ := (holds k i).mp at_k
    rw [held] at also
    cases also
    exact ⟨i, held, owner⟩
  · rintro ⟨i, held, rfl⟩
    exact holds.find_key held

theorem find_eq_none_iff : find get cell k = none ↔ get k = none := by
  constructor
  · intro missing
    cases found : get k with
    | none => rfl
    | some i =>
      obtain ⟨a, held, _⟩ := (holds k i).mp found
      rw [find, found, Option.bind_some, held] at missing
      cases missing
  · intro missing
    rw [find, missing, Option.bind_none]

/-- A key that is not the one of cell `i` leads elsewhere. -/
theorem ne_of_get {j : Nat} (other : (cell i).map key ≠ some k) (found : get k = some j) :
    j ≠ i := by
  rintro rfl
  obtain ⟨a, held, owner⟩ := (holds k j).mp found
  exact other (by rw [held, Option.map_some, owner])

end

section Write

variable [DecidableEq κ] {new : Option α}

/-- A cell may be written with what has a key that is not in use elsewhere. -/
theorem write (holds : Holds key get cell)
    (fresh : ∀ a, new = some a → get (key a) = none ∨ get (key a) = some i)
    (written : Written key get get' cell cell' i new) : Holds key get' cell' := by
  intro k j
  rw [written.index k]
  by_cases own : new.map key = some k
  · -- the written cell is the only one with the new key
    rw [if_pos own]
    obtain ⟨a, rfl, rfl⟩ := Option.map_eq_some_iff.mp own
    constructor
    · intro same
      cases same
      exact ⟨a, written.here, rfl⟩
    · rintro ⟨b, held, owner⟩
      by_cases here : j = i
      · rw [here]
      · rw [written.elsewhere j here] at held
        have found := holds.get_key held
        rw [owner] at found
        rcases fresh a rfl with absent | there
        · rw [absent] at found
          cases found
        · exact there.symm.trans found
  · rw [if_neg own]
    -- under any other key the written cell holds nothing now
    have beyond : ∀ b, cell' j = some b → key b = k → j ≠ i := by
      rintro b held owner rfl
      rw [written.here] at held
      exact own (by rw [held, Option.map_some, owner])
    by_cases gone : (cell i).map key = some k
    · rw [if_pos gone]
      refine iff_of_false nofun ?_
      rintro ⟨b, held, owner⟩
      have there := beyond b held owner
      rw [written.elsewhere j there] at held
      obtain ⟨a, at_i, also⟩ := Option.map_eq_some_iff.mp gone
      exact there (holds.index_unique held at_i (owner.trans also.symm))
    · rw [if_neg gone]
      constructor
      · intro found
        obtain ⟨b, held, owner⟩ := (holds k j).mp found
        exact ⟨b, (written.elsewhere j (holds.ne_of_get gone found)).trans held, owner⟩
      · rintro ⟨b, held, owner⟩
        rw [written.elsewhere j (beyond b held owner)] at held
        exact (holds k j).mpr ⟨b, held, owner⟩

theorem find_write (holds : Holds key get cell)
    (written : Written key get get' cell cell' i new) (k : κ) :
    find get' cell' k = if new.map key = some k then new
      else if (cell i).map key = some k then none else find get cell k := by
  rw [find, written.index k]
  split
  · exact written.here
  · split
    · rfl
    next other =>
      rw [find]
      cases found : get k with
      | none => rfl
      | some j => exact written.elsewhere j (holds.ne_of_get other found)

/-- A cell is written for `k₀`, its own or an empty one, and the index follows: as a map, only
the entry of `k₀` changes. -/
theorem update {k₀ : κ} (holds : Holds key get cell) (here : cell' i = new)
    (elsewhere : ∀ j, j ≠ i → cell' j = cell j) (keyed : ∀ a, new = some a → key a = k₀)
    (slot : get k₀ = some i ∨ cell i = none ∧ new.isSome ∧ get k₀ = none)
    (index : ∀ k, get' k = if k = k₀ then new.map fun _ => i else get k) :
    Holds key get' cell' ∧ ∀ k, find get' cell' k = if k = k₀ then new else find get cell k := by
  -- no key but `k₀` comes or goes
  have keys {β : Type} (k : κ) (x y : Option β) :
      (if new.map key = some k then x else if (cell i).map key = some k then none else y) =
        if k = k₀ then new.bind fun _ => x else y := by
    rcases slot with at_key | ⟨empty, filled, _⟩
    · obtain ⟨a, held, owned⟩ := (holds k₀ i).mp at_key
      cases new with
      | none => by_cases same : k = k₀ <;> simp [held, owned, same, @eq_comm _ k₀]
      | some b => by_cases same : k = k₀ <;> simp [held, owned, keyed b rfl, same, @eq_comm _ k₀]
    · obtain ⟨b, rfl⟩ := Option.isSome_iff_exists.mp filled
      simp [empty, keyed b rfl, @eq_comm _ k₀]
  have written : Written key get get' cell cell' i new := by
    refine ⟨here, elsewhere, fun k => ?_⟩
    rw [index k, keys]
    cases new <;> rfl
  refine ⟨holds.write ?_ written, fun k => ?_⟩
  · intro a filled
    rw [keyed a filled]
    exact slot.symm.imp_left fun empty => empty.2.2
  · rw [holds.find_write written, keys]
    cases new <;> rfl

end Write

end Holds

end Cells

/-! ### Lists with gaps -/

section Slab

variable {slab : List (Option α)} {i : Nat} {old new : Option α}

/-- A place of the list is overwritten; an empty place counts as an empty cell. -/
theorem Holds.update_slab [DecidableEq κ] {k₀ : κ} (holds : Holds key get (slab[·]?.join))
    (held : slab[i]? = some old) (keyed : ∀ a, new = some a → key a = k₀)
    (slot : get k₀ = some i ∨ old = none ∧ new.isSome ∧ get k₀ = none)
    (index : ∀ k, get' k = if k = k₀ then new.map fun _ => i else get k) :
    Holds key get' ((slab.set i new)[·]?.join) ∧ ∀ k, find get' ((slab.set i new)[·]?.join) k =
      if k = k₀ then new else find get (slab[·]?.join) k := by
  refine holds.update ?_ ?_ keyed (slot.imp_right (And.imp_left ?_)) index
  · rw [List.getElem?_set_self (List.getElem?_eq_some_iff.mp held).1]
    rfl
  · intro j other
    rw [List.getElem?_set_ne other.symm]
  · rintro rfl
    rw [held]
    rfl

theorem getElem?_set_none_iff {j : Nat} (held : slab[i]? = some old) :
    (slab.set i new)[j]? = some none ↔ if j = i then new = none else slab[j]? = some none := by
  have bound := (List.getElem?_eq_some_iff.mp held).1
  split
  next here => simp [here, bound]
  next other => rw [List.getElem?_set_ne (Ne.symm other)]

/-- A free list has every empty place once. -/
structure Free (slab : List (Option α)) (free : List Nat) : Prop where
  mem : ∀ i, i ∈ free ↔ slab[i]? = some none
  nodup : free.Nodup

namespace Free

variable {free : List Nat} {a : α}

/-- Every place is free or in use. -/
theorem covers (listed : Free slab free) (i : Nat) :
    (i ∈ free ∨ ∃ a, slab[i]? = some (some a)) ↔ i < slab.length := by
  rw [listed.mem i]
  constructor
  · rintro (empty | ⟨a, held⟩)
    · exact (List.getElem?_eq_some_iff.mp empty).1
    · exact (List.getElem?_eq_some_iff.mp held).1
  · intro bound
    rw [List.getElem?_eq_getElem bound]
    cases slab[i] with
    | none => exact .inl rfl
    | some a => exact .inr ⟨a, rfl⟩

theorem overwrite (listed : Free slab free) (held : slab[i]? = some (some a)) (b : α) :
    Free (slab.set i (some b)) free := by
  refine ⟨fun j => ?_, listed.nodup⟩
  rw [getElem?_set_none_iff held, listed.mem j]
  split
  next here => simp [here, held]
  next => rfl

theorem head (listed : Free slab (i :: free)) : slab[i]? = some none :=
  (listed.mem i).mp List.mem_cons_self

theorem fill (listed : Free slab (i :: free)) (a : α) : Free (slab.set i (some a)) free := by
  have unused := List.nodup_cons.mp listed.nodup
  refine ⟨fun j => ?_, unused.2⟩
  rw [getElem?_set_none_iff listed.head, ← listed.mem j, List.mem_cons]
  split
  next here => simp [here, unused.1]
  next other => rw [or_iff_right other]

theorem clear (listed : Free slab free) (held : slab[i]? = some (some a)) :
    Free (slab.set i none) (i :: free) := by
  constructor
  · intro j
    rw [getElem?_set_none_iff held, List.mem_cons, listed.mem j]
    split
    next here => simp [here]
    next other => simp [other]
  · rw [List.nodup_cons, listed.mem i, held]
    simp [listed.nodup]

end Free

end Slab

/-! ### Lists without gaps -/

variable {cells : List α}

/-- The index finds exactly the entries of the list, under their keys. -/
def Indexes (key : α → κ) (get : κ → Option Nat) (cells : List α) : Prop :=
  Holds key get (cells[·]?)

/-- The entry under a key. -/
def lookup (get : κ → Option Nat) (cells : List α) (k : κ) : Option α :=
  find get (cells[·]?) k

namespace Indexes

theorem nil (empty : ∀ k, get k = none) : Indexes key get [] := by
  intro k i
  simp [empty k]

variable {i : Nat} {a : α} {k : κ}

section

variable (indexed : Indexes key get cells)

include indexed

theorem get_key (held : cells[i]? = some a) : get (key a) = some i :=
  Holds.get_key indexed held

theorem exists_of_get (found : get k = some i) : ∃ a, cells[i]? = some a ∧ key a = k :=
  (indexed k i).mp found

theorem index_unique {j : Nat} {b : α} (at_i : cells[i]? = some a) (at_j : cells[j]? = some b)
    (same : key a = key b) : i = j :=
  Holds.index_unique indexed at_i at_j same

theorem lookup_key (held : cells[i]? = some a) : lookup get cells (key a) = some a :=
  Holds.find_key indexed held

theorem lookup_eq_some_iff : lookup get cells k = some a ↔ a ∈ cells ∧ key a = k := by
  rw [lookup, Holds.find_eq_some_iff indexed, exists_and_right, List.mem_iff_getElem?]

theorem lookup_eq_none_iff : lookup get cells k = none ↔ get k = none :=
  Holds.find_eq_none_iff indexed

end

variable [DecidableEq κ] {old new removed moved : α}

section

variable (indexed : Indexes key get cells) (held : cells[i]? = some old)

include indexed held

theorem set_same (same : key new = key old) : Indexes key get (cells.set i new) ∧
    ∀ k, lookup get (cells.set i new) k = if k = key old then some new else lookup get cells k := by
  have own := indexed.get_key held
  refine Holds.update indexed (List.getElem?_set_self (List.getElem?_eq_some_iff.mp held).1)
    (fun j other => List.getElem?_set_ne other.symm) ?_ (.inl own) fun k => ?_
  · rintro a ⟨rfl⟩
    exact same
  · split
    next here => rw [here, own, Option.map_some]
    next => rfl

/-- An entry is overwritten by one with a fresh key. -/
theorem replace (new : α) (fresh : get (key new) = none)
    (index : ∀ k, get' k = if k = key new then some i else if k = key old then none else get k) :
    Indexes key get' (cells.set i new) ∧ ∀ k, lookup get' (cells.set i new) k =
      if k = key new then some new else if k = key old then none else lookup get cells k := by
  have bound := (List.getElem?_eq_some_iff.mp held).1
  have written : Written key get get' (cells[·]?) ((cells.set i new)[·]?) i (some new) := by
    refine ⟨List.getElem?_set_self bound, fun j other => List.getElem?_set_ne other.symm, ?_⟩
    intro k
    simp only [held, Option.map_some, Option.some.injEq, @eq_comm _ _ k]
    exact index k
  refine ⟨Holds.write indexed ?_ written, fun k => ?_⟩
  · rintro a ⟨rfl⟩
    exact Or.inl fresh
  · have found := Holds.find_write indexed written k
    simp only [held, Option.map_some, Option.some.injEq, @eq_comm _ _ k] at found
    exact found

end

/-- An entry is added behind the last one. -/
theorem append (indexed : Indexes key get cells) (new : α) (fresh : get (key new) = none)
    (index : ∀ k, get' k = if k = key new then some cells.length else get k) :
    Indexes key get' (cells ++ [new]) ∧ ∀ k, lookup get' (cells ++ [new]) k =
      if k = key new then some new else lookup get cells k := by
  refine Holds.update indexed List.getElem?_concat_length (fun j other => ?_) ?_
    (.inr ⟨List.getElem?_eq_none (Nat.le_refl _), rfl, fresh⟩) index
  · -- in front of the new entry nothing moves, behind it there is nothing
    rcases Nat.lt_or_gt_of_ne other with before | after
    · exact List.getElem?_append_left before
    · rw [List.getElem?_eq_none (by simp; omega), List.getElem?_eq_none (by omega)]
  · rintro a ⟨rfl⟩
    rfl

/-- The last entry is dropped. -/
theorem dropLast (indexed : Indexes key get cells)
    (held : cells[cells.length - 1]? = some removed)
    (gone : ∀ k, get' k = if k = key removed then none else get k) :
    Indexes key get' cells.dropLast ∧ ∀ k, lookup get' cells.dropLast k =
      if k = key removed then none else lookup get cells k := by
  refine Holds.update indexed ?_ (fun j other => ?_) nofun (.inl (indexed.get_key held)) gone
  · rw [List.getElem?_dropLast, if_neg (Nat.lt_irrefl _)]
  · rw [List.getElem?_dropLast]
    split
    · rfl
    next beyond => rw [List.getElem?_eq_none (by omega)]

section SwapRemove

variable (indexed : Indexes key get cells) (held : cells[i]? = some removed)
  (at_last : cells[cells.length - 1]? = some moved) (inner : i ≠ cells.length - 1)
  (swapped : ∀ k, get' k =
    if k = key moved then some i else if k = key removed then none else get k)

include held inner in
theorem dropLast_set : (cells.set i moved).dropLast = cells.dropLast.set i moved := by
  have bound := (List.getElem?_eq_some_iff.mp held).1
  refine List.ext_getElem? fun j => ?_
  simp only [List.getElem?_dropLast, List.length_set, List.getElem?_set, List.length_dropLast]
  split
  next inside =>
    by_cases here : i = j
    · subst here
      simp only [if_true, inside]
    · rw [if_neg here, if_neg here]
  next beyond =>
    have other : i ≠ j := by omega
    rw [if_neg other]

include held inner in
theorem getElem?_dropLast_inner : cells.dropLast[i]? = some removed := by
  have bound := (List.getElem?_eq_some_iff.mp held).1
  rw [List.getElem?_dropLast, if_pos (by omega), held]

include swapped in
/-- The index once the last entry is gone and before it is in its new place. -/
theorem swapped_between (k : κ) :
    get' k = if k = key moved then some i else if k = key removed then none
      else if k = key moved then none else get k := by
  rw [swapped k]
  split
  · rfl
  · rfl

include indexed held at_last inner swapped in
/-- An entry is dropped and the last one takes its place. -/
theorem swapRemove : Indexes key get' (cells.set i moved).dropLast ∧
    ∀ k, lookup get' (cells.set i moved).dropLast k =
      if k = key removed then none else lookup get cells k := by
  rw [dropLast_set held inner]
  -- two writes: the last entry goes, then it overwrites the one that is dropped
  obtain ⟨between, lookup⟩ :
      Indexes key (fun k => if k = key moved then none else get k) cells.dropLast ∧ _ :=
    indexed.dropLast at_last fun _ => rfl
  obtain ⟨after, replaced⟩ := between.replace (getElem?_dropLast_inner held inner) moved
    (if_pos rfl) (swapped_between swapped)
  refine ⟨after, fun k => ?_⟩
  rw [replaced k, lookup k]
  by_cases own : k = key moved
  · -- two positions, so two keys
    have other : k ≠ key removed := fun same =>
      inner (indexed.index_unique held at_last (same.symm.trans own))
    rw [if_pos own, if_neg other, own, indexed.lookup_key at_last]
  · rw [if_neg own, if_neg own]

end SwapRemove

end Indexes

end Indexed
