import Varta.Lib.Lists
import Mathlib.Tactic.Common

/-!
# Open addressing with tombstones

A table of cells, and for each key the finite sequence of positions at which it may lie.
A removed entry leaves a tombstone, so that a search for another key goes on past it. The
probe sequences are arbitrary: nothing here depends on hashing or on their step.
-/
namespace Probing

inductive Cell (κ : Type) where
  | empty
  | tombstone
  | live (key : κ) (value : Nat)
  deriving DecidableEq, Repr

section

variable {κ : Type} [DecidableEq κ] (cells : List (Cell κ)) (key : κ)

/-- Follow the probe sequence up to the entry of `key`; an empty cell ends the search. -/
def locate : List Nat → Option Nat
  | [] => none
  | i :: rest =>
    match cells[i]? with
    | none => none
    -- the key would have been put here
    | some .empty => none
    | some .tombstone => locate rest
    | some (.live other _) => if other = key then some i else locate rest

/-- Where an insertion goes. -/
inductive Place where
  | found (i : Nat)
  | vacant (i : Nat)
  | exhausted
  deriving DecidableEq, Repr

/-- Follow the probe sequence to the entry of `key`, to an empty cell or to its end, and
remember the first tombstone on the way. -/
def place : List Nat → Option Nat → Place
  | [], some t => .vacant t
  | [], none => .exhausted
  | i :: rest, firstTombstone =>
    match cells[i]? with
    | none => .exhausted
    -- the key is not in the table: reuse the first tombstone, or this cell
    | some .empty => .vacant (firstTombstone.getD i)
    | some .tombstone => place rest (firstTombstone.or (some i))
    | some (.live other _) => if other = key then .found i else place rest firstTombstone

def valueAt (i : Nat) : Option Nat :=
  match cells[i]? with
  | some (.live _ value) => some value
  | _ => none

/-- A search for `key` goes on past position `i`. -/
def Passed (i : Nat) : Prop :=
  ∃ cell, cells[i]? = some cell ∧ cell ≠ .empty ∧ ∀ value, cell ≠ .live key value

variable {cells key}

variable {probes : List Nat} {t : Nat}

/-- A search that finds an entry has passed everything before it. -/
theorem locate_eq_some {j : Nat} (found : locate cells key probes = some j) :
    ∃ before after value, probes = before ++ j :: after ∧ cells[j]? = some (.live key value) ∧
      ∀ i ∈ before, Passed cells key i := by
  induction probes with
  | nil => cases found
  | cons i rest ih =>
    rw [locate] at found
    -- one step further, behind a cell that is passed
    have step : locate cells key rest = some j → Passed cells key i →
        ∃ before after value, i :: rest = before ++ j :: after ∧
          cells[j]? = some (.live key value) ∧ ∀ i ∈ before, Passed cells key i := by
      intro later passed
      obtain ⟨before, after, value, shape, live, earlier⟩ := ih later
      refine ⟨i :: before, after, value, by rw [shape, List.cons_append], live, ?_⟩
      intro k member
      rcases List.mem_cons.mp member with rfl | member
      · exact passed
      · exact earlier k member
    split at found
    · cases found
    · cases found
    next present => exact step found ⟨.tombstone, present, by simp, by simp⟩
    next other value present =>
      split at found
      next same =>
        cases found
        exact ⟨[], rest, value, rfl, same ▸ present, by simp⟩
      next differs =>
        exact step found ⟨.live other value, present, by simp, by simp [differs]⟩

variable {firstTombstone : Option Nat}

def Place.found? : Place → Option Nat
  | .found i => some i
  | _ => none

/-- `place` finds an entry exactly where `locate` does. -/
theorem found?_place (firstTombstone : Option Nat) :
    (place cells key probes firstTombstone).found? = locate cells key probes := by
  induction probes generalizing firstTombstone with
  | nil => cases firstTombstone <;> rfl
  | cons i rest ih =>
    rw [place, locate]
    cases cells[i]? with
    | none => rfl
    | some cell =>
      cases cell with
      | empty => rfl
      | tombstone => exact ih _
      | live other value =>
        dsimp only
        split
        · rfl
        · exact ih _

theorem locate_of_place {target : Place} (placed : place cells key probes firstTombstone = target) :
    locate cells key probes = target.found? := by
  rw [← placed, found?_place]

theorem place_tombstone {first : Nat} (vacant : place cells key probes (some first) = .vacant t) :
    t = first := by
  induction probes with
  | nil =>
    cases vacant
    rfl
  | cons i rest ih =>
    rw [place] at vacant
    split at vacant
    · cases vacant
    · cases vacant
      rfl
    · exact ih vacant
    · split at vacant
      · cases vacant
      · exact ih vacant

/-- With a tombstone in hand the search cannot fail. -/
theorem place_some_ne_exhausted (bounded : ∀ i ∈ probes, i < cells.length) (first : Nat) :
    place cells key probes (some first) ≠ .exhausted := by
  induction probes with
  | nil => simp [place]
  | cons i rest ih =>
    have later := ih fun j member => bounded j (List.mem_cons_of_mem _ member)
    rw [place, List.getElem?_eq_getElem (bounded i List.mem_cons_self)]
    split
    next absent => cases absent
    · simp
    · exact later
    · split
      · simp
      · exact later

/-- The search goes past `before`, possibly with a tombstone. -/
theorem place_of_passed {before rest : List Nat} (passed : ∀ i ∈ before, Passed cells key i)
    (firstTombstone : Option Nat) :
    ∃ first, place cells key (before ++ rest) firstTombstone = place cells key rest first := by
  induction before generalizing firstTombstone with
  | nil => exact ⟨firstTombstone, rfl⟩
  | cons i before ih =>
    obtain ⟨cell, present, occupied, other⟩ := passed i List.mem_cons_self
    have tail := ih fun j member => passed j (List.mem_cons_of_mem _ member)
    rw [List.cons_append, place, present]
    cases cell with
    | empty => exact absurd rfl occupied
    | tombstone => exact tail _
    | live k value =>
      have differs : k ≠ key := by
        rintro rfl
        exact other value rfl
      simp only [differs, if_false]
      exact tail _

theorem locate_of_passed {before rest : List Nat} (passed : ∀ i ∈ before, Passed cells key i) :
    locate cells key (before ++ rest) = locate cells key rest := by
  obtain ⟨first, goes_on⟩ := place_of_passed passed none
  rw [← found?_place none, goes_on, found?_place]

/-- A vacant place is on the probe sequence, and a search reaches it. -/
theorem place_vacant (vacant : place cells key probes none = .vacant t) :
    ∃ before after, probes = before ++ t :: after ∧
      (cells[t]? = some .empty ∨ cells[t]? = some .tombstone) ∧
        ∀ i ∈ before, ∃ other value, cells[i]? = some (.live other value) ∧ other ≠ key := by
  induction probes with
  | nil => cases vacant
  | cons i rest ih =>
    rw [place] at vacant
    split at vacant
    · cases vacant
    next present =>
      cases vacant
      exact ⟨[], rest, rfl, Or.inl present, by simp⟩
    next present =>
      -- the first tombstone on the way is the one that is returned
      obtain rfl := place_tombstone vacant
      exact ⟨[], rest, rfl, Or.inr present, by simp⟩
    next other value present =>
      split at vacant
      · cases vacant
      next differs =>
        obtain ⟨before, after, shape, free, earlier⟩ := ih vacant
        refine ⟨i :: before, after, by rw [shape, List.cons_append], free, ?_⟩
        intro k member
        rcases List.mem_cons.mp member with rfl | member
        · exact ⟨other, value, present, differs⟩
        · exact earlier k member

/-- An insertion fails exactly where all positions are taken by other keys. -/
theorem place_exhausted_iff (bounded : ∀ i ∈ probes, i < cells.length) :
    place cells key probes none = .exhausted ↔
      ∀ i ∈ probes, ∃ other value, cells[i]? = some (.live other value) ∧ other ≠ key := by
  induction probes with
  | nil => simp [place]
  | cons i rest ih =>
    have later : ∀ j ∈ rest, j < cells.length :=
      fun j member => bounded j (List.mem_cons_of_mem _ member)
    obtain ⟨cell, here⟩ : ∃ cell, cells[i]? = some cell :=
      ⟨_, List.getElem?_eq_getElem (bounded i List.mem_cons_self)⟩
    rw [place, List.forall_mem_cons, here]
    cases cell with
    | empty => simp
    | tombstone =>
      have free : place cells key rest (some i) ≠ .exhausted := place_some_ne_exhausted later i
      simp [free]
    | live other value =>
      by_cases same : other = key
      · simp [same]
      · simp [same, ih later]

end

/-! ### Well-formed tables -/

section

variable {κ : Type} [DecidableEq κ] (probes : κ → List Nat)

/-- Every entry is where the search for its key gets to. -/
structure Wf (cells : List (Cell κ)) : Prop where
  reached : ∀ key value (j : Nat), cells[j]? = some (.live key value) →
    ∃ before after, probes key = before ++ j :: after ∧ ∀ i ∈ before, Passed cells key i

def get (cells : List (Cell κ)) (key : κ) : Option Nat :=
  (locate cells key (probes key)).bind (valueAt cells)

variable {probes} {cells : List (Cell κ)}

variable {key : κ} {value : Nat}

theorem Wf.locate_of_live (wf : Wf probes cells) {j : Nat}
    (live : cells[j]? = some (.live key value)) : locate cells key (probes key) = some j := by
  obtain ⟨before, after, shape, passed⟩ := wf.reached key value j live
  -- the search passes everything before the entry, and stops at it
  rw [shape, locate_of_passed passed, locate, live]
  simp

/-- A lookup returns what is in the table. -/
theorem Wf.get_eq_some_iff (wf : Wf probes cells) :
    get probes cells key = some value ↔ ∃ j : Nat, cells[j]? = some (.live key value) := by
  constructor
  · intro found
    obtain ⟨j, located, at_j⟩ := Option.bind_eq_some_iff.mp found
    obtain ⟨_, _, stored, _, live, _⟩ := locate_eq_some located
    rw [valueAt, live] at at_j
    cases at_j
    exact ⟨j, live⟩
  · rintro ⟨j, live⟩
    rw [get, wf.locate_of_live live, Option.bind_some, valueAt, live]

theorem Wf.get_congr {cells' : List (Cell κ)} (wf : Wf probes cells) (wf' : Wf probes cells')
    (same : ∀ value, (∃ j : Nat, cells'[j]? = some (.live key value)) ↔
      ∃ j : Nat, cells[j]? = some (.live key value)) :
    get probes cells' key = get probes cells key := by
  apply Option.ext
  intro value
  rw [wf'.get_eq_some_iff, wf.get_eq_some_iff, same value]

omit [DecidableEq κ] in
theorem wf_replicate (n : Nat) : Wf probes (List.replicate n (.empty : Cell κ)) := by
  constructor
  intro key value j live
  rw [List.getElem?_replicate] at live
  split at live <;> cases live

theorem get_replicate (n : Nat) (key : κ) :
    get probes (List.replicate n (.empty : Cell κ)) key = none := by
  rw [Option.eq_none_iff_forall_ne_some]
  intro value found
  obtain ⟨j, live⟩ := (wf_replicate n).get_eq_some_iff.mp found
  rw [List.getElem?_replicate] at live
  split at live <;> cases live

omit [DecidableEq κ] in
/-- Overwriting a cell keeps other keys' searches going as long as the new content is
passed by them. -/
theorem Passed.set {i j : Nat} {cell : Cell κ} (passed : Passed cells key i)
    (occupied : cell ≠ .empty) (other : ∀ value, cell ≠ .live key value) :
    Passed (cells.set j cell) key i := by
  obtain ⟨old, present, nonempty, differs⟩ := passed
  by_cases same : j = i
  · -- the cell is overwritten, and the new content is passed as well
    subst same
    obtain ⟨bound, _⟩ := List.getElem?_eq_some_iff.mp present
    exact ⟨cell, by simp [bound], occupied, other⟩
  · exact ⟨old, by rw [List.getElem?_set_ne same]; exact present, nonempty, differs⟩

/-! ### Insertion -/

section

variable {key : κ} {value t : Nat}

omit [DecidableEq κ] in
/-- What is live after `key` was written to a cell that was not live for another key. -/
theorem live_set_iff (bound : t < cells.length)
    (free : ∀ other old, cells[t]? = some (.live other old) → other = key) {k : κ} {v : Nat}
    (differs : k ≠ key) :
    (∃ j : Nat, (cells.set t (.live key value))[j]? = some (.live k v)) ↔
      ∃ j : Nat, cells[j]? = some (.live k v) := by
  constructor
  · rintro ⟨j, live⟩
    by_cases same : t = j
    · subst same
      rw [List.getElem?_set_self bound] at live
      cases live
      exact absurd rfl differs
    · rw [List.getElem?_set_ne same] at live
      exact ⟨j, live⟩
  · rintro ⟨j, live⟩
    have elsewhere : t ≠ j := by
      rintro rfl
      exact differs (free k v live)
    exact ⟨j, by rw [List.getElem?_set_ne elsewhere]; exact live⟩

omit [DecidableEq κ] in
theorem Wf.set_of_reached (wf : Wf probes cells) (bound : t < cells.length)
    (reached : ∃ before after, probes key = before ++ t :: after ∧
      ∀ i ∈ before, i ≠ t ∧ Passed cells key i)
    (sole : ∀ j old, cells[j]? = some (.live key old) → j = t) :
    Wf probes (cells.set t (.live key value)) := by
  constructor
  intro k v j live
  by_cases same : t = j
  · subst same
    rw [List.getElem?_set_self bound] at live
    cases live
    -- the new entry is reached over cells that were not written
    obtain ⟨before, after, shape, passed⟩ := reached
    refine ⟨before, after, shape, fun i member => ?_⟩
    obtain ⟨elsewhere, cell, present, rest⟩ := passed i member
    exact ⟨cell, by rw [List.getElem?_set_ne elsewhere.symm]; exact present, rest⟩
  · rw [List.getElem?_set_ne same] at live
    -- an entry of another key: the written cell may lie on its way
    have differs : key ≠ k := by
      rintro rfl
      exact same (sole j v live).symm
    obtain ⟨before, after, shape, passed⟩ := wf.reached k v j live
    refine ⟨before, after, shape, fun i member => ?_⟩
    exact (passed i member).set (by simp) (by simp [differs])

/-- A key that is placed anew. -/
theorem Wf.set_vacant (wf : Wf probes cells)
    (vacant : place cells key (probes key) none = .vacant t) :
    t < cells.length ∧ Wf probes (cells.set t (.live key value)) ∧
      ∀ other old, cells[t]? ≠ some (.live other old) := by
  obtain ⟨before, after, shape, free, earlier⟩ := place_vacant vacant
  have absent : locate cells key (probes key) = none := locate_of_place vacant
  have bound : t < cells.length := by
    rcases free with empty | tombstone
    · exact (List.getElem?_eq_some_iff.mp empty).1
    · exact (List.getElem?_eq_some_iff.mp tombstone).1
  have dead : ∀ other old, cells[t]? ≠ some (.live other old) := by
    intro other old live
    rcases free with empty | tombstone
    · rw [empty] at live
      cases live
    · rw [tombstone] at live
      cases live
  refine ⟨bound, wf.set_of_reached bound ⟨before, after, shape, fun i member => ?_⟩ ?_, dead⟩
  · obtain ⟨other, old, live, differs⟩ := earlier i member
    constructor
    · rintro rfl
      exact dead other old live
    · exact ⟨.live other old, live, by simp, by simp [differs]⟩
  · intro j old live
    -- a second entry of the key would have been found
    rw [wf.locate_of_live live] at absent
    cases absent

/-- A key whose entry is overwritten. -/
theorem Wf.set_found (wf : Wf probes cells)
    (found : place cells key (probes key) none = .found t) :
    t < cells.length ∧ Wf probes (cells.set t (.live key value)) ∧
      ∀ other old, cells[t]? = some (.live other old) → other = key := by
  have located : locate cells key (probes key) = some t := locate_of_place found
  obtain ⟨before, after, old, shape, live, passed⟩ := locate_eq_some located
  have bound := (List.getElem?_eq_some_iff.mp live).1
  refine ⟨bound, wf.set_of_reached bound ⟨before, after, shape, fun i member => ?_⟩ ?_, ?_⟩
  · refine ⟨?_, passed i member⟩
    rintro rfl
    obtain ⟨cell, present, _, other⟩ := passed i member
    rw [live] at present
    cases present
    exact other old rfl
  · intro j old' live'
    have again := wf.locate_of_live live'
    rw [located] at again
    exact (Option.some.inj again).symm
  · intro other old' live'
    rw [live] at live'
    cases live'
    rfl

theorem get_set_self (wf : Wf probes (cells.set t (.live key value))) (bound : t < cells.length) :
    get probes (cells.set t (.live key value)) key = some value :=
  wf.get_eq_some_iff.mpr ⟨t, List.getElem?_set_self bound⟩

theorem get_set_of_ne (wf : Wf probes cells) (wf' : Wf probes (cells.set t (.live key value)))
    (bound : t < cells.length)
    (free : ∀ other old, cells[t]? = some (.live other old) → other = key) {k : κ}
    (differs : k ≠ key) :
    get probes (cells.set t (.live key value)) k = get probes cells k :=
  wf.get_congr wf' fun _ => live_set_iff bound free differs

end

/-! ### Removal -/

section

variable {key : κ} {j : Nat}

omit [DecidableEq κ] in
theorem live_tombstone_iff (k : κ) (v : Nat) :
    (∃ i : Nat, (cells.set j .tombstone)[i]? = some (.live k v)) ↔
      ∃ i : Nat, i ≠ j ∧ cells[i]? = some (.live k v) := by
  constructor
  · rintro ⟨i, live⟩
    by_cases same : j = i
    · subst same
      rw [List.getElem?_set] at live
      simp only [if_true] at live
      split at live <;> cases live
    · rw [List.getElem?_set_ne same] at live
      exact ⟨i, Ne.symm same, live⟩
  · rintro ⟨i, elsewhere, live⟩
    exact ⟨i, by rw [List.getElem?_set_ne elsewhere.symm]; exact live⟩

omit [DecidableEq κ] in
theorem Wf.set_tombstone (wf : Wf probes cells) : Wf probes (cells.set j .tombstone) := by
  constructor
  intro k v i live
  have same : i ≠ j := by
    rintro rfl
    rw [List.getElem?_set] at live
    simp only [if_true] at live
    split at live <;> cases live
  rw [List.getElem?_set_ne same.symm] at live
  obtain ⟨before, after, shape, passed⟩ := wf.reached k v i live
  exact ⟨before, after, shape, fun i' member => (passed i' member).set (by simp) (by simp)⟩

theorem get_tombstone_self (wf : Wf probes cells)
    (located : locate cells key (probes key) = some j) :
    get probes (cells.set j .tombstone) key = none := by
  rw [Option.eq_none_iff_forall_ne_some]
  intro value found
  obtain ⟨i, elsewhere, live⟩ :=
    (live_tombstone_iff key value).mp ((wf.set_tombstone).get_eq_some_iff.mp found)
  rw [wf.locate_of_live live] at located
  exact elsewhere (Option.some.inj located)

/-- The cell a key was removed from can take it again. -/
theorem place_tombstone_ne_exhausted
    (bounded : ∀ i ∈ probes key, i < cells.length)
    (located : locate cells key (probes key) = some j) :
    place (cells.set j .tombstone) key (probes key) none ≠ .exhausted := by
  obtain ⟨before, after, value, shape, live, passed⟩ := locate_eq_some located
  rw [shape] at bounded ⊢
  have past : ∀ i ∈ before, Passed (cells.set j .tombstone) key i :=
    fun i member => (passed i member).set (by simp) (by simp)
  obtain ⟨first, goes_on⟩ := @place_of_passed _ _ _ key before (j :: after) past none
  have bound := bounded j (by simp)
  rw [goes_on, place, List.getElem?_set_self bound]
  dsimp only
  -- from the tombstone on the search has a place
  have later : ∀ i ∈ after, i < (cells.set j .tombstone).length := by
    intro i member
    rw [List.length_set]
    exact bounded i (by simp [member])
  cases first with
  | none => exact place_some_ne_exhausted later j
  | some t => exact place_some_ne_exhausted later t

theorem get_tombstone_of_ne (wf : Wf probes cells)
    (located : locate cells key (probes key) = some j) {k : κ} (differs : k ≠ key) :
    get probes (cells.set j .tombstone) k = get probes cells k := by
  apply wf.get_congr wf.set_tombstone
  intro value
  rw [live_tombstone_iff]
  constructor
  · rintro ⟨i, _, live⟩
    exact ⟨i, live⟩
  · rintro ⟨i, live⟩
    refine ⟨i, ?_, live⟩
    rintro rfl
    obtain ⟨_, _, old, _, held, _⟩ := locate_eq_some located
    rw [held] at live
    cases live
    exact differs rfl

end

/-! ### The live entries -/

def Cell.entry? : Cell κ → Option (κ × Nat)
  | .live key value => some (key, value)
  | _ => none

/-- What an iteration over the table yields. -/
def entries (cells : List (Cell κ)) : List (κ × Nat) := cells.filterMap Cell.entry?

omit [DecidableEq κ] in
theorem Cell.entry?_eq_some {cell : Cell κ} {key : κ} {value : Nat} :
    cell.entry? = some (key, value) ↔ cell = .live key value := by
  cases cell <;> simp [Cell.entry?]

omit [DecidableEq κ] in
theorem mem_entries {key : κ} {value : Nat} :
    (key, value) ∈ entries cells ↔ ∃ j : Nat, cells[j]? = some (.live key value) := by
  rw [entries, List.mem_filterMap, ← List.mem_iff_getElem?]
  simp only [Cell.entry?_eq_some, exists_eq_right]

theorem Wf.mem_entries_iff (wf : Wf probes cells) :
    (key, value) ∈ entries cells ↔ get probes cells key = some value := by
  rw [mem_entries, wf.get_eq_some_iff]

/-- No key is yielded twice. -/
theorem Wf.nodup_keys (wf : Wf probes cells) : ((entries cells).map Prod.fst).Nodup := by
  rw [List.Nodup, List.pairwise_map, entries, List.pairwise_filterMap, List.pairwise_iff_getElem]
  intro i j inside inside' before e first e' second same
  have live := Cell.entry?_eq_some.mp first
  have live' := Cell.entry?_eq_some.mp second
  have located := wf.locate_of_live (List.getElem?_eq_some_iff.mpr ⟨inside, live⟩)
  have located' := wf.locate_of_live (List.getElem?_eq_some_iff.mpr ⟨inside', live'⟩)
  rw [same, located'] at located
  cases located
  omega

omit [DecidableEq κ] in
theorem length_entries_set {i : Nat} {old new : Cell κ} (held : cells[i]? = some old) :
    (entries (cells.set i new)).length + old.entry?.toList.length =
      (entries cells).length + new.entry?.toList.length := by
  induction cells generalizing i with
  | nil => simp at held
  | cons first rest ih =>
    cases i with
    | zero =>
      obtain rfl : first = old := by simpa using held
      simp only [entries, List.set_cons_zero, List.filterMap_cons]
      cases first.entry? <;> cases new.entry? <;> simp
    | succ i =>
      have later := ih (by simpa using held)
      simp only [entries] at later
      simp only [entries, List.set_cons_succ, List.filterMap_cons]
      cases first.entry? with
      | none => exact later
      | some e =>
        simp only [List.length_cons]
        omega

/-- A removal leaves the other keys in their order. -/
theorem Wf.keys_tombstone (wf : Wf probes cells) {i : Nat}
    (live : cells[i]? = some (.live key value)) :
    (entries (cells.set i .tombstone)).map Prod.fst =
      ((entries cells).map Prod.fst).filter (· ≠ key) := by
  have bound := (List.getElem?_eq_some_iff.mp live).1
  have shape := Lists.eq_take_cons_drop live
  have keys : (entries cells).map Prod.fst =
      (entries (cells.take i)).map Prod.fst ++ key :: (entries (cells.drop (i + 1))).map Prod.fst := by
    conv => lhs; rw [shape]
    rw [entries, List.filterMap_append,
      List.filterMap_cons_some (Cell.entry?_eq_some.mpr rfl : Cell.entry? (.live key value) = _),
      List.map_append]
    rfl
  have unique := wf.nodup_keys
  rw [keys] at unique
  have absent := (List.nodup_cons.mp (List.perm_middle.nodup unique)).1
  rw [keys, List.set_eq_take_append_cons_drop, if_pos bound, List.filter_append,
    List.filter_cons_of_neg (by simp)]
  rw [← List.filter_append, List.filter_eq_self.mpr]
  · rw [entries, List.filterMap_append, List.filterMap_cons_none rfl, List.map_append]
    rfl
  · intro k member
    apply decide_eq_true
    rintro rfl
    exact absent member

omit [DecidableEq κ] in
theorem entries_replicate (n : Nat) : entries (List.replicate n (.empty : Cell κ)) = [] := by
  simp [entries, List.filterMap_replicate, Cell.entry?]

end

end Probing
