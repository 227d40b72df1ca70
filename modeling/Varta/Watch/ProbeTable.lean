import Mathlib.Data.Nat.Bitwise
import Varta.Lib.Machine
import Varta.Lib.Probing

/-!
# Bounded index

`BoundedIndex` of `probe_table.rs`: a fixed-size map from keys to slot numbers by linear
probing, at most `MAX_PROBE` probes per operation.
-/
namespace Varta.Watch

open Machine
open Probing (Cell)

/-- The Murmur3 finalizer, the hash of a pid. -/
def mix32 (x : UInt32) : UInt32 :=
  let x := (x ^^^ (x >>> 16)) * 0x85ebca6b
  let x := (x ^^^ (x >>> 13)) * 0xc2b2ae35
  x ^^^ (x >>> 16)

def maxProbe : Nat := 64

/-- The positions a loop of `n` probes visits from `i` on. The table has a power of two
cells, so that its mask is the remainder by its size. -/
def probeFrom (size : Nat) : Nat → Nat → List Nat
  | 0, _ => []
  | n + 1, i => i :: probeFrom size n ((i + 1) % size)

def probes {κ : Type} (hash32 : κ → UInt32) (size : Nat) (key : κ) : List Nat :=
  probeFrom size maxProbe ((hash32 key).toNat % size)

theorem probeFrom_lt {size : Nat} (nonempty : 0 < size) (n : Nat) {i : Nat} (start : i < size) :
    ∀ j ∈ probeFrom size n i, j < size := by
  induction n generalizing i with
  | zero => simp [probeFrom]
  | succ n ih =>
    intro j member
    rcases List.mem_cons.mp member with rfl | later
    · exact start
    · exact ih (Nat.mod_lt _ nonempty) j later

/-- The table with what every operation keeps. `hash32` is the `Hash32` implementation of
the key type; a cell is the source's `Entry`, with the sentinels of `slot_idx` as
constructors. -/
structure BoundedIndex (κ : Type) where
  hash32 : κ → UInt32
  table : List (Cell κ)
  occupied : Nat
  probeExhausted : Nat
  nonempty : 0 < table.length
  wf : Probing.Wf (probes hash32 table.length) table

/-- Entries to hold at half load. -/
def tableSize (capacity : Nat) : Nat := (max (capacity * 2) 2).nextPowerOfTwo

namespace BoundedIndex

section

variable {κ : Type} [DecidableEq κ]

theorem tableSize_pos (capacity : Nat) : 0 < tableSize capacity :=
  Nat.pos_of_isPowerOfTwo (Nat.isPowerOfTwo_nextPowerOfTwo _)

def new (hash32 : κ → UInt32) (capacity : Nat) : BoundedIndex κ where
  hash32 := hash32
  table := List.replicate (tableSize capacity) .empty
  occupied := 0
  probeExhausted := 0
  nonempty := by simpa using tableSize_pos capacity
  -- an empty table has no entry to reach
  wf := Probing.wf_replicate _

def len (index : BoundedIndex κ) : Nat := index.occupied

def get (index : BoundedIndex κ) (key : κ) : Option Nat :=
  Probing.get (probes index.hash32 index.table.length) index.table key

omit [DecidableEq κ] in
theorem set_wf {index : BoundedIndex κ} {i : Nat} {cell : Cell κ}
    (wf : Probing.Wf (probes index.hash32 index.table.length) (index.table.set i cell)) :
    Probing.Wf (probes index.hash32 (index.table.set i cell).length) (index.table.set i cell) := by
  rw [List.length_set]
  exact wf

/-- `insert`; the second component is `false` for `Err(ProbeExhausted)`. -/
def insert (index : BoundedIndex κ) (key : κ) (slot : Nat) : BoundedIndex κ × Bool :=
  match placed : Probing.place index.table key (probes index.hash32 index.table.length key) none with
  | .vacant i =>
    -- an empty cell and a reclaimed tombstone both make one more live entry
    ({ index with
      table := index.table.set i (.live key slot)
      occupied := index.occupied + 1
      nonempty := by simpa using index.nonempty
      wf := set_wf (index.wf.set_vacant placed).2.1 }, true)
  | .found i =>
    ({ index with
      table := index.table.set i (.live key slot)
      nonempty := by simpa using index.nonempty
      wf := set_wf (index.wf.set_found placed).2.1 }, true)
  | .exhausted => ({ index with probeExhausted := u64SaturatingAdd index.probeExhausted 1 },
      false)

def remove (index : BoundedIndex κ) (key : κ) : BoundedIndex κ × Option Nat :=
  match Probing.locate index.table key (probes index.hash32 index.table.length key) with
  | none => (index, none)
  | some i =>
    ({ index with
      -- the cell stays occupied for the searches that pass it
      table := index.table.set i .tombstone
      occupied := index.occupied - 1
      nonempty := by simpa using index.nonempty
      wf := set_wf index.wf.set_tombstone }, Probing.valueAt index.table i)

/-- The live pairs in table order. -/
def iter (index : BoundedIndex κ) : List (κ × Nat) := Probing.entries index.table

def takeProbeExhausted (index : BoundedIndex κ) : Nat × BoundedIndex κ :=
  (index.probeExhausted, { index with probeExhausted := 0 })

def clear (index : BoundedIndex κ) : BoundedIndex κ :=
  { index with
    table := List.replicate index.table.length .empty
    occupied := 0
    nonempty := by simpa using index.nonempty
    wf := Probing.wf_replicate _ }

/-! ### The map it implements -/

@[simp] theorem get_new (hash32 : κ → UInt32) (capacity : Nat) (key : κ) :
    (new hash32 capacity).get key = none :=
  Probing.get_replicate _ _

/-- What an insertion does to the map: the update, or nothing at all. -/
theorem insert_cases (index : BoundedIndex κ) (key : κ) (slot : Nat) :
    ((index.insert key slot).2 = true ∧ (index.insert key slot).1.get key = some slot ∧
        ∀ k, k ≠ key → (index.insert key slot).1.get k = index.get k) ∨
      ((index.insert key slot).2 = false ∧ index.get key = none ∧
        ∀ k, (index.insert key slot).1.get k = index.get k) := by
  -- both ways of writing the entry set one cell that was nobody else's
  have written : ∀ i, i < index.table.length →
      Probing.Wf (probes index.hash32 index.table.length) (index.table.set i (.live key slot)) →
      (∀ other old, index.table[i]? = some (.live other old) → other = key) →
      Probing.get (probes index.hash32 (index.table.set i (.live key slot)).length)
          (index.table.set i (.live key slot)) key = some slot ∧
        ∀ k, k ≠ key → Probing.get (probes index.hash32 (index.table.set i (.live key slot)).length)
          (index.table.set i (.live key slot)) k = index.get k := by
    intro i bound wf free
    rw [List.length_set]
    exact ⟨Probing.get_set_self wf bound,
      fun k differs => Probing.get_set_of_ne index.wf wf bound free differs⟩
  unfold insert
  split
  next i placed =>
    obtain ⟨bound, wf, dead⟩ := index.wf.set_vacant placed
    exact Or.inl ⟨rfl, written i bound wf fun other old live => absurd live (dead other old)⟩
  next i placed =>
    obtain ⟨bound, wf, own⟩ := index.wf.set_found placed
    exact Or.inl ⟨rfl, written i bound wf own⟩
  next placed =>
    refine Or.inr ⟨rfl, ?_, fun _ => rfl⟩
    rw [get, Probing.get, Probing.locate_of_place placed]
    rfl

variable {index : BoundedIndex κ} {key : κ}

theorem get_of_insert {index' : BoundedIndex κ} {slot : Nat}
    (inserted : index.insert key slot = (index', true)) (k : κ) :
    index'.get k = if k = key then some slot else index.get k := by
  -- the flag says which of the two happened
  rcases index.insert_cases key slot with ⟨_, own, others⟩ | ⟨refused, _⟩
  · rw [inserted] at own others
    split
    next here => rw [here, own]
    next other => exact others k other
  · rw [inserted] at refused
    cases refused

theorem get_of_insert_refused {index' : BoundedIndex κ} {slot : Nat}
    (refused : index.insert key slot = (index', false)) (k : κ) : index'.get k = index.get k := by
  rcases index.insert_cases key slot with ⟨inserted, _⟩ | ⟨_, _, same⟩
  · rw [refused] at inserted
    cases inserted
  · rw [refused] at same
    exact same k

theorem remove_none
    (absent : Probing.locate index.table key (probes index.hash32 index.table.length key) = none) :
    index.remove key = (index, none) := by
  rw [remove, absent]

/-- A removal returns the entry and takes it out of the map. -/
theorem get_remove (index : BoundedIndex κ) (key k : κ) :
    (index.remove key).2 = index.get key ∧
      (index.remove key).1.get k = if k = key then none else index.get k := by
  cases located : Probing.locate index.table key (probes index.hash32 index.table.length key) with
  | none =>
    have absent : index.get key = none := by
      rw [get, Probing.get, located, Option.bind_none]
    rw [remove_none located]
    refine ⟨absent.symm, ?_⟩
    split
    next same => rw [same, absent]
    next => rfl
  | some i =>
    have removed : (index.remove key).1.get k =
        Probing.get (probes index.hash32 index.table.length) (index.table.set i .tombstone) k := by
      simp only [remove, located, get, List.length_set]
    constructor
    · simp only [remove, located, get, Probing.get, Option.bind_some]
    · rw [removed]
      split
      next same =>
        rw [same]
        exact Probing.get_tombstone_self index.wf located
      next differs => exact Probing.get_tombstone_of_ne index.wf located differs

omit [DecidableEq κ] in
theorem probes_lt (index : BoundedIndex κ) (key : κ) :
    ∀ j ∈ probes index.hash32 index.table.length key, j < index.table.length :=
  probeFrom_lt index.nonempty maxProbe (Nat.mod_lt _ index.nonempty)

/-- Whether the index has a place for `key`, its own or a free one. -/
def admits (index : BoundedIndex κ) (key : κ) : Prop :=
  Probing.place index.table key (probes index.hash32 index.table.length key) none ≠ .exhausted

section

variable (index : BoundedIndex κ)

variable {slot : Nat} (key : κ)

theorem insert_eq_true_iff (slot : Nat) : (index.insert key slot).2 = true ↔ index.admits key := by
  unfold insert admits
  split
  next i placed => simp [placed]
  next i placed => simp [placed]
  next placed => simp [placed]

theorem admits_of_get {key : κ} (present : index.get key = some slot) : index.admits key := by
  intro exhausted
  -- a key that is present is found before the probes run out
  rw [get, Probing.get, Probing.locate_of_place exhausted] at present
  cases present

/-- A refused insertion leaves the table as it was. -/
theorem admits_of_insert_refused {key : κ} (refused : (index.insert key slot).2 = false) (k : κ) :
    (index.insert key slot).1.admits k ↔ index.admits k := by
  unfold insert at refused ⊢
  split at refused
  · cases refused
  · cases refused
  · exact Iff.rfl

/-- A key that was just removed can be put back. -/
theorem admits_of_removed {key : κ} (present : index.get key = some slot) :
    (index.remove key).1.admits key := by
  obtain ⟨i, located, _⟩ := Option.bind_eq_some_iff.mp present
  simp only [admits, remove, located, List.length_set]
  exact Probing.place_tombstone_ne_exhausted (index.probes_lt key) located

/-- An insertion is refused exactly for an absent key whose whole window is live. -/
theorem insert_eq_false_iff (slot : Nat) :
    (index.insert key slot).2 = false ↔ index.get key = none ∧
      ∀ i ∈ probes index.hash32 index.table.length key,
        ∃ other value, index.table[i]? = some (.live other value) := by
  have admitted := insert_eq_true_iff index key slot
  rw [← Bool.not_eq_true, admitted, admits, not_not,
    Probing.place_exhausted_iff (index.probes_lt key)]
  constructor
  · intro taken
    constructor
    · cases found : index.get key with
      | none => rfl
      | some value =>
        obtain ⟨i, located, _⟩ := Option.bind_eq_some_iff.mp found
        obtain ⟨before, after, value', shape, live, _⟩ := Probing.locate_eq_some located
        obtain ⟨other, old, held, differs⟩ := taken i (by simp [shape])
        rw [live] at held
        cases held
        exact absurd rfl differs
    · intro i member
      obtain ⟨other, value, live, _⟩ := taken i member
      exact ⟨other, value, live⟩
  · rintro ⟨absent, taken⟩ i member
    obtain ⟨other, value, live⟩ := taken i member
    refine ⟨other, value, live, ?_⟩
    rintro rfl
    have present := index.wf.get_eq_some_iff.mpr ⟨i, live⟩
    rw [get, present] at absent
    cases absent

@[simp] theorem get_clear : index.clear.get key = none :=
  Probing.get_replicate _ _

theorem mem_iter {key : κ} : (key, slot) ∈ index.iter ↔ index.get key = some slot :=
  index.wf.mem_entries_iff

theorem nodup_iter : (index.iter.map Prod.fst).Nodup :=
  index.wf.nodup_keys

/-- A removal leaves the other keys in their order. -/
theorem keys_remove :
    (index.remove key).1.iter.map Prod.fst = (index.iter.map Prod.fst).filter (· ≠ key) := by
  cases located : Probing.locate index.table key (probes index.hash32 index.table.length key) with
  | none =>
    rw [remove_none located]
    symm
    apply List.filter_eq_self.mpr
    intro other member
    obtain ⟨⟨_, slot⟩, listed, rfl⟩ := List.mem_map.mp member
    have present := index.mem_iter.mp listed
    apply decide_eq_true
    rintro rfl
    rw [get, Probing.get, located, Option.bind_none] at present
    cases present
  | some i =>
    obtain ⟨before, after, value, -, live, -⟩ := Probing.locate_eq_some located
    have removed : (index.remove key).1.iter = Probing.entries (index.table.set i .tombstone) := by
      simp only [remove, located, iter]
    rw [removed]
    exact index.wf.keys_tombstone live

end

/-- `occupied` is the number of live cells. -/
def Counted (index : BoundedIndex κ) : Prop := index.occupied = index.iter.length

omit [DecidableEq κ] in
theorem counted_new (hash32 : κ → UInt32) (capacity : Nat) : (new hash32 capacity).Counted := by
  simp [Counted, new, iter, Probing.entries_replicate]

omit [DecidableEq κ] in
theorem counted_clear (index : BoundedIndex κ) : index.clear.Counted := by
  simp [Counted, clear, iter, Probing.entries_replicate]

theorem Counted.insert (counted : index.Counted) (key : κ) (slot : Nat) :
    (index.insert key slot).1.Counted := by
  unfold Counted at counted
  unfold BoundedIndex.insert
  split
  next i placed =>
    obtain ⟨before, after, shape, free, _⟩ := Probing.place_vacant placed
    simp only [Counted, iter, counted]
    rcases free with held | held
    · have length := @Probing.length_entries_set κ index.table i _ (.live key slot) held
      simpa [Probing.Cell.entry?] using length.symm
    · have length := @Probing.length_entries_set κ index.table i _ (.live key slot) held
      simpa [Probing.Cell.entry?] using length.symm
  next i placed =>
    obtain ⟨before, after, old, shape, held, _⟩ :=
      Probing.locate_eq_some (Probing.locate_of_place placed)
    have length := @Probing.length_entries_set κ index.table i _ (.live key slot) held
    simp only [Counted, iter, counted]
    simpa [Probing.Cell.entry?] using length.symm
  · exact counted

theorem Counted.remove (counted : index.Counted) (key : κ) : (index.remove key).1.Counted := by
  unfold Counted at counted
  unfold BoundedIndex.remove
  split
  · exact counted
  next i located =>
    obtain ⟨before, after, old, shape, held, _⟩ := Probing.locate_eq_some located
    have length := @Probing.length_entries_set κ index.table i _ .tombstone held
    simp only [Probing.Cell.entry?, Option.toList_some, Option.toList_none, List.length_singleton,
      List.length_nil] at length
    simp only [Counted, iter, counted]
    omega

end

end BoundedIndex

end Varta.Watch
