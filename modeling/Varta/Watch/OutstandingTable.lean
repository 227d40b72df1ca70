import Varta.Lib.Indexed
import Varta.Watch.ProbeTable

/-!
# The table of outstanding children

`outstanding_table.rs`: a slab with a free list and an index from pids to slots. A slot is
reserved before a child is spawned, and then filled or given back; taken together, either is
one update of a partial map.
-/
namespace Varta.Watch

inductive InsertError where
  | alreadyPresent
  | full
  deriving DecidableEq, Repr

structure Reservation where
  pid : UInt32
  slotIdx : Nat
  deriving DecidableEq, Repr

/-- The free list is a stack with its top in front. -/
structure OutstandingTable (V : Type) where
  slab : List (Option V)
  freeList : List Nat
  pidToSlot : BoundedIndex UInt32

namespace OutstandingTable

variable {V : Type}

/-- The source pushes the slots in descending order, so that slot 0 is popped first. -/
def withCapacity (capacity : Nat) : OutstandingTable V where
  slab := List.replicate capacity none
  freeList := List.range capacity
  pidToSlot := .new mix32 capacity

def len (t : OutstandingTable V) : Nat := t.pidToSlot.len

def contains (t : OutstandingTable V) (pid : UInt32) : Bool := (t.pidToSlot.get pid).isSome

def get (t : OutstandingTable V) (pid : UInt32) : Option V :=
  (t.pidToSlot.get pid).bind fun idx => t.slab[idx]?.join

/-- What the caller of `get_mut` writes through the reference. -/
def put (t : OutstandingTable V) (pid : UInt32) (value : V) : OutstandingTable V :=
  match t.pidToSlot.get pid with
  | none => t
  | some idx => { t with slab := t.slab.set idx (some value) }

def tryReserve (t : OutstandingTable V) (pid : UInt32) :
    Except InsertError Reservation × OutstandingTable V :=
  match t.pidToSlot.get pid with
  | some _ => (.error .alreadyPresent, t)
  | none =>
    match t.freeList with
    | [] => (.error .full, t)
    | slotIdx :: rest =>
      match t.pidToSlot.insert pid slotIdx with
      | (index, true) => (.ok ⟨pid, slotIdx⟩, { t with freeList := rest, pidToSlot := index })
      -- the slot goes back on the stack it was popped from
      | (index, false) => (.error .full, { t with pidToSlot := index })

def commitReserved (t : OutstandingTable V) (reservation : Reservation) (value : V) :
    OutstandingTable V :=
  { t with slab := t.slab.set reservation.slotIdx (some value) }

def releaseReservation (t : OutstandingTable V) (reservation : Reservation) :
    OutstandingTable V :=
  match t.pidToSlot.remove reservation.pid with
  | (index, some _) =>
    { t with freeList := reservation.slotIdx :: t.freeList, pidToSlot := index }
  | (index, none) => { t with pidToSlot := index }

def remove (t : OutstandingTable V) (pid : UInt32) : Option V × OutstandingTable V :=
  match t.pidToSlot.remove pid with
  | (index, none) => (none, { t with pidToSlot := index })
  | (index, some slotIdx) =>
    match t.slab[slotIdx]?.join with
    -- slab and index out of step: the slot is not given back
    | none => (none, { t with pidToSlot := index })
    | some value => (some value,
      { slab := t.slab.set slotIdx none, freeList := slotIdx :: t.freeList, pidToSlot := index })

def iterPids (t : OutstandingTable V) : List UInt32 := t.pidToSlot.iter.map Prod.fst

def takeProbeExhausted (t : OutstandingTable V) : Nat × OutstandingTable V :=
  let (n, index) := t.pidToSlot.takeProbeExhausted
  (n, { t with pidToSlot := index })

/-! ### What the runner calls -/

/-- The calls of the runner, with the reservation it has in hand: a slot that is reserved is
filled or given back before anything else is done with the table. -/
inductive Issue : OutstandingTable V × Option Reservation → OutstandingTable V × Option Reservation →
    Prop where
  | put {t : OutstandingTable V} {pid : UInt32} {old : V} (found : t.get pid = some old) (value : V) :
      Issue (t, none) (t.put pid value, none)
  | reserved {t t' : OutstandingTable V} {pid : UInt32} {reservation : Reservation}
      (answer : t.tryReserve pid = (.ok reservation, t')) : Issue (t, none) (t', some reservation)
  | refused {t t' : OutstandingTable V} {pid : UInt32} {e : InsertError}
      (answer : t.tryReserve pid = (.error e, t')) : Issue (t, none) (t', none)
  | committed (t : OutstandingTable V) (reservation : Reservation) (value : V) :
      Issue (t, some reservation) (t.commitReserved reservation value, none)
  | released (t : OutstandingTable V) (reservation : Reservation) :
      Issue (t, some reservation) (t.releaseReservation reservation, none)
  | removed {t : OutstandingTable V} {pid : UInt32} {old : V} (found : t.get pid = some old) :
      Issue (t, none) ((t.remove pid).2, none)
  | counted (t : OutstandingTable V) : Issue (t, none) (t.takeProbeExhausted.2, none)

def Issues (t t' : OutstandingTable V) : Prop := Relation.ReflTransGen Issue (t, none) (t', none)

/-! ### The map it implements -/

/-- The slots with the pids they are kept under. -/
def cell (t : OutstandingTable V) (owner : Nat → UInt32) (idx : Nat) : Option (UInt32 × V) :=
  t.slab[idx]?.join.map (owner idx, ·)

/-- Index and slab agree, and the free list has every empty slot once. -/
structure Wf (t : OutstandingTable V) : Prop where
  keyed : ∃ owner, Indexed.Holds Prod.fst t.pidToSlot.get (t.cell owner)
  free : ∀ idx, idx ∈ t.freeList ↔ t.slab[idx]? = some none
  nodup : t.freeList.Nodup

variable {t t' : OutstandingTable V} {pid : UInt32} {value : V} {owner : Nat → UInt32}

theorem get_eq_find (t : OutstandingTable V) (owner : Nat → UInt32) (pid : UInt32) :
    t.get pid = (Indexed.find t.pidToSlot.get (t.cell owner) pid).map Prod.snd := by
  unfold get Indexed.find cell
  cases t.pidToSlot.get pid with
  | none => rfl
  | some idx => simp [Function.comp_def]

theorem wf_withCapacity (capacity : Nat) : (withCapacity capacity : OutstandingTable V).Wf where
  keyed := by
    refine ⟨fun _ => 0, ?_⟩
    intro k i
    simp only [cell, withCapacity, BoundedIndex.get_new, List.getElem?_replicate]
    split
    · simp
    · simp
  free := by
    intro idx
    simp [withCapacity, List.getElem?_replicate]
  nodup := List.nodup_range

theorem Wf.listed (wf : t.Wf) : Indexed.Free t.slab t.freeList := ⟨wf.free, wf.nodup⟩

/-- Another index, with the same answers. -/
structure Same (t t' : OutstandingTable V) : Prop where
  slab : t'.slab = t.slab
  freeList : t'.freeList = t.freeList
  index : ∀ k, t'.pidToSlot.get k = t.pidToSlot.get k

theorem Wf.same (wf : t.Wf) (same : Same t t') : t'.Wf ∧ ∀ k, t'.get k = t.get k := by
  obtain ⟨slab, freeList, index⟩ := same
  obtain ⟨⟨owner, holds⟩, free, nodup⟩ := wf
  unfold Indexed.Holds cell at holds
  simp only [← slab, ← freeList, ← index] at holds free nodup
  exact ⟨⟨⟨owner, holds⟩, free, nodup⟩, fun k => by simp only [get, slab, index k]⟩

theorem Wf.get_eq_none (wf : t.Wf) : t.get pid = none ↔ t.pidToSlot.get pid = none := by
  obtain ⟨owner, holds⟩ := wf.keyed
  rw [get_eq_find t owner, Option.map_eq_none_iff]
  exact holds.find_eq_none_iff

theorem Wf.contains_iff (wf : t.Wf) : t.contains pid = true ↔ ∃ value, t.get pid = some value := by
  rw [contains, Option.isSome_iff_ne_none, Ne, ← wf.get_eq_none]
  exact Option.ne_none_iff_exists'

/-- The slot of a pid that is in the table. -/
theorem Wf.slot (wf : t.Wf) (found : t.get pid = some value) :
    ∃ owner idx, Indexed.Holds Prod.fst t.pidToSlot.get (t.cell owner) ∧
      t.pidToSlot.get pid = some idx ∧ t.slab[idx]? = some (some value) ∧ owner idx = pid := by
  obtain ⟨owner, holds⟩ := wf.keyed
  obtain ⟨idx, at_pid, held⟩ := Option.bind_eq_some_iff.mp found
  obtain ⟨a, in_cell, owned⟩ := (holds pid idx).mp at_pid
  refine ⟨owner, idx, holds, at_pid, Option.join_eq_some_iff.mp held, ?_⟩
  simp only [cell, held, Option.map_some] at in_cell
  cases in_cell
  exact owned

/-- A slot is written for `pid`, its own or an empty one, and the index follows: as a map, only
the entry of `pid` changes. -/
theorem write {idx : Nat} {old new : Option V}
    (holds : Indexed.Holds Prod.fst t.pidToSlot.get (t.cell owner))
    (held : t.slab[idx]? = some old) (slab : t'.slab = t.slab.set idx new)
    (slot : t.pidToSlot.get pid = some idx ∨
      old = none ∧ new.isSome ∧ t.pidToSlot.get pid = none)
    (index : ∀ k, t'.pidToSlot.get k =
      if k = pid then new.map fun _ => idx else t.pidToSlot.get k)
    (free : Indexed.Free t'.slab t'.freeList) :
    t'.Wf ∧ ∀ k, t'.get k = if k = pid then new else t.get k := by
  have bound := (List.getElem?_eq_some_iff.mp held).1
  have here : t'.cell (Function.update owner idx pid) idx = new.map (pid, ·) := by
    rw [cell, slab, List.getElem?_set_self bound, Option.join_some, Function.update_self]
  have elsewhere (j : Nat) (other : j ≠ idx) :
      t'.cell (Function.update owner idx pid) j = t.cell owner j := by
    rw [cell, cell, slab, List.getElem?_set_ne other.symm, Function.update_of_ne other]
  obtain ⟨holds', find⟩ := holds.update here elsewhere
    (fun a filled => by obtain ⟨value, _, rfl⟩ := Option.map_eq_some_iff.mp filled; rfl)
    (slot.imp_right fun ⟨empty, filled, absent⟩ =>
      ⟨by rw [cell, held, empty]; rfl, by rwa [Option.isSome_map], absent⟩)
    (by simpa only [Option.map_map, Function.comp_def] using index)
  refine ⟨⟨⟨_, holds'⟩, free.mem, free.nodup⟩, fun k => ?_⟩
  rw [get_eq_find t' (Function.update owner idx pid), get_eq_find t owner, find k,
    apply_ite (Option.map Prod.snd)]
  cases new <;> rfl

/-! ### The operations as map updates -/

/-- What the caller of `get_mut` writes is the new value. -/
theorem Wf.put {old : V} (wf : t.Wf) (found : t.get pid = some old) (value : V) :
    (t.put pid value).Wf ∧
      ∀ k, (t.put pid value).get k = if k = pid then some value else t.get k := by
  obtain ⟨owner, idx, holds, at_pid, held, _⟩ := wf.slot found
  have put : t.put pid value = { t with slab := t.slab.set idx (some value) } := by
    simp only [OutstandingTable.put, at_pid]
  rw [put]
  refine write holds held rfl (.inl at_pid) (fun k => ?_) (wf.listed.overwrite held value)
  split
  next own => rw [own, at_pid, Option.map_some]
  next => rfl

/-- A child is taken out of the table, and its slot is free again. -/
theorem Wf.remove {old : V} (wf : t.Wf) (found : t.get pid = some old) :
    (t.remove pid).1 = some old ∧ (t.remove pid).2.Wf ∧
      ∀ k, (t.remove pid).2.get k = if k = pid then none else t.get k := by
  obtain ⟨owner, idx, holds, at_pid, held, _⟩ := wf.slot found
  have removed : t.remove pid =
      (some old, ⟨t.slab.set idx none, idx :: t.freeList, (t.pidToSlot.remove pid).1⟩) := by
    have answer := (t.pidToSlot.get_remove pid pid).1
    rw [at_pid] at answer
    cases taken : t.pidToSlot.remove pid with
    | mk index slotIdx =>
      rw [taken] at answer
      obtain rfl : slotIdx = some idx := answer
      simp only [OutstandingTable.remove, taken, held, Option.join_some]
  rw [removed]
  exact ⟨rfl, write holds held rfl (.inl at_pid) (fun k => (t.pidToSlot.get_remove pid k).2)
    (wf.listed.clear held)⟩

theorem Wf.remove_eq {old : V} (wf : t.Wf) (found : t.get pid = some old) :
    t.remove pid = (some old, (t.remove pid).2) :=
  Prod.ext (wf.remove found).1 rfl

section Reserve

variable {reservation : Reservation} (wf : t.Wf)
  (reserved : t.tryReserve pid = (.ok reservation, t'))

include reserved in
/-- A reservation is for a pid that is not in the table, and takes the first free slot. -/
theorem tryReserve_ok : t.pidToSlot.get pid = none ∧ ∃ rest index,
    t.freeList = reservation.slotIdx :: rest ∧ reservation.pid = pid ∧
    t.pidToSlot.insert pid reservation.slotIdx = (index, true) ∧
    t' = { t with freeList := rest, pidToSlot := index } := by
  unfold tryReserve at reserved
  split at reserved
  · simp at reserved
  next absent =>
    split at reserved
    · simp at reserved
    next slotIdx rest shape =>
      split at reserved
      next index inserted =>
        simp only [Prod.mk.injEq, Except.ok.injEq] at reserved
        obtain ⟨rfl, rfl⟩ := reserved
        exact ⟨absent, rest, index, shape, rfl, inserted, rfl⟩
      · simp at reserved

include wf reserved

/-- A spawned child takes the reserved slot. -/
theorem Wf.commitReserved (value : V) : t.get pid = none ∧ (t'.commitReserved reservation value).Wf ∧
    ∀ k, (t'.commitReserved reservation value).get k = if k = pid then some value else t.get k := by
  obtain ⟨absent, rest, index, shape, own, inserted, rfl⟩ := tryReserve_ok reserved
  obtain ⟨owner, holds⟩ := wf.keyed
  have listed := wf.listed
  rw [shape] at listed
  exact ⟨wf.get_eq_none.mpr absent, write holds listed.head rfl (.inr ⟨rfl, rfl, absent⟩)
    (BoundedIndex.get_of_insert inserted) (listed.fill value)⟩

omit wf

/-- A slot that is given back leaves the table as it was. -/
theorem same_releaseReservation : Same t (t'.releaseReservation reservation) := by
  obtain ⟨absent, rest, index, shape, rfl, inserted, rfl⟩ := tryReserve_ok reserved
  have released : OutstandingTable.releaseReservation
      { t with freeList := rest, pidToSlot := index } reservation =
      { t with pidToSlot := (index.remove reservation.pid).1 } := by
    have answer := (index.get_remove reservation.pid reservation.pid).1
    rw [BoundedIndex.get_of_insert inserted, if_pos rfl] at answer
    cases taken : index.remove reservation.pid with
    | mk index' slotIdx =>
      rw [taken] at answer
      obtain rfl : slotIdx = some reservation.slotIdx := answer
      simp only [releaseReservation, taken, shape]
  rw [released]
  refine ⟨rfl, rfl, fun k => ?_⟩
  rw [(index.get_remove reservation.pid k).2]
  split
  next own => rw [own, absent]
  next other => rw [BoundedIndex.get_of_insert inserted, if_neg other]

end Reserve

theorem same_of_refused {e : InsertError} (refused : t.tryReserve pid = (.error e, t')) :
    Same t t' := by
  unfold tryReserve at refused
  split at refused
  · cases refused
    exact ⟨rfl, rfl, fun _ => rfl⟩
  · split at refused
    · cases refused
      exact ⟨rfl, rfl, fun _ => rfl⟩
    · split at refused
      · cases refused
      next index exhausted =>
        cases refused
        exact ⟨rfl, rfl, BoundedIndex.get_of_insert_refused exhausted⟩

/-! ### Its entries -/

/-- The pids in the table with what is stored for them. -/
def entries (t : OutstandingTable V) : List (UInt32 × V) :=
  t.iterPids.filterMap fun pid => (t.get pid).map (pid, ·)

theorem mem_iterPids : pid ∈ t.iterPids ↔ ∃ idx, t.pidToSlot.get pid = some idx := by
  simp only [iterPids, List.mem_map, Prod.exists, exists_and_right, exists_eq_right]
  exact exists_congr fun idx => t.pidToSlot.mem_iter

theorem nodup_iterPids (t : OutstandingTable V) : t.iterPids.Nodup := t.pidToSlot.nodup_iter

theorem iterPids_put (t : OutstandingTable V) (pid : UInt32) (value : V) :
    (t.put pid value).iterPids = t.iterPids := by
  unfold put
  split <;> rfl

theorem iterPids_remove (t : OutstandingTable V) (pid : UInt32) :
    (t.remove pid).2.iterPids = t.iterPids.filter (· ≠ pid) := by
  have keys := t.pidToSlot.keys_remove pid
  unfold remove
  generalize t.pidToSlot.remove pid = removed at keys
  obtain ⟨index, slot⟩ := removed
  cases slot with
  | none => exact keys
  | some slotIdx =>
    dsimp only
    split <;> exact keys

theorem mem_entries : (pid, value) ∈ t.entries ↔ t.get pid = some value := by
  simp only [entries, List.mem_filterMap, Option.map_eq_some_iff, Prod.mk.injEq]
  constructor
  · rintro ⟨k, _, v, found, rfl, rfl⟩
    exact found
  · intro found
    obtain ⟨idx, at_pid, _⟩ := Option.bind_eq_some_iff.mp found
    exact ⟨pid, mem_iterPids.mpr ⟨idx, at_pid⟩, value, found, rfl, rfl⟩

theorem entries_withCapacity (capacity : Nat) :
    (withCapacity capacity : OutstandingTable V).entries = [] := by
  refine List.eq_nil_iff_forall_not_mem.mpr ?_
  rintro ⟨pid, value⟩ mem
  have absent : (withCapacity capacity : OutstandingTable V).get pid = none := by
    rw [(wf_withCapacity capacity).get_eq_none]
    exact BoundedIndex.get_new ..
  rw [mem_entries, absent] at mem
  cases mem

/-- No pid has two entries. -/
theorem nodup_entries (t : OutstandingTable V) : (t.entries.map Prod.fst).Nodup := by
  have sublist : (t.entries.map Prod.fst).Sublist t.iterPids := by
    rw [entries, List.map_filterMap]
    have kept (pids : List UInt32) : (pids.filterMap fun pid =>
        ((t.get pid).map (pid, ·)).map Prod.fst).Sublist pids := by
      induction pids with
      | nil => exact .refl _
      | cons pid pids ih =>
        cases found : t.get pid with
        | none => simpa [List.filterMap_cons, found] using ih.cons pid
        | some value => simpa [List.filterMap_cons, found] using ih
    exact kept t.iterPids
  exact t.pidToSlot.nodup_iter.sublist sublist

theorem entries_nodup (t : OutstandingTable V) : t.entries.Nodup :=
  List.Pairwise.of_map Prod.fst (fun _ _ => mt (congrArg Prod.fst)) t.nodup_entries

/-- The entries of the other pids. -/
def others (t : OutstandingTable V) (pid : UInt32) : List (UInt32 × V) :=
  t.entries.filter fun e => e.1 ≠ pid

theorem entries_perm (t : OutstandingTable V) (pid : UInt32) :
    t.entries.Perm (((t.get pid).map (pid, ·)).toList ++ t.others pid) := by
  refine (List.perm_ext_iff_of_nodup t.entries_nodup ?_).mpr ?_
  · refine List.nodup_append.mpr ⟨?_, t.entries_nodup.filter _, ?_⟩
    · cases t.get pid <;> simp
    · rintro ⟨k, v⟩ own _ other rfl
      simp only [Option.mem_toList, Option.map_eq_some_iff, Prod.mk.injEq] at own
      obtain ⟨_, _, rfl, _⟩ := own
      simp [others] at other
  · rintro ⟨k, v⟩
    simp only [List.mem_append, Option.mem_toList, Option.map_eq_some_iff, Prod.mk.injEq, others,
      List.mem_filter, mem_entries, decide_eq_true_eq]
    by_cases own : k = pid
    · subst own
      simp
    · simp [own, @eq_comm _ pid]

/-- An update of one entry leaves the others. -/
theorem others_perm (same : ∀ k, k ≠ pid → t'.get k = t.get k) :
    (t'.others pid).Perm (t.others pid) := by
  refine (List.perm_ext_iff_of_nodup (t'.entries_nodup.filter _)
    (t.entries_nodup.filter _)).mpr ?_
  rintro ⟨k, v⟩
  simp only [List.mem_filter, mem_entries, decide_eq_true_eq]
  constructor
  · rintro ⟨found, other⟩
    exact ⟨same k other ▸ found, other⟩
  · rintro ⟨found, other⟩
    exact ⟨(same k other).symm ▸ found, other⟩

/-- The entries are a map: two tables with the same lookups have the same ones. -/
theorem entries_congr (same : ∀ k, t'.get k = t.get k) : t'.entries.Perm t.entries := by
  refine (List.perm_ext_iff_of_nodup t'.entries_nodup t.entries_nodup).mpr ?_
  rintro ⟨k, v⟩
  rw [mem_entries, mem_entries, same k]

/-- A pid that was not in the table, and is now. -/
theorem entries_insert (absent : t.get pid = none)
    (get : ∀ k, t'.get k = if k = pid then some value else t.get k) :
    t'.entries.Perm ((pid, value) :: t.entries) := by
  have before := t.entries_perm pid
  have after := t'.entries_perm pid
  rw [absent] at before
  rw [get pid, if_pos rfl] at after
  refine after.trans (List.Perm.cons _ (List.Perm.trans ?_ before.symm))
  exact others_perm fun k other => by rw [get k, if_neg other]

end OutstandingTable

end Varta.Watch
