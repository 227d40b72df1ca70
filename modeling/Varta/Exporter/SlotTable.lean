import Varta.Lib.Indexed
import Varta.Watch.ProbeTable

/-!
# Slabs with an index

The tables of the Prometheus exporter: a slab whose slots carry their key, a free list and a
`BoundedIndex` from keys to slots. `ip_state_table.rs` and `PidRowTable` of `exporter/mod.rs`
repeat these operations for their own keys and values.
-/
namespace Varta.Exporter

open Watch (BoundedIndex)

/-- The free list is a stack with its top in front. -/
structure SlotTable (κ V : Type) where
  slab : List (Option (κ × V))
  freeList : List Nat
  index : BoundedIndex κ

namespace SlotTable

variable {κ V : Type} [DecidableEq κ]

/-- The source pushes the slots in descending order, so that slot 0 is popped first. -/
def withCapacity (hash32 : κ → UInt32) (capacity : Nat) : SlotTable κ V where
  slab := List.replicate capacity none
  freeList := List.range capacity
  index := .new hash32 capacity

def len (t : SlotTable κ V) : Nat := t.index.len

/-- The slot of a key, with what it holds. -/
def slot (t : SlotTable κ V) (key : κ) : Option (κ × V) :=
  (t.index.get key).bind fun idx => t.slab[idx]?.join

def get (t : SlotTable κ V) (key : κ) : Option V := (t.slot key).map Prod.snd

/-- What the caller of `get_mut` writes through the reference. -/
def put (t : SlotTable κ V) (key : κ) (value : V) : SlotTable κ V :=
  match t.index.get key with
  | none => t
  | some idx =>
    match t.slab[idx]?.join with
    | none => t
    | some (owner, _) => { t with slab := t.slab.set idx (some (owner, value)) }

/-- A slot of the free list is taken for a key; the first component is `false` if there is none
or if the index has no room. -/
def claim (t : SlotTable κ V) (key : κ) (value : V) : Bool × SlotTable κ V :=
  match t.freeList with
  | [] => (false, t)
  | slotIdx :: rest =>
    match t.index.insert key slotIdx with
    -- the slot goes back on the stack it was popped from
    | (index, false) => (false, { t with index := index })
    | (index, true) =>
      match t.slab[slotIdx]? with
      | some _ => (true, ⟨t.slab.set slotIdx (some (key, value)), rest, index⟩)
      | none => (false, { t with index := (index.remove key).1 })

def remove (t : SlotTable κ V) (key : κ) : Option V × SlotTable κ V :=
  match t.index.remove key with
  | (index, none) => (none, { t with index := index })
  | (index, some slotIdx) =>
    match t.slab[slotIdx]?.join with
    -- slab and index out of step: the slot is not given back
    | none => (none, { t with index := index })
    | some (_, value) => (some value, ⟨t.slab.set slotIdx none, slotIdx :: t.freeList, index⟩)

/-! ### The map it implements -/

/-- Index and slab agree, and the free list has every empty slot once. -/
structure Wf (t : SlotTable κ V) : Prop where
  keyed : Indexed.Holds Prod.fst t.index.get (t.slab[·]?.join)
  free : ∀ idx, idx ∈ t.freeList ↔ t.slab[idx]? = some none
  nodup : t.freeList.Nodup

variable {t t' : SlotTable κ V} {key : κ} {value : V}

theorem wf_withCapacity (hash32 : κ → UInt32) (capacity : Nat) :
    (withCapacity hash32 capacity : SlotTable κ V).Wf where
  keyed := by
    intro k i
    simp only [withCapacity, BoundedIndex.get_new, List.getElem?_replicate]
    split <;> simp
  free := by
    intro idx
    simp [withCapacity, List.getElem?_replicate]
  nodup := List.nodup_range

theorem get_withCapacity (hash32 : κ → UInt32) (capacity : Nat) (key : κ) :
    (withCapacity hash32 capacity : SlotTable κ V).get key = none := by
  simp [get, slot, withCapacity]

theorem slot_eq_find (t : SlotTable κ V) (key : κ) :
    t.slot key = Indexed.find t.index.get (t.slab[·]?.join) key := rfl

theorem Wf.get_eq_none (wf : t.Wf) : t.get key = none ↔ t.index.get key = none := by
  rw [get, Option.map_eq_none_iff, slot_eq_find]
  exact wf.keyed.find_eq_none_iff

/-- The slot of a key that is in the table carries that key. -/
theorem Wf.held (wf : t.Wf) (found : t.get key = some value) :
    ∃ idx, t.index.get key = some idx ∧ t.slab[idx]? = some (some (key, value)) := by
  obtain ⟨⟨owner, stored⟩, at_key, rfl⟩ := Option.map_eq_some_iff.mp found
  obtain ⟨idx, indexed, held⟩ := Option.bind_eq_some_iff.mp at_key
  obtain ⟨content, in_slab, owned⟩ := (wf.keyed key idx).mp indexed
  cases held.symm.trans in_slab
  exact ⟨idx, indexed, owned ▸ Option.join_eq_some_iff.mp held⟩

/-- What a slab slot holds is what the table has for its key. -/
theorem Wf.get_of_mem (wf : t.Wf) (held : some (key, value) ∈ t.slab) :
    t.get key = some value := by
  obtain ⟨idx, at_idx⟩ := List.mem_iff_getElem?.mp held
  have found := wf.keyed.find_key (Option.join_eq_some_iff.mpr at_idx)
  rw [get, slot_eq_find, found, Option.map_some]

/-- A slot is written, and the index follows: as a map, only the entry of `key` changes. -/
theorem Wf.write {idx : Nat} {old : Option (κ × V)} {new : Option V} (wf : t.Wf)
    (held : t.slab[idx]? = some old) (slab : t'.slab = t.slab.set idx (new.map (key, ·)))
    (own : t.index.get key = some idx ∨ old = none ∧ new.isSome ∧ t.index.get key = none)
    (index : ∀ k, t'.index.get k = if k = key then new.map fun _ => idx else t.index.get k)
    (free : Indexed.Free t'.slab t'.freeList) :
    t'.Wf ∧ ∀ k, t'.get k = if k = key then new else t.get k := by
  have update : Indexed.Holds Prod.fst t'.index.get (t'.slab[·]?.join) ∧
      ∀ k, t'.slot k = if k = key then new.map (key, ·) else t.slot k := by
    unfold slot
    rw [slab]
    refine wf.keyed.update_slab held ?_ (own.imp_right ?_) ?_
    · intro a filled
      obtain ⟨value, _, rfl⟩ := Option.map_eq_some_iff.mp filled
      rfl
    · rw [Option.isSome_map]
      exact id
    · simpa only [Option.map_map, Function.comp_def] using index
  refine ⟨⟨update.1, free.mem, free.nodup⟩, fun k => ?_⟩
  rw [get, update.2 k, get, apply_ite (Option.map Prod.snd)]
  cases new <;> rfl

theorem Wf.listed (wf : t.Wf) : Indexed.Free t.slab t.freeList := ⟨wf.free, wf.nodup⟩

/-! ### The operations as map updates -/

/-- What the caller of `get_mut` writes is the new value. -/
theorem Wf.put {old : V} (wf : t.Wf) (found : t.get key = some old) (value : V) :
    (t.put key value).Wf ∧
      ∀ k, (t.put key value).get k = if k = key then some value else t.get k := by
  obtain ⟨idx, at_key, held⟩ := wf.held found
  have put : t.put key value = { t with slab := t.slab.set idx (some (key, value)) } := by
    simp only [SlotTable.put, at_key, held, Option.join_some]
  rw [put]
  refine wf.write held rfl (.inl at_key) (fun k => ?_) (wf.listed.overwrite held _)
  split
  next own => rw [own, at_key, Option.map_some]
  next => rfl

/-- A slot is claimed for a key that has none. -/
theorem Wf.claim (wf : t.Wf) (absent : t.get key = none) (claimed : t.claim key value = (true, t')) :
    t'.Wf ∧ ∀ k, t'.get k = if k = key then some value else t.get k := by
  have missing := wf.get_eq_none.mp absent
  unfold SlotTable.claim at claimed
  split at claimed
  · simp at claimed
  next slotIdx rest shape =>
    have listed := wf.listed
    rw [shape] at listed
    split at claimed
    · simp at claimed
    next index inserted =>
      rw [listed.head] at claimed
      simp only [Prod.mk.injEq, true_and] at claimed
      subst claimed
      exact wf.write listed.head rfl (.inr ⟨rfl, rfl, missing⟩) (BoundedIndex.get_of_insert inserted)
        (listed.fill _)

/-- The map of a table whose index finds the same. -/
theorem Wf.reindex (wf : t.Wf) {index : BoundedIndex κ} (same : ∀ k, index.get k = t.index.get k) :
    ({ t with index := index } : SlotTable κ V).Wf ∧
      ∀ k, ({ t with index := index } : SlotTable κ V).get k = t.get k := by
  refine ⟨⟨?_, wf.free, wf.nodup⟩, ?_⟩
  · intro k i
    rw [same k]
    exact wf.keyed k i
  · intro k
    simp only [get, slot, same k]

/-- A refused claim changes no entry. -/
theorem Wf.claim_refused (wf : t.Wf) (refused : t.claim key value = (false, t')) :
    t'.Wf ∧ ∀ k, t'.get k = t.get k := by
  unfold SlotTable.claim at refused
  split at refused
  · simp only [Prod.mk.injEq, true_and] at refused
    subst refused
    exact ⟨wf, fun _ => rfl⟩
  next slotIdx rest shape =>
    split at refused
    next index exhausted =>
      simp only [Prod.mk.injEq, true_and] at refused
      subst refused
      exact wf.reindex (BoundedIndex.get_of_insert_refused exhausted)
    next index inserted =>
      -- a slot of the free list is a slot of the slab
      have listed := wf.listed
      rw [shape] at listed
      simp [listed.head] at refused

/-- An entry is taken out of the table, and its slot is free again. -/
theorem Wf.remove (wf : t.Wf) (key : κ) : (t.remove key).1 = t.get key ∧ (t.remove key).2.Wf ∧
    ∀ k, (t.remove key).2.get k = if k = key then none else t.get k := by
  cases found : t.get key with
  | none =>
    have missing := wf.get_eq_none.mp found
    have answer := (t.index.get_remove key key).1
    have others (k : κ) : (t.index.remove key).1.get k = t.index.get k := by
      rw [(t.index.get_remove key k).2]
      split
      next own => rw [own, missing]
      next => rfl
    rw [missing] at answer
    have removed : t.remove key = (none, { t with index := (t.index.remove key).1 }) := by
      unfold SlotTable.remove
      generalize t.index.remove key = taken at answer
      obtain ⟨index, slotIdx⟩ := taken
      cases answer
      rfl
    obtain ⟨kept, same⟩ := wf.reindex others
    rw [removed]
    refine ⟨rfl, kept, fun k => (same k).trans ?_⟩
    split
    next own => rw [own, found]
    next => rfl
  | some old =>
    obtain ⟨idx, at_key, held⟩ := wf.held found
    have removed : t.remove key =
        (some old, ⟨t.slab.set idx none, idx :: t.freeList, (t.index.remove key).1⟩) := by
      have answer := (t.index.get_remove key key).1
      rw [at_key] at answer
      unfold SlotTable.remove
      generalize t.index.remove key = taken at answer
      obtain ⟨index, slotIdx⟩ := taken
      cases answer
      simp only [held, Option.join_some]
    rw [removed]
    exact ⟨rfl, wf.write held rfl (.inl at_key) (fun k => (t.index.get_remove key k).2)
      (wf.listed.clear held)⟩

end SlotTable

end Varta.Exporter
