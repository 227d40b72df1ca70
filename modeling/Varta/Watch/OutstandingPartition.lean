import Varta.Watch.RecoveryRuns

/-!
# No slot is lost

Every slot of the table of outstanding children is on the free list or belongs to one pid, also
while a slot is reserved for a child that is still to be spawned.
-/
namespace Varta.Watch

namespace OutstandingTable

variable {V : Type} {t : OutstandingTable V} {capacity : Nat} {pid : UInt32}

structure Partition (t : OutstandingTable V) (capacity : Nat) : Prop where
  nodup : t.freeList.Nodup
  apart : ∀ idx ∈ t.freeList, ∀ pid, t.pidToSlot.get pid ≠ some idx
  covers : ∀ idx, (idx ∈ t.freeList ∨ ∃ pid, t.pidToSlot.get pid = some idx) ↔ idx < capacity
  distinct : ∀ pid pid' idx, t.pidToSlot.get pid = some idx → t.pidToSlot.get pid' = some idx →
    pid = pid'

theorem Wf.filled (wf : t.Wf) {idx : Nat} (indexed : t.pidToSlot.get pid = some idx) :
    ∃ value, t.slab[idx]? = some (some value) := by
  obtain ⟨owner, holds⟩ := wf.keyed
  obtain ⟨_, held, _⟩ := (holds pid idx).mp indexed
  obtain ⟨value, found, _⟩ := Option.map_eq_some_iff.mp held
  exact ⟨value, Option.join_eq_some_iff.mp found⟩

theorem Wf.partition (wf : t.Wf) : t.Partition t.slab.length where
  nodup := wf.nodup
  apart idx free pid indexed := by
    obtain ⟨value, held⟩ := wf.filled indexed
    rw [(wf.free idx).mp free] at held
    cases held
  covers idx := by
    obtain ⟨owner, holds⟩ := wf.keyed
    rw [← wf.listed.covers idx]
    refine or_congr_right ⟨fun ⟨pid, indexed⟩ => wf.filled indexed, fun ⟨value, held⟩ => ?_⟩
    refine ⟨owner idx, (holds _ idx).mpr ⟨(owner idx, value), ?_, rfl⟩⟩
    rw [cell, held, Option.join_some, Option.map_some]
  distinct pid pid' idx indexed indexed' := by
    obtain ⟨owner, holds⟩ := wf.keyed
    obtain ⟨a, held, own⟩ := (holds pid idx).mp indexed
    obtain ⟨b, held', own'⟩ := (holds pid' idx).mp indexed'
    cases held.symm.trans held'
    exact own.symm.trans own'

/-- Between two calls the table is well formed; a reservation in hand has been taken from such a
table. -/
def Stands (capacity : Nat) : OutstandingTable V × Option Reservation → Prop
  | (t, none) => t.Wf ∧ t.slab.length = capacity
  | (t, some reservation) => ∃ (before : OutstandingTable V) (pid : UInt32), before.Wf ∧
      before.slab.length = capacity ∧ before.tryReserve pid = (.ok reservation, t)

theorem Stands.issue {s s' : OutstandingTable V × Option Reservation} (stands : Stands capacity s)
    (issue : Issue s s') : Stands capacity s' := by
  cases issue with
  | put found value =>
    obtain ⟨wf, length⟩ := stands
    refine ⟨(wf.put found value).1, Eq.trans ?_ length⟩
    unfold OutstandingTable.put
    split
    · rfl
    · exact List.length_set
  | reserved answer => exact ⟨_, _, stands.1, stands.2, answer⟩
  | refused answer =>
    have same := same_of_refused answer
    exact ⟨(stands.1.same same).1, (congrArg List.length same.slab).trans stands.2⟩
  | committed t reservation value =>
    obtain ⟨before, pid, wf, length, reserved⟩ := stands
    obtain ⟨-, rest, index, -, -, -, rfl⟩ := tryReserve_ok reserved
    exact ⟨(wf.commitReserved reserved value).2.1, List.length_set.trans length⟩
  | released t reservation =>
    obtain ⟨before, pid, wf, length, reserved⟩ := stands
    have same := same_releaseReservation reserved
    exact ⟨(wf.same same).1, (congrArg List.length same.slab).trans length⟩
  | removed found =>
    obtain ⟨wf, length⟩ := stands
    refine ⟨(wf.remove found).2.1, Eq.trans ?_ length⟩
    unfold OutstandingTable.remove
    split
    · rfl
    · split
      · rfl
      · exact List.length_set
  | counted t => exact ⟨{ stands.1 with }, stands.2⟩

theorem Stands.issues (stands : Stands capacity (t, none)) {s' : OutstandingTable V × Option Reservation}
    (issues : Relation.ReflTransGen Issue (t, none) s') : Stands capacity s' := by
  induction issues with
  | refl => exact stands
  | tail _ issue ih => exact ih.issue issue

/-- The free slots and the entries add up. -/
theorem Wf.free_length (wf : t.Wf) : t.freeList.length + t.entries.length = t.slab.length := by
  obtain ⟨nodup, apart, covers, distinct⟩ := wf.partition
  have indexed (idx : Nat) : idx ∈ t.pidToSlot.iter.map Prod.snd ↔
      ∃ pid, t.pidToSlot.get pid = some idx := by
    simp only [List.mem_map, Prod.exists, exists_eq_right, BoundedIndex.mem_iter]
  have once : (t.pidToSlot.iter.map Prod.snd).Nodup := by
    refine List.Nodup.map_on ?_ (.of_map Prod.fst t.pidToSlot.nodup_iter)
    rintro ⟨pid, idx⟩ mem ⟨pid', _⟩ mem' rfl
    rw [distinct pid pid' idx (t.pidToSlot.mem_iter.mp mem) (t.pidToSlot.mem_iter.mp mem')]
  have slots : (t.freeList ++ t.pidToSlot.iter.map Prod.snd).Perm (List.range t.slab.length) := by
    refine (List.perm_ext_iff_of_nodup (List.nodup_append.mpr ⟨nodup, once, ?_⟩)
      List.nodup_range).mpr fun idx => ?_
    · rintro idx free _ mem rfl
      obtain ⟨pid, found⟩ := (indexed idx).mp mem
      exact apart idx free pid found
    · rw [List.mem_append, indexed, List.mem_range]
      exact covers idx
  have children : t.entries.length = t.iterPids.length := by
    refine List.filterMap_length_eq_length.mpr fun pid mem => ?_
    obtain ⟨idx, found⟩ := mem_iterPids.mp mem
    rw [Option.isSome_map, Option.isSome_iff_ne_none, Ne, wf.get_eq_none, found]
    exact Option.some_ne_none idx
  have count := slots.length_eq
  simp only [List.length_append, List.length_map, List.length_range, iterPids] at count children
  omega

end OutstandingTable

namespace Recovery

open Machine
open OutstandingTable (Issue tryReserve_ok)
open Vlp (Bytes32)

/-- The table of a runner is made by calls in this order, and at each of them, a slot in reserve
or not, every slot is free or belongs to one pid. Between the calls of the runner the slots of
the pids are filled, and the others are free. -/
theorem outstanding_partitioned (chainHash : Option (Bytes32 → Bytes → Bytes → Bytes32))
    (env : Nat → Answer) (mode : RecoveryMode) (debounce : Duration) (timeout : Option Duration)
    (settings : List Setting) (calls : List Call) :
    let capacity := (setUp mode debounce timeout settings).outstanding.slab.length
    let Reached := Relation.ReflTransGen Issue (.withCapacity capacity, none)
    Reached ((after chainHash env mode debounce timeout settings calls).recovery.outstanding, none) ∧
      ∀ t pending, Reached (t, pending) → t.freeList.Nodup ∧
        (∀ idx ∈ t.freeList, ∀ pid, t.pidToSlot.get pid ≠ some idx) ∧
        (∀ idx, (idx ∈ t.freeList ∨ ∃ pid, t.pidToSlot.get pid = some idx) ↔ idx < capacity) ∧
        (∀ pid pid' idx, t.pidToSlot.get pid = some idx → t.pidToSlot.get pid' = some idx →
          pid = pid') ∧
        (pending = none →
          (∀ pid idx, t.pidToSlot.get pid = some idx → ∃ entry, t.slab[idx]? = some (some entry)) ∧
          t.freeList.length = capacity - t.entries.length ∧ t.entries.length ≤ capacity) := by
  intro capacity Reached
  have first : (setUp mode debounce timeout settings).outstanding = .withCapacity capacity := by
    obtain ⟨n, table⟩ := (fresh_setUp mode debounce timeout settings).outstanding
    have size : capacity = n := by simp [capacity, table, OutstandingTable.withCapacity]
    rw [size, table]
  constructor
  · have issues := @issues_run chainHash env _ (kept_setUp mode debounce timeout settings) calls
    rw [first] at issues
    exact issues
  · intro t pending reached
    have stands := OutstandingTable.Stands.issues
      ⟨OutstandingTable.wf_withCapacity capacity, List.length_replicate⟩ reached
    cases pending with
    | none =>
      obtain ⟨wf, length⟩ := stands
      obtain ⟨nodup, apart, covers, distinct⟩ := length ▸ wf.partition
      have count := wf.free_length
      refine ⟨nodup, apart, covers, distinct, fun _ => ⟨fun _ _ => wf.filled, ?_, ?_⟩⟩
      · omega
      · omega
    | some reservation =>
      -- with any child in the slot the table is well formed, and only the slab is another
      obtain ⟨before, pid, wf, length, reserved⟩ := stands
      obtain ⟨-, rest, index, -, -, -, rfl⟩ := tryReserve_ok reserved
      have partition := (wf.commitReserved reserved
        ⟨⟨0, 0⟩, 0, false, none, 0, false, false, 0, 0, false, none, none⟩).2.1.partition
      rw [OutstandingTable.commitReserved, List.length_set, length] at partition
      obtain ⟨nodup, apart, covers, distinct⟩ := partition
      exact ⟨nodup, apart, covers, distinct, fun absurd => by cases absurd⟩

/-- No slot is lost, and no more children run than there is room for. -/
theorem children_fill_slots (chainHash : Option (Bytes32 → Bytes → Bytes → Bytes32))
    (env : Nat → Answer) (mode : RecoveryMode) (debounce : Duration) (timeout : Option Duration)
    (settings : List Setting) (calls : List Call) :
    let capacity := (setUp mode debounce timeout settings).outstanding.slab.length
    let s := after chainHash env mode debounce timeout settings calls
    s.recovery.world.fires.length + s.recovery.outstanding.freeList.length =
        capacity + s.finished.length + s.recovery.reapingOrphans.length ∧
      s.recovery.world.fires.length ≤ s.finished.length + capacity + s.recovery.orphanCapacity := by
  intro capacity s
  have start := kept_setUp mode debounce timeout settings
  have kept : Kept s := kept_after mode debounce timeout settings calls
  have slots : s.recovery.outstanding.slab.length = capacity :=
    (OutstandingTable.Stands.issues ⟨start.wf, rfl⟩ (issues_run start calls)).2
  have fired : (fires s.recovery.world.trace).length = s.recovery.world.fires.length := rfl
  have conserved := kept.sound.accounted.conserved.length_eq
  have count := kept.wf.free_length
  have room := kept.room
  simp only [custody, List.length_map, List.length_append] at conserved
  rw [Session.finished, List.length_map, Session.trace]
  omega

end Recovery

end Varta.Watch
