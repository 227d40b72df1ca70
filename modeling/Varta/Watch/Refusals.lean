import Varta.Watch.Eviction

/-!
# Refused beats

A beat that is not accepted leaves the table and the map as they were, also when an eviction
was begun for it and taken back. It may leave traces in the counters, in the scan cursor and in
the layout of the index.
-/
namespace Varta.Watch

open Machine

namespace Tracker

/-! ### The eviction path in place -/

/-- The eviction path with the writes in the source's order: the slot is overwritten before the
index is asked for the new pid, and written back if it refuses. -/
def evictInPlace (t : Tracker) (idx : Nat) (b : Arrival) : Update × Tracker :=
  match t.entries[idx]? with
  | none => t.violated.exceeded
  | some evicted =>
    let t := { t with pidToIndex := (t.pidToIndex.remove evicted.pid).1 }
    let t := { t with entries := t.entries.set idx (Slot.fromFrame b) }
    match t.pidToIndex.insert b.frame.pid idx with
    | (index, false) =>
      let t := { t with pidToIndex := index, entries := t.entries.set idx evicted }
      match t.pidToIndex.insert evicted.pid idx with
      | (index, true) => { t with pidToIndex := index }.exceeded
      | (index, false) => { t with pidToIndex := index }.violated.exceeded
    | (index, true) =>
      let t := { t with pidToIndex := index }
      -- the latch leaves the count only once the new pid is in the index
      let t :=
        if evicted.stallEmitted then { t with stallEmittedCount := t.stallEmittedCount - 1 } else t
      let t := { t with evictions := u64SaturatingAdd t.evictions 1 }
      (.inserted, t.rememberRemovedPid evicted.pid)

/-- What is written and written back cannot be told from what was never written. -/
theorem evictFor_eq_evictInPlace (t : Tracker) (idx : Nat) (b : Arrival) :
    t.evictFor idx b = t.evictInPlace idx b := by
  unfold evictFor evictInPlace
  cases held : t.entries[idx]? with
  | none => rfl
  | some evicted =>
    dsimp only
    cases (t.pidToIndex.remove evicted.pid).1.insert b.frame.pid idx with
    | mk index inserted =>
      cases inserted with
      | true => cases latched : evicted.stallEmitted <;> simp [putSlot, latched]
      | false =>
        have restored : (t.entries.set idx (Slot.fromFrame b)).set idx evicted = t.entries := by
          rw [List.set_set, Lists.set_of_held held]
        dsimp only
        cases index.insert evicted.pid idx with
        | mk index repinned => cases repinned <;> dsimp only <;> rw [restored]

/-! ### What a refusal leaves behind -/

/-- The tracker with other counters of refusals, another cursor and another index. -/
def Traced (t t' : Tracker) : Prop :=
  ∃ index cursor truncated violations exceeded origins namespaces, t' =
    { t with
      pidToIndex := index
      evictionScanCursor := cursor
      evictionScanTruncated := truncated
      invariantViolations := violations
      capacityExceeded := exceeded
      originConflicts := origins
      namespaceConflicts := namespaces }

variable {t : Tracker} {b : Arrival}

theorem Rescanned.traced {t' t'' : Tracker} (scan : Rescanned t t') (traced : Traced t' t'') :
    Traced t t'' := by
  obtain ⟨_, _, rfl⟩ := scan
  obtain ⟨_, _, _, _, _, _, _, rfl⟩ := traced
  exact ⟨_, _, _, _, _, _, _, rfl⟩

theorem traced_evictFor {idx : Nat} (refused : (t.evictFor idx b).1.accepted = false) :
    Traced t (t.evictFor idx b).2 := by
  unfold evictFor at refused ⊢
  generalize t.entries[idx]? = held at refused ⊢
  cases held with
  | none => exact ⟨_, _, _, _, _, _, _, rfl⟩
  | some evicted =>
    dsimp only at refused ⊢
    generalize (t.pidToIndex.remove evicted.pid).1.insert b.frame.pid idx = placed at refused ⊢
    obtain ⟨index, success⟩ := placed
    cases success with
    | true => cases refused
    | false =>
      dsimp only
      split <;> exact ⟨_, _, _, _, _, _, _, rfl⟩

theorem traced_recordNew (refused : (t.recordNew b).1.accepted = false) :
    Traced t (t.recordNew b).2 := by
  have scan := (findEvictableSlot_sought t b.nowNs b.thresholdNs).kept
  unfold recordNew at refused ⊢
  split at refused
  next full =>
    rw [if_pos full]
    generalize t.findEvictableSlot b.nowNs b.thresholdNs = sought at scan refused ⊢
    obtain ⟨victim, t'⟩ := sought
    cases victim with
    | some idx => exact scan.traced (traced_evictFor refused)
    | none => exact scan.traced ⟨_, _, _, _, _, _, _, rfl⟩
  next room =>
    rw [if_neg room]
    generalize t.pidToIndex.insert b.frame.pid t.len = placed at refused ⊢
    obtain ⟨index, success⟩ := placed
    cases success with
    | true => cases refused
    | false => exact ⟨_, _, _, _, _, _, _, rfl⟩

theorem traced_recordKnown {idx : Nat} {slot : Slot}
    (refused : (t.recordKnown idx slot b).1.accepted = false) :
    Traced t (t.recordKnown idx slot b).2 := by
  unfold recordKnown at refused ⊢
  cases recorded : slot.record b with
  | originConflict | namespaceConflict | outOfOrder => exact ⟨_, _, _, _, _, _, _, rfl⟩
  | _ =>
    rw [recorded] at refused
    cases refused

theorem traced_recordWithGeneration (refused : (t.recordWithGeneration b).1.accepted = false) :
    Traced t (t.recordWithGeneration b).2 := by
  unfold recordWithGeneration at refused ⊢
  cases found : t.pidToIndex.get b.frame.pid with
  | none =>
    rw [found] at refused
    exact traced_recordNew refused
  | some idx =>
    rw [found] at refused
    dsimp only at refused ⊢
    cases held : t.entries[idx]? with
    | none => exact ⟨_, _, _, _, _, _, _, rfl⟩
    | some slot =>
      rw [held] at refused
      dsimp only at refused ⊢
      split at refused
      next used =>
        rw [if_pos used]
        exact traced_recordKnown refused
      next unused =>
        rw [if_neg unused]
        exact traced_recordNew refused

/-- A refused beat changes no slot, and no pid is found elsewhere or not at all. -/
theorem refused_beat_neutral {t : Tracker} (wf : t.Wf) (b : Arrival)
    (refused : (t.recordWithGeneration b).1 = .outOfOrder ∨
      (t.recordWithGeneration b).1 = .originConflict ∨
      (t.recordWithGeneration b).1 = .namespaceConflict ∨
      (t.recordWithGeneration b).1 = .capacityExceeded) :
    (t.recordWithGeneration b).2.entries = t.entries ∧
      (∀ pid, (t.recordWithGeneration b).2.slotOf pid = t.slotOf pid) ∧
      Traced t (t.recordWithGeneration b).2 := by
  have rejected : (t.recordWithGeneration b).1.accepted = false := by
    rcases refused with answer | answer | answer | answer <;> rw [answer] <;> rfl
  have same : SameMap t (t.recordWithGeneration b).2 := by
    cases (recordWithGeneration_spec wf b).2 with
    | refused _ same => exact same
    | updated known recorded answer after =>
      rw [answer, SlotUpdate.answer_accepted, recorded] at rejected
      cases rejected
    | inserted unknown answer victim full after =>
      rw [answer] at rejected
      cases rejected
  exact ⟨same.entries, same.slotOf, traced_recordWithGeneration rejected⟩

/-- Sixty-four pids that share a probe window, and one that is far from it and long silent. -/
def crowd : List Action :=
  (List.range 65).map fun i => .record ⟨⟨.ok, UInt32.ofNat (i + 1), 1, 1, 0⟩,
    if i = 64 then 0 else 1000, 10, .kernelAttested, none, none⟩

def crowded : Tracker :=
  Steps.run step (new (fun pid => if pid = 65 then 128 else 0) 65 .balanced 65) crowd

/-- It finds the silent pid to evict, and its own probe window full. -/
def crowdedOut : Arrival := ⟨⟨.ok, 66, 1, 1, 0⟩, 1000, 10, .kernelAttested, none, none⟩

theorem refused_beat_neutral_crowdedOut :
    (crowded.findEvictableSlot 1000 10).1 = some 64 ∧
      (crowded.recordWithGeneration crowdedOut).1 = .capacityExceeded ∧
      (crowded.recordWithGeneration crowdedOut).2.entries = crowded.entries ∧
      (∀ pid, (crowded.recordWithGeneration crowdedOut).2.slotOf pid = crowded.slotOf pid) ∧
      Traced crowded (crowded.recordWithGeneration crowdedOut).2 := by
  have evaluated : (crowded.findEvictableSlot 1000 10).1 = some 64 ∧
      (crowded.recordWithGeneration crowdedOut).1 = .capacityExceeded := by decide +kernel
  have wf : crowded.Wf := by
    unfold crowded
    exact (run_keeps _ 65 .balanced 65 crowd).1
  exact ⟨evaluated.1, evaluated.2,
    refused_beat_neutral wf crowdedOut (.inr (.inr (.inr evaluated.2)))⟩

end Tracker

end Varta.Watch
