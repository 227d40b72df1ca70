import Varta.Lib.Steps
import Varta.Watch.TrackerInvariant

/-!
# The tracker keeps its books

Next to the map the tracker keeps a count of latched slots, a scan cursor, a bounded list of
removed pids and a counter for the states its authors hold to be impossible. In every
reachable state the first three are right and the last one is zero.
-/
namespace Varta.Watch

open Lists

namespace Tracker

theorem Wf.nodup_pids {t : Tracker} (wf : t.Wf) : (t.entries.map (·.pid)).Nodup := by
  rw [List.Nodup, List.pairwise_map, List.pairwise_iff_getElem]
  intro i j inside inside' before same
  have here := wf.indexed.index_unique (List.getElem?_eq_getElem inside)
    (List.getElem?_eq_getElem inside') same
  omega

/-! ### The books -/

structure Books (t : Tracker) : Prop where
  latched : t.stallEmittedCount = t.entries.countP (·.stallEmitted)
  cursor : t.evictionScanCursor < max t.len 1
  removed : t.removedPids.length ≤ t.capacity
  unviolated : t.invariantViolations = 0

theorem books_new (hash32 : UInt32 → UInt32) (capacity : Nat) (policy : EvictionPolicy)
    (window : Nat) : (new hash32 capacity policy window).Books :=
  ⟨by simp [new], by simp [new], by simp [new], by simp [new]⟩

section

variable {t : Tracker} {idx : Nat} {slot : Slot}

theorem Books.exceeded (books : t.Books) : t.exceeded.2.Books :=
  { books with }

theorem Books.rememberRemovedPid (books : t.Books) (pid : UInt32) :
    (t.rememberRemovedPid pid).Books := by
  unfold Tracker.rememberRemovedPid
  split
  next room =>
    refine ⟨books.latched, books.cursor, ?_, books.unviolated⟩
    simp only [List.length_append, List.length_singleton]
    omega
  next => exact { books with }

theorem Books.putSlot (books : t.Books) {new : Slot} (held : t.entries[idx]? = some slot)
    (unlatched : new.stallEmitted = false) : (t.putSlot idx slot new).Books := by
  refine ⟨?_, books.cursor, books.removed, books.unviolated⟩
  have counted := @countP_set_add Slot t.entries idx (·.stallEmitted) slot new held
  have latched := books.latched
  simp only [unlatched, Bool.toNat_false] at counted
  cases emitted : slot.stallEmitted with
  | false =>
    simp only [emitted, Bool.toNat_false] at counted
    simp only [Tracker.putSlot, emitted, Bool.false_eq_true, if_false]
    omega
  | true =>
    simp only [emitted, Bool.toNat_true] at counted
    simp only [Tracker.putSlot, emitted, if_true]
    omega

theorem Books.recordKnown (books : t.Books) (b : Arrival) (held : t.entries[idx]? = some slot)
    (own : slot.pid = b.frame.pid) (used : slot.used = true) :
    (t.recordKnown idx slot b).2.Books := by
  have fresh (new : Slot) (recorded : (slot.record b).slot? = some new) :
      (t.putSlot idx slot new).Books :=
    books.putSlot held (Slot.record_kept own used recorded).2.2.1
  unfold Tracker.recordKnown
  cases recorded : slot.record b with
  | recycle new =>
    have books := fresh new (by rw [recorded, SlotUpdate.slot?])
    exact { books with }
  | replace new => exact fresh new (by rw [recorded, SlotUpdate.slot?])
  | refresh new wrapped =>
    have books := fresh new (by rw [recorded, SlotUpdate.slot?])
    cases wrapped with
    | false => exact books
    | true => exact { books with }
  | originConflict | namespaceConflict => exact { books with }
  | outOfOrder => exact books

/-! ### Eviction -/

theorem findEvictableSlot_books (wf : t.Wf) (books : t.Books) (nowNs thresholdNs : Nat) :
    (t.findEvictableSlot nowNs thresholdNs).2.Books ∧
      ∀ idx, (t.findEvictableSlot nowNs thresholdNs).1 = some idx → idx < t.entries.length := by
  have sought := findEvictableSlot_sought t nowNs thresholdNs
  have inside := books.cursor
  have moved := sought.cursor
  constructor
  · obtain ⟨cursor, truncated, after⟩ := sought.kept
    rw [after] at moved ⊢
    refine ⟨books.latched, ?_, books.removed, books.unviolated⟩
    rw [scanSize, wf.len_eq] at moved
    rw [wf.len_eq] at inside ⊢
    dsimp only at moved ⊢
    omega
  · intro idx chosen
    obtain ⟨slot, held, _⟩ := sought.found idx chosen
    exact (List.getElem?_eq_some_iff.mp held).1

theorem Books.evictFor (books : t.Books) (wf : t.Wf) (inside : idx < t.entries.length)
    (b : Arrival) : (t.evictFor idx b).2.Books := by
  unfold Tracker.evictFor
  rw [List.getElem?_eq_getElem inside]
  have held := List.getElem?_eq_getElem inside
  generalize t.entries[idx] = evicted at held ⊢
  have present := wf.indexed.get_key held
  dsimp only
  split
  next index inserted =>
    apply Books.rememberRemovedPid
    have put := books.putSlot held (rfl : (Slot.fromFrame b).stallEmitted = false)
    exact { put with }
  next index exhausted =>
    split
    next => exact { books with }
    -- the tombstone that the removal left takes the old pid back
    next index' again => cases (get_rolledBack present exhausted again).1

theorem Books.recordNew (books : t.Books) (wf : t.Wf) (b : Arrival) :
    (t.recordNew b).2.Books := by
  unfold Tracker.recordNew
  split
  next full =>
    have same := sameMap_findEvictableSlot t b.nowNs b.thresholdNs
    obtain ⟨kept, inside⟩ := findEvictableSlot_books wf books b.nowNs b.thresholdNs
    split
    next idx t' found =>
      rw [found] at same kept inside
      apply kept.evictFor (same.wf wf)
      rw [same.entries]
      exact inside idx rfl
    next t' missed =>
      rw [missed] at kept
      exact kept.exceeded
  next room =>
    split
    next => exact { books with }
    next index inserted =>
      refine ⟨?_, ?_, books.removed, books.unviolated⟩
      · simp [books.latched, Slot.fromFrame]
      -- the table grows, so the cursor stays inside
      · have cursor := books.cursor
        dsimp only
        omega

theorem Books.recordWithGeneration (books : t.Books) (wf : t.Wf) (b : Arrival) :
    (t.recordWithGeneration b).2.Books := by
  unfold Tracker.recordWithGeneration
  split
  next => exact books.recordNew wf b
  next idx found =>
    obtain ⟨slot, held, own⟩ := wf.indexed.exists_of_get found
    have used := wf.used slot (List.mem_of_getElem? held)
    simp only [held, used, if_true]
    exact books.recordKnown b held own used

/-! ### Draining -/

/-- A retired slot leaves the table and the count; the slots behind it are all still there. -/
theorem retireSlotAt_eq (wf : t.Wf) (held : t.entries[idx]? = some slot) :
    ∃ index rest, rest.Perm (t.entries.drop (idx + 1)) ∧
      t.retireSlotAt idx = t.withoutSlot slot index (t.entries.take idx ++ rest) := by
  obtain ⟨bound, _⟩ := List.getElem?_eq_some_iff.mp held
  rcases retireSlotAt_cases wf held with ⟨is_last, retired⟩ | ⟨moved, index, at_last, inner, _, retired⟩
  · refine ⟨(t.pidToIndex.remove slot.pid).1, [], ?_, ?_⟩
    · rw [List.drop_eq_nil_of_le (by omega)]
    · rw [retired, List.append_nil, List.dropLast_eq_take, is_last]
  · have inside : idx < t.entries.length - 1 := by omega
    obtain ⟨rest, shape, perm⟩ := swapRemove_shape inside at_last
    exact ⟨index, rest, perm, by rw [retired, shape]⟩

theorem retireSlotAt_entries (wf : t.Wf) (held : t.entries[idx]? = some slot) :
    (t.retireSlotAt idx).len = t.len - 1 ∧
      ((t.retireSlotAt idx).entries.drop idx).Perm (t.entries.drop (idx + 1)) := by
  obtain ⟨bound, _⟩ := List.getElem?_eq_some_iff.mp held
  obtain ⟨index, rest, perm, retired⟩ := retireSlotAt_eq wf held
  rw [retired, withoutSlot]
  refine ⟨(sameMap_rememberRemovedPid _ _).len, ?_⟩
  rw [(sameMap_rememberRemovedPid _ _).entries, List.drop_left' (by rw [List.length_take]; omega)]
  exact perm

theorem Books.retireSlotAt (books : t.Books) (wf : t.Wf) (held : t.entries[idx]? = some slot) :
    (t.retireSlotAt idx).Books := by
  obtain ⟨index, rest, perm, retired⟩ := retireSlotAt_eq wf held
  rw [retired]
  apply Books.rememberRemovedPid
  refine ⟨?_, ?_, books.removed, books.unviolated⟩
  · have latched := books.latched
    rw [eq_take_cons_drop held, List.countP_append, List.countP_cons] at latched
    dsimp only
    rw [List.countP_append, perm.countP_eq, latched]
    cases slot.stallEmitted with
    | true =>
      simp only [if_true]
      omega
    | false => simp
  -- the cursor is cut to the shorter table
  · dsimp only
    split
    · omega
    next nonempty =>
      have below := Nat.mod_lt t.evictionScanCursor (Nat.pos_of_ne_zero nonempty)
      omega

theorem Books.latchSlot (books : t.Books) (held : t.entries[idx]? = some slot)
    (silent : slot.stallEmitted = false) : (t.latchSlot idx slot).Books := by
  refine ⟨?_, books.cursor, books.removed, books.unviolated⟩
  have counted := @countP_set_add Slot t.entries idx (·.stallEmitted) slot
    { slot with stallEmitted := true } held
  have latched := books.latched
  simp only [silent, Bool.toNat_false, Bool.toNat_true] at counted
  dsimp only [Tracker.latchSlot]
  omega

theorem silent_of_newlyStalled {nowNs thresholdNs : Nat}
    (stalled : newlyStalled nowNs thresholdNs slot = true) : slot.stallEmitted = false := by
  simp only [newlyStalled, Bool.and_eq_true, Bool.not_eq_true'] at stalled
  exact stalled.1.2

theorem Books.drainFrom (nowNs thresholdNs : Nat) (generationRecycled : UInt32 → Nat → Bool)
    (rounds idx : Nat) (wf : t.Wf) (books : t.Books) :
    (drainFrom nowNs thresholdNs generationRecycled rounds idx t).2.Books := by
  induction rounds generalizing idx t with
  | zero => exact books
  | succ rounds ih =>
    unfold Tracker.drainFrom
    split
    next inside =>
      have bound : idx < t.entries.length := wf.len_eq ▸ inside
      obtain ⟨slot, held⟩ : ∃ slot, t.entries[idx]? = some slot :=
        ⟨_, List.getElem?_eq_getElem bound⟩
      rw [held]
      dsimp only
      split
      · exact ih (idx + 1) wf books
      next stalled =>
        have silent := silent_of_newlyStalled (Bool.of_not_eq_false stalled)
        split
        -- another slot has moved to `idx`, and the drain looks there again
        · have kept := books.retireSlotAt wf held
          have wf' := (retireSlotAt_spec wf held).1
          exact ih idx { wf' with }
            { kept with }
        · exact ih (idx + 1) (latchSlot_spec wf held).1 (books.latchSlot held silent)
    · exact books

theorem Books.drainStalledSlots (books : t.Books) (wf : t.Wf) (nowNs thresholdNs : Nat)
    (generationRecycled : UInt32 → Nat → Bool) :
    (t.drainStalledSlots nowNs thresholdNs generationRecycled).2.Books := by
  have sound : ¬t.len > t.entries.length := by simp [wf.len_eq]
  unfold Tracker.drainStalledSlots
  rw [if_neg sound]
  exact Books.drainFrom nowNs thresholdNs generationRecycled t.len 0 wf books

end

/-! ### Whole runs -/

inductive Counter where
  | evictions
  | nonceWraps
  | capacityExceeded
  | originConflicts
  | namespaceConflicts
  | pidRecycles
  | evictionScanTruncated
  | invariantViolations
  | removedPidDrops
  | probeExhausted
  deriving DecidableEq, Repr

def take (t : Tracker) : Counter → Nat × Tracker
  | .evictions => t.takeEvictions
  | .nonceWraps => t.takeNonceWraps
  | .capacityExceeded => t.takeCapacityExceeded
  | .originConflicts => t.takeOriginConflicts
  | .namespaceConflicts => t.takeNamespaceConflicts
  | .pidRecycles => t.takePidRecycles
  | .evictionScanTruncated => t.takeEvictionScanTruncated
  | .invariantViolations => t.takeInvariantViolations
  | .removedPidDrops => t.takeRemovedPidDrops
  | .probeExhausted => t.takeProbeExhausted

/-- What the observer may do with its tracker. A drain asks about a pid at most once, so that
its answers are a function of the pid. -/
inductive Action where
  | record (b : Arrival)
  | drainStalledSlots (nowNs thresholdNs : Nat) (generationRecycled : UInt32 → Nat → Bool)
  | takeEvictedPid
  | take (counter : Counter)

def step (t : Tracker) : Action → Tracker
  | .record b => (t.recordWithGeneration b).2
  | .drainStalledSlots nowNs thresholdNs generationRecycled =>
    (t.drainStalledSlots nowNs thresholdNs generationRecycled).2
  | .takeEvictedPid => t.takeEvictedPid.2
  | .take counter => (t.take counter).2

variable (t : Tracker) (idx : Nat) (b : Arrival)

theorem sameMap_take (counter : Counter) : SameMap t (t.take counter).2 := by
  cases counter <;> exact ⟨rfl, rfl, rfl, fun _ => rfl⟩

theorem Books.take {t : Tracker} (books : t.Books) (counter : Counter) :
    (t.take counter).2.Books := by
  cases counter with
  | invariantViolations => exact ⟨books.latched, books.cursor, books.removed, rfl⟩
  | _ => exact { books with }

theorem step_wf {t : Tracker} (wf : t.Wf) (a : Action) : (t.step a).Wf := by
  cases a with
  | record b => exact (recordWithGeneration_spec wf b).1
  | drainStalledSlots nowNs thresholdNs generationRecycled =>
    exact (drainStalledSlots_spec wf nowNs thresholdNs generationRecycled).wf
  | takeEvictedPid => exact { wf with }
  | take counter => exact (sameMap_take t counter).wf wf

theorem Books.step {t : Tracker} (books : t.Books) (wf : t.Wf) (a : Action) :
    (t.step a).Books := by
  cases a with
  | record b => exact books.recordWithGeneration wf b
  | drainStalledSlots nowNs thresholdNs generationRecycled =>
    exact books.drainStalledSlots wf nowNs thresholdNs generationRecycled
  | takeEvictedPid =>
    have removed := books.removed
    refine ⟨books.latched, books.cursor, ?_, books.unviolated⟩
    simp only [Tracker.step, Tracker.takeEvictedPid, List.length_dropLast]
    omega
  | take counter => exact books.take counter

/-- The map and the books in every state a tracker can get into. -/
theorem run_keeps (hash32 : UInt32 → UInt32) (capacity : Nat) (policy : EvictionPolicy)
    (window : Nat) (actions : List Action) :
    let t := Steps.run step (new hash32 capacity policy window) actions
    t.Wf ∧ t.Books := by
  have keeps (t : Tracker) (a : Action) (sound : t.Wf ∧ t.Books) :
      (t.step a).Wf ∧ (t.step a).Books :=
    ⟨step_wf sound.1 a, sound.2.step sound.1 a⟩
  exact Steps.run_invariant keeps actions
    ⟨wf_new hash32 capacity policy window, books_new hash32 capacity policy window⟩

/-! ### The capacity -/

@[simp] theorem capacity_rememberRemovedPid (pid : UInt32) :
    (t.rememberRemovedPid pid).capacity = t.capacity :=
  (sameMap_rememberRemovedPid t pid).capacity

@[simp] theorem capacity_exceeded : t.exceeded.2.capacity = t.capacity := rfl

@[simp] theorem capacity_recordKnown (slot : Slot) (b : Arrival) :
    (t.recordKnown idx slot b).2.capacity = t.capacity := by
  rw [(recordKnown_cases t idx slot b).2.capacity]
  cases (slot.record b).slot? <;> rfl

@[simp] theorem capacity_evictFor : (t.evictFor idx b).2.capacity = t.capacity := by
  unfold evictFor
  split
  · rfl
  · dsimp only
    split
    · simp [putSlot]
    · split <;> rfl

@[simp] theorem capacity_recordNew : (t.recordNew b).2.capacity = t.capacity := by
  have scanned := (sameMap_findEvictableSlot t b.nowNs b.thresholdNs).capacity
  unfold recordNew
  split
  · split
    next idx t' found => simpa [found] using scanned
    next t' missed => simpa [missed] using scanned
  · split <;> rfl

@[simp] theorem capacity_recordWithGeneration :
    (t.recordWithGeneration b).2.capacity = t.capacity := by
  unfold recordWithGeneration
  split
  · simp
  · split
    · rfl
    · split <;> simp

@[simp] theorem capacity_retireSlotAt : (t.retireSlotAt idx).capacity = t.capacity := by
  unfold retireSlotAt
  dsimp only
  split
  · rfl
  · split
    · simp
    · split
      · rfl
      · split <;> simp [violated]

@[simp] theorem capacity_drainFrom (nowNs thresholdNs : Nat)
    (generationRecycled : UInt32 → Nat → Bool) (rounds idx : Nat) (t : Tracker) :
    (drainFrom nowNs thresholdNs generationRecycled rounds idx t).2.capacity = t.capacity := by
  induction rounds generalizing idx t with
  | zero => rfl
  | succ rounds ih =>
    unfold drainFrom
    split
    · split
      · rfl
      · split
        · exact ih (idx + 1) t
        · split
          · rw [ih]
            exact capacity_retireSlotAt t idx
          · exact ih (idx + 1) _
    · rfl

theorem capacity_step (a : Action) : (t.step a).capacity = t.capacity := by
  cases a with
  | record b => simp [step]
  | drainStalledSlots nowNs thresholdNs generationRecycled =>
    simp only [step, drainStalledSlots, capacity_drainFrom]
    split <;> rfl
  | takeEvictedPid => rfl
  | take counter => exact (sameMap_take t counter).capacity

theorem capacity_run (actions : List Action) :
    (Steps.run step t actions).capacity = t.capacity := by
  induction actions generalizing t with
  | nil => rfl
  | cons a actions ih => rw [Steps.run_cons, ih, capacity_step]

/-- Whatever is recorded, drained and taken out, the table, the index and the counters agree,
and no branch for a broken invariant is ever entered. -/
theorem tracker_structure (hash32 : UInt32 → UInt32) (capacity : Nat) (policy : EvictionPolicy)
    (window : Nat) (actions : List Action) :
    let t := Steps.run step (new hash32 capacity policy window) actions
    t.entries.length = t.len ∧ t.len ≤ normalizeCapacity capacity ∧
      (∀ pid i, t.pidToIndex.get pid = some i ↔ ∃ slot, t.entries[i]? = some slot ∧ slot.pid = pid) ∧
      (t.entries.map (·.pid)).Nodup ∧
      t.stallEmittedCount = t.entries.countP (·.stallEmitted) ∧
      t.evictionScanCursor < max t.len 1 ∧
      t.removedPids.length ≤ normalizeCapacity capacity ∧
      t.invariantViolations = 0 := by
  intro t
  obtain ⟨wf, books⟩ := run_keeps hash32 capacity policy window actions
  have cap : t.capacity = normalizeCapacity capacity := capacity_run _ actions
  exact ⟨wf.len_eq.symm, cap ▸ wf.bounded, wf.indexed, wf.nodup_pids, books.latched, books.cursor,
    cap ▸ books.removed, books.unviolated⟩

end Tracker

end Varta.Watch
