import Varta.Lib.Rotation
import Varta.Watch.TrackerStructure

/-!
# Eviction

A full tracker looks for a victim in a window of its table, from a cursor on that moves behind
the window when nothing is found there. Who is evicted has been silent for long, and a slot
that may be evicted is found after less than one turn of the cursor.
-/
namespace Varta.Watch

open Machine

namespace Tracker

/-! ### Search after search -/

/-- A call of `find_evictable_slot`. -/
structure Search where
  tracker : Tracker
  nowNs : Nat
  thresholdNs : Nat

def Search.result (call : Search) : Option Nat × Tracker :=
  call.tracker.findEvictableSlot call.nowNs call.thresholdNs

/-- What may happen between two calls: no slot is added or removed, and nobody else moves the
cursor. -/
structure Interlude (t t' : Tracker) : Prop where
  pids : t'.entries.map (·.pid) = t.entries.map (·.pid)
  cursor : t'.evictionScanCursor = t.evictionScanCursor
  window : t'.evictionScanWindow = t.evictionScanWindow
  policy : t'.evictionPolicy = t.evictionPolicy

/-- Beats of tracked pids are such an interlude. -/
theorem interlude_recordKnown {t : Tracker} {idx : Nat} {slot : Slot} {b : Arrival} (wf : t.Wf)
    (held : t.entries[idx]? = some slot) (own : slot.pid = b.frame.pid) :
    Interlude t (t.recordKnown idx slot b).2 := by
  have put (new : Slot) (recorded : (slot.record b).slot? = some new) :
      Interlude t (t.putSlot idx slot new) := by
    have used := wf.used slot (List.mem_of_getElem? held)
    have pid := (Slot.record_kept own used recorded).1
    refine ⟨?_, rfl, rfl, rfl⟩
    rw [Tracker.putSlot, List.map_set, pid]
    exact Lists.set_of_held (by rw [List.getElem?_map, held]; rfl)
  unfold recordKnown
  cases recorded : slot.record b with
  | recycle new =>
    have kept := put new (by rw [recorded]; rfl)
    exact { kept with }
  | replace new => exact put new (by rw [recorded]; rfl)
  | refresh new wrapped =>
    have kept := put new (by rw [recorded]; rfl)
    cases wrapped with
    | false => exact kept
    | true => exact { kept with }
  | originConflict | namespaceConflict | outOfOrder => exact ⟨rfl, rfl, rfl, rfl⟩

/-- Calls one after the other, while the slot at `p` may be evicted and none is found. -/
structure Stranded (calls : Nat → Search) (rounds p : Nat) : Prop where
  wf : ∀ i < rounds, (calls i).tracker.Wf
  books : ∀ i < rounds, (calls i).tracker.Books
  next : ∀ i, i + 1 < rounds → Interlude (calls i).result.2 (calls (i + 1)).tracker
  waiting : ∀ i < rounds, ∃ slot, (calls i).tracker.entries[p]? = some slot ∧
    eligible (calls i).tracker.evictionPolicy (calls i).nowNs (calls i).thresholdNs slot = true
  missed : ∀ i < rounds, (calls i).result.1 = none

theorem Wf.scanSize {t : Tracker} (wf : t.Wf) : t.scanSize = t.entries.length := by
  rw [Tracker.scanSize, wf.len_eq, Nat.min_self]

/-- A slot that may be evicted is one the passes look for. -/
theorem Books.possible {t : Tracker} (books : t.Books) {p nowNs thresholdNs : Nat} {slot : Slot}
    (held : t.entries[p]? = some slot)
    (waiting : eligible t.evictionPolicy nowNs thresholdNs slot = true) :
    t.stallEmittedCount > 0 ∨ t.evictionPolicy = .balanced := by
  simp only [eligible, Bool.and_eq_true, Bool.or_eq_true, decide_eq_true_eq] at waiting
  rcases waiting.2 with balanced | latched
  · exact .inr balanced
  · left
    rw [books.latched]
    exact List.countP_pos_iff.mpr ⟨slot, List.mem_of_getElem? held, latched⟩

namespace Stranded

variable {calls : Nat → Search} {rounds p : Nat}

/-- A call without a victim goes past its window, and the slot is not in it. -/
theorem step (stranded : Stranded calls rounds p) {i : Nat} (called : i < rounds) :
    (calls i).result.2.evictionScanCursor = (calls i).tracker.cursorBehind ∧
      p ∉ (calls i).tracker.scanPositions := by
  obtain ⟨slot, held, waiting⟩ := stranded.waiting i called
  obtain ⟨behind, nobody⟩ :=
    (findEvictableSlot_sought (calls i).tracker (calls i).nowNs (calls i).thresholdNs).missed
      (stranded.missed i called) ((stranded.books i called).possible held waiting)
  refine ⟨behind, fun visited => ?_⟩
  rw [nobody p visited slot held] at waiting
  cases waiting

/-- From one call to the next the ring and the window stay. -/
theorem keeps (stranded : Stranded calls rounds p) {i : Nat} (called : i + 1 < rounds) :
    (calls (i + 1)).tracker.scanSize = (calls i).tracker.scanSize ∧
      (calls (i + 1)).tracker.evictionScanWindow = (calls i).tracker.evictionScanWindow := by
  have between := stranded.next i called
  have scan := (findEvictableSlot_sought (calls i).tracker (calls i).nowNs
    (calls i).thresholdNs).kept
  constructor
  · have pids := congrArg List.length between.pids
    simp only [List.length_map] at pids
    rw [(stranded.wf (i + 1) called).scanSize, (stranded.wf i (by omega)).scanSize, pids]
    exact congrArg List.length scan.entries
  · rw [between.window]
    exact scan.window

/-- The cursor goes on by one window a call. -/
theorem cursor (stranded : Stranded calls rounds p) {n width i : Nat}
    (size : (calls 0).tracker.scanSize = n)
    (window : min (calls 0).tracker.evictionScanWindow n = width) (called : i < rounds) :
    (calls i).tracker.scanSize = n ∧ min (calls i).tracker.evictionScanWindow n = width ∧
      (calls i).tracker.evictionScanCursor % n =
        ((calls 0).tracker.evictionScanCursor + i * width) % n := by
  induction i with
  | zero => exact ⟨size, window, by simp⟩
  | succ i ih =>
    have before : i < rounds := by omega
    obtain ⟨size, window, reached⟩ := ih before
    obtain ⟨sameSize, sameWindow⟩ := stranded.keeps called
    refine ⟨sameSize.trans size, by rw [sameWindow, window], ?_⟩
    have moved := (stranded.next i called).cursor.trans (stranded.step before).1
    rw [cursorBehind, size, window] at moved
    rw [moved, Nat.mod_mod, reached, Nat.mod_add_mod, Nat.add_assoc, ← Nat.succ_mul]

theorem lt_turn (stranded : Stranded calls rounds p) {n width : Nat}
    (size : (calls 0).tracker.entries.length = n)
    (window : min (calls 0).tracker.evictionScanWindow n = width) (called : 0 < rounds) :
    rounds * width < n := by
  by_contra turn
  -- the windows of a whole turn cover the ring, so that one of them has the slot
  have wf := stranded.wf 0 called
  obtain ⟨slot, held, _⟩ := stranded.waiting 0 called
  have inside : p < n := size ▸ (List.getElem?_eq_some_iff.mp held).1
  obtain ⟨i, before, offset, short, here⟩ := Rotation.exists_window inside (Nat.le_of_not_lt turn)
    (calls 0).tracker.evictionScanCursor
  obtain ⟨sameSize, sameWindow, reached⟩ :=
    stranded.cursor (wf.scanSize.trans size) window before
  refine (stranded.step before).2 ?_
  rw [scanPositions, sameSize, sameWindow, List.mem_map]
  refine ⟨offset, List.mem_range.mpr short, ?_⟩
  rw [reached, Nat.mod_add_mod, here]

end Stranded

/-- Who is evicted has been silent for ten thresholds and, under `Strict`, is latched; and a
slot that stays evictable is not passed over for a whole turn of the cursor. -/
theorem eviction_sound_and_covering :
    (∀ (t : Tracker) (nowNs thresholdNs idx : Nat),
      (t.findEvictableSlot nowNs thresholdNs).1 = some idx →
      ∃ slot, t.entries[idx]? = some slot ∧
        nowNs - slot.lastNs ≥ u64SaturatingMul thresholdNs evictionMultiplier ∧
        (t.evictionPolicy = .strict → slot.stallEmitted = true)) ∧
      ∀ (calls : Nat → Search) (rounds p : Nat), Stranded calls rounds p →
        ∀ n w, (calls 0).tracker.entries.length = n → (calls 0).tracker.evictionScanWindow = w →
          1 ≤ w → rounds ≤ (n + min w n - 1) / min w n - 1 := by
  constructor
  · intro t nowNs thresholdNs idx chosen
    obtain ⟨slot, held, taken⟩ := (findEvictableSlot_sought t nowNs thresholdNs).found idx chosen
    simp only [eligible, longSilent, Bool.and_eq_true, Bool.or_eq_true, decide_eq_true_eq] at taken
    refine ⟨slot, held, taken.1, fun strict => ?_⟩
    simpa [strict] using taken.2
  · intro calls rounds p stranded n w size window wide
    rcases Nat.eq_zero_or_pos rounds with rfl | called
    · exact Nat.zero_le _
    · have turn := stranded.lt_turn size (by rw [window]) called
      have positive : 0 < min w n := by
        have nonempty : 0 < n := by omega
        omega
      have whole : rounds + 1 ≤ (n + min w n - 1) / min w n := by
        rw [Nat.le_div_iff_mul_le positive, Nat.succ_mul]
        omega
      omega

/-- A full table of two, scanned one slot at a time: the first has just been heard, the second
not for a hundred nanoseconds. -/
def halfSilent : Tracker :=
  Steps.run step (new mix32 2 .balanced 1)
    [.record ⟨⟨.ok, 2, 1, 1, 0⟩, 100, 10, .kernelAttested, none, none⟩,
      .record ⟨⟨.ok, 3, 1, 1, 0⟩, 0, 10, .kernelAttested, none, none⟩]

theorem eviction_sound_and_covering_halfSilent :
    (∃ slot, halfSilent.entries[1]? = some slot ∧
      eligible halfSilent.evictionPolicy 100 10 slot = true) ∧
      (halfSilent.findEvictableSlot 100 10).1 = none ∧ 1 ≤ (2 + min 1 2 - 1) / min 1 2 - 1 := by
  have waiting : ∃ slot, halfSilent.entries[1]? = some slot ∧
      eligible halfSilent.evictionPolicy 100 10 slot = true :=
    ⟨_, (Option.some_get (by decide +kernel)).symm, by decide +kernel⟩
  have missed : (halfSilent.findEvictableSlot 100 10).1 = none := by decide +kernel
  have kept := run_keeps mix32 2 .balanced 1
    [.record ⟨⟨.ok, 2, 1, 1, 0⟩, 100, 10, .kernelAttested, none, none⟩,
      .record ⟨⟨.ok, 3, 1, 1, 0⟩, 0, 10, .kernelAttested, none, none⟩]
  exact ⟨waiting, missed, eviction_sound_and_covering.2 (fun _ => ⟨halfSilent, 100, 10⟩) 1 1
    ⟨fun _ _ => kept.1, fun _ _ => kept.2, fun _ _ => by omega, fun _ _ => waiting,
      fun _ _ => missed⟩ 2 1 (by decide +kernel) (by decide +kernel) (by decide)⟩

end Tracker

end Varta.Watch
