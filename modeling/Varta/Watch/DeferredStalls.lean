import Varta.Watch.MainLoop
import Varta.Watch.StallQueue

/-!
# Deferred stalls

The check before a deferred recovery looks at the slot that its pid has now, and not at what the
stall says. That is enough: a slot that is still latched is the slot that has stalled. Every beat
that is accepted takes the latch away, every eviction takes the slot away, and nothing is latched
while the queue is not empty.
-/
namespace Varta.Watch

open Observer
open Tracker (StallEvent StallFreshness)

/-! ### What latches -/

namespace Tracker

/-- A slot that is latched now was the same slot before. -/
def LatchedKept (t t' : Tracker) : Prop :=
  ∀ pid slot, t'.slotOf pid = some slot → slot.stallEmitted = true → t.slotOf pid = some slot

theorem recordWithGeneration_latchedKept {t : Tracker} (wf : t.Wf) (b : Arrival) :
    LatchedKept t (t.recordWithGeneration b).2 := by
  intro pid slot known latched
  cases (recordWithGeneration_spec wf b).2 with
  | refused rejected same => exact (same.slotOf pid).symm.trans known
  | @updated before new present recorded answer after =>
    rw [after pid] at known
    split at known
    · -- the slot of the beat is not latched
      cases known
      obtain ⟨there, own⟩ := wf.slotOf_eq_some_iff.mp present
      have unlatched := (Slot.record_kept own (wf.used before there) recorded).2.2.1
      rw [unlatched] at latched
      cases latched
    · exact known
  | inserted unknown answer victim full after =>
    -- a new slot is not latched either, and the evicted one is gone
    rw [after pid] at known
    split at known
    · cases known
      cases latched
    · split at known
      · cases known
      · exact known

/-- The slot is as the stall says. -/
structure Matches (stall : StallEvent) (slot : Slot) : Prop where
  lastNs : slot.lastNs = stall.lastNs
  lastObservedNonce : slot.lastObservedNonce = stall.lastNonce
  origin : slot.origin = stall.origin
  pidNsInode : slot.pidNsInode = stall.pidNsInode
  generation : slot.generation = stall.generation

/-- What a drain announces is what it leaves in the slot. -/
theorem drainStalledSlots_matches {t : Tracker} (wf : t.Wf) {nowNs thresholdNs : Nat}
    {generationRecycled : UInt32 → Nat → Bool} {stall : StallEvent} {slot : Slot}
    (announced : stall ∈ (t.drainStalledSlots nowNs thresholdNs generationRecycled).1)
    (known : (t.drainStalledSlots nowNs thresholdNs generationRecycled).2.slotOf stall.pid =
      some slot) : Matches stall slot := by
  obtain ⟨before, present, told, _, _⟩ := mem_drainStalledSlots wf announced
  rw [told]
  have entries := (drainStalledSlots_spec wf nowNs thresholdNs generationRecycled).entries stall.pid
  rw [known] at entries
  rcases entries with same | ⟨again, found, _, gone | latched⟩
  · rw [present] at same
    cases same
    exact ⟨rfl, rfl, rfl, rfl, rfl⟩
  · cases gone
  · rw [present] at found
    cases found
    cases latched
    exact ⟨rfl, rfl, rfl, rfl, rfl⟩

/-- What the check before a deferred recovery has seen when it lets a stall pass. -/
theorem stallFreshness_warranted {t : Tracker} (wf : t.Wf) {pid : UInt32} {generation : Option Nat}
    {readGeneration : UInt32 → Option Nat}
    (verdict : t.stallFreshness pid generation readGeneration = .warranted) :
    ∃ slot, t.slotOf pid = some slot ∧ slot.stallEmitted = true ∧
      (slot.origin = .kernelAttested → ∃ pinned, generation = some pinned ∧
        readGeneration pid = some pinned) := by
  unfold stallFreshness at verdict
  rw [wf.usedSlotOf] at verdict
  split at verdict
  · cases verdict
  next slot known =>
    dsimp only at verdict
    split at verdict
    · cases verdict
    next latched =>
      refine ⟨slot, known, Bool.not_eq_false _ ▸ latched, fun attested => ?_⟩
      -- the start time is read again for an attested origin only
      rw [if_pos attested] at verdict
      split at verdict
      · cases verdict
      next pinned =>
        split at verdict
        next current read =>
          split at verdict
          next same => exact ⟨pinned, rfl, same ▸ read⟩
          next => cases verdict
        next => cases verdict

end Tracker

/-! ### The queue and the slots -/

/-- Each stall from the cursor on tells of the slot of its pid, if that is latched. -/
structure Untouched (o : Observer) : Prop where
  wf : o.tracker.Wf
  matches_ : ∀ i stall slot, o.stallCursor ≤ i → o.stallQueue[i]? = some (some stall) →
    o.tracker.slotOf stall.pid = some slot → slot.stallEmitted = true → Tracker.Matches stall slot

variable {o o' : Observer} (budgets : Budgets)

theorem Untouched.congr (untouched : Untouched o) (queue : SameQueue o o') (wf : o'.tracker.Wf)
    (kept : Tracker.LatchedKept o.tracker o'.tracker) : Untouched o' := by
  refine ⟨wf, fun i stall slot after queued known latched => ?_⟩
  rw [queue.stallCursor] at after
  rw [queue.stallQueue] at queued
  exact untouched.matches_ i stall slot after queued (kept _ _ known latched) latched

theorem Untouched.same (untouched : Untouched o) (queue : SameQueue o o')
    (tracker : o'.tracker = o.tracker) : Untouched o' := by
  refine untouched.congr queue (tracker ▸ untouched.wf) fun pid slot known _ => ?_
  rw [← tracker]
  exact known

theorem Untouched.drain (untouched : Untouched o) (rawClock : Nat)
    (generationRecycled : UInt32 → Nat → Bool) :
    Untouched (o.drainStalls rawClock generationRecycled) := by
  by_cases pending : o.stallCursor < o.stallQueue.length
  · rw [drainStalls_pending pending]
    exact untouched
  · -- the queue is filled with what has just been latched
    have refilled := drainStalls_refilled pending rawClock generationRecycled
    obtain ⟨queue, tracker⟩ := Prod.mk.inj refilled.drained
    dsimp only [id] at queue tracker
    have spec := Tracker.drainStalledSlots_spec untouched.wf (max o.lastNowNs rawClock) o.thresholdNs
      generationRecycled
    refine ⟨tracker ▸ spec.wf, fun i stall slot _ queued known _ => ?_⟩
    rw [queue, List.getElem?_map] at queued
    obtain ⟨announced, there, same⟩ := Option.map_eq_some_iff.mp queued
    cases same
    rw [tracker] at known
    exact Tracker.drainStalledSlots_matches untouched.wf (List.mem_of_getElem? there) known

theorem Untouched.listen (untouched : Untouched o) (i : Nat) (round : Round) :
    Untouched (o.pollListener i round).2 := by
  have queue := pollListener_sameQueue o i round
  obtain ⟨o', _, _, received, handled, -⟩ := pollListener_spec round o i
  cases handled with
  | dropped silent same => exact untouched.same queue (same.tracker.trans received.tracker)
  | @recorded _ _ _ b answer arrived kept tracker accepted refused =>
    have after := tracker
    rw [received.tracker] at after
    refine untouched.congr queue ?_ ?_
    · exact after ▸ (Tracker.recordWithGeneration_spec untouched.wf b).1
    · exact after ▸ Tracker.recordWithGeneration_latchedKept untouched.wf b

/-- Step lemma: the parts of a poll, and maintenance. -/
theorem Untouched.applyStep (o : Observer) (step : Step) (untouched : Untouched o) :
    Untouched (o.applyStep step) := by
  cases step with
  | listen i round => exact untouched.listen i round
  | consumed flag => exact untouched.same ⟨rfl, rfl, rfl⟩ rfl
  | drain rawClock generationRecycled => exact untouched.drain rawClock generationRecycled
  | readClock rawClock =>
    have clock := applyRawClock_clocked o rawClock
    exact untouched.same clock.sameQueue clock.tracker
  | refreshPidMax rawClock reading =>
    have clock := maybeRefreshPidMax_clocked o rawClock reading
    exact untouched.same clock.sameQueue clock.tracker

section

variable (untouched : Untouched o)
include untouched

theorem Untouched.poll (input : PollInput) : Untouched (o.poll input).2 := by
  obtain ⟨tried, flag, _, reached, _⟩ := poll_steps o input
  rw [reached]
  exact Steps.run_invariant Untouched.applyStep _ untouched

theorem Untouched.maintain (input : TickInput) : Untouched (maintain input o) :=
  Steps.run_invariant Untouched.applyStep _ untouched

/-- The stall at the cursor leaves the queue. -/
theorem Untouched.pollPending : Untouched o.pollPending.2 := by
  unfold Observer.pollPending
  split
  · refine ⟨untouched.wf, fun i stall slot after queued known latched => ?_⟩
    dsimp only at after queued known
    rw [List.getElem?_set_ne (Nat.ne_of_lt after)] at queued
    exact untouched.matches_ i stall slot (Nat.le_of_succ_le after) queued known latched
  · exact untouched

theorem Untouched.deferRemaining : Untouched o.deferRemainingStallsForRecovery := by
  unfold deferRemainingStallsForRecovery
  split
  · exact ⟨untouched.wf, untouched.matches_⟩
  · exact untouched

/-- Run lemma: the pre-drain. -/
theorem Untouched.predrain (input : Nat → PollInput) (budget k : Nat) :
    Untouched (predrain input budget k o) := by
  induction budget generalizing o k with
  | zero => exact untouched
  | succ budget ih =>
    unfold Watch.predrain
    dsimp only
    split
    · exact ih (untouched.poll (input k)) (k + 1)
    · exact untouched.poll (input k)

theorem Untouched.predrained (recovery : Bool) (input : TickInput) :
    Untouched (predrained budgets recovery input o) := by
  unfold Watch.predrained
  split
  · exact untouched.predrain _ _ _
  · exact untouched

end

/-! ### The check -/

/-- A stall that the loop takes from the queue, with all that decides whether it fires. -/
structure Evaluation where
  stall : StallEvent
  requiresFreshnessCheck : Bool
  readGeneration : UInt32 → Option Nat
  observer : Observer

namespace Evaluation

def freshness (e : Evaluation) : StallFreshness :=
  e.observer.tracker.stallFreshness e.stall.pid e.stall.generation e.readGeneration

def fires (e : Evaluation) : Bool := !e.requiresFreshnessCheck || decide (e.freshness = .warranted)

theorem held_iff (e : Evaluation) :
    e.requiresFreshnessCheck = true ∧ e.freshness ≠ .warranted ↔ e.fires = false := by
  unfold fires
  rw [Bool.or_eq_false_iff, Bool.not_eq_false', decide_eq_false_iff_not]

def call (e : Evaluation) : OnStall := ⟨e.stall, crossNamespaceAgent e.observer e.stall, e.observer⟩

end Evaluation

/-- The stalls that `evaluateStalls` takes, with recovery. -/
def evaluations (spawnMax : Nat) (input : TickInput) : Nat → Nat → Nat → Observer → List Evaluation
  | 0, _, _, _ => []
  | budget + 1, k, spawns, o =>
    match o.pollPendingForRecovery with
    | (none, _) => []
    | (some (stall, requiresFreshnessCheck), o) =>
      let here : Evaluation := ⟨stall, requiresFreshnessCheck, input.readGeneration k, o⟩
      if here.fires = false then here :: evaluations spawnMax input budget (k + 1) spawns o
      else
        let spawns := if input.didSpawn k then spawns + 1 else spawns
        if input.didSpawn k ∧ spawns ≥ spawnMax then [here]
        else here :: evaluations spawnMax input budget (k + 1) spawns o

/-- The calls of `on_stall` are for the stalls that fire. -/
theorem evaluateStalls_calls (spawnMax : Nat) (input : TickInput) (budget k spawns : Nat)
    (o : Observer) :
    (evaluateStalls spawnMax true input budget k spawns o).calls =
      ((evaluations spawnMax input budget k spawns o).filter Evaluation.fires).map
        Evaluation.call := by
  induction budget generalizing k spawns o with
  | zero => rfl
  | succ budget ih =>
    unfold evaluateStalls evaluations
    generalize o.pollPendingForRecovery = taken
    obtain ⟨answer, o'⟩ := taken
    cases answer with
    | none => rfl
    | some answer =>
      obtain ⟨stall, check⟩ := answer
      dsimp only
      rw [if_neg Bool.true_eq_false_eq_False]
      have gate := Evaluation.held_iff ⟨stall, check, input.readGeneration k, o'⟩
      dsimp only [Evaluation.freshness] at gate
      by_cases held : Evaluation.fires ⟨stall, check, input.readGeneration k, o'⟩ = false
      · rw [if_pos (gate.mpr held), if_pos held, List.filter_cons_of_neg (by rw [held]; simp)]
        exact ih (k + 1) spawns o'
      · have fires := Bool.not_eq_false _ ▸ held
        rw [if_neg (mt gate.mp held), if_neg held]
        generalize (if input.didSpawn k = true then spawns + 1 else spawns) = spawns'
        split
        · -- the spawn budget is used up
          rw [List.filter_cons_of_pos fires]
          rfl
        · rw [List.filter_cons_of_pos fires, List.map_cons]
          exact congrArg _ (ih (k + 1) spawns' o')

/-- The stall just taken. -/
theorem Untouched.taken {stall : StallEvent} {check : Bool} (untouched : Untouched o)
    (taken : o.pollPendingForRecovery = (some (stall, check), o')) :
    Untouched o' ∧ ∀ slot, o'.tracker.slotOf stall.pid = some slot → slot.stallEmitted = true →
      Tracker.Matches stall slot := by
  rw [pollPendingForRecovery_eq] at taken
  obtain ⟨answer, rfl⟩ := Prod.mk.inj taken
  refine ⟨untouched.pollPending, fun slot known latched => ?_⟩
  obtain ⟨found, next, same⟩ := Option.map_eq_some_iff.mp answer
  cases same
  unfold Observer.pollPending at next known
  split at next
  · rw [if_pos (by assumption)] at known
    have queued : o.stallQueue[o.stallCursor]? = some (some stall) := Option.join_eq_some_iff.mp next
    exact untouched.matches_ o.stallCursor stall slot (Nat.le_refl _) queued known latched
  · cases next

/-- The slot of a stall that passes the check is the slot that has stalled, and an attested process
is still the one that the stall names. -/
structure Evaluation.Proved (e : Evaluation) : Prop where
  slot : ∃ slot, e.observer.tracker.slotOf e.stall.pid = some slot ∧ Tracker.Matches e.stall slot
  attested : e.stall.origin = .kernelAttested → ∃ pinned, e.stall.generation = some pinned ∧
    e.readGeneration e.stall.pid = some pinned

theorem Untouched.proved {e : Evaluation} (wf : e.observer.tracker.Wf)
    (told : ∀ slot, e.observer.tracker.slotOf e.stall.pid = some slot → slot.stallEmitted = true →
      Tracker.Matches e.stall slot) (passed : e.freshness = .warranted) : e.Proved := by
  obtain ⟨slot, known, latched, read⟩ := Tracker.stallFreshness_warranted wf passed
  have same := told slot known latched
  exact ⟨⟨slot, known, same⟩, fun attested => read (same.origin.trans attested)⟩

/-- Run lemma: the loop over the queued stalls. -/
theorem Untouched.evaluations (untouched : Untouched o) (spawnMax : Nat) (input : TickInput)
    (budget k spawns : Nat) :
    ∀ e ∈ evaluations spawnMax input budget k spawns o, e.freshness = .warranted → e.Proved := by
  induction budget generalizing o k spawns with
  | zero => exact List.forall_mem_nil _
  | succ budget ih =>
    unfold Watch.evaluations
    split
    · exact List.forall_mem_nil _
    next stall check o' taken =>
      obtain ⟨rest, told⟩ := untouched.taken taken
      have here : ∀ later : List Evaluation, (∀ e ∈ later, e.freshness = .warranted → e.Proved) →
          ∀ e ∈ (⟨stall, check, input.readGeneration k, o'⟩ : Evaluation) :: later,
            e.freshness = .warranted → e.Proved := by
        intro later proved e member passed
        rcases List.mem_cons.mp member with rfl | after
        · exact Untouched.proved rest.wf told passed
        · exact proved e after passed
      dsimp only
      generalize (if input.didSpawn k = true then spawns + 1 else spawns) = spawns'
      split
      · exact here _ (ih rest (k + 1) spawns)
      · split
        · exact here [] (List.forall_mem_nil _)
        · exact here _ (ih rest (k + 1) spawns')

/-- Run lemma: what the loop leaves. -/
theorem Untouched.evaluateStalls (untouched : Untouched o) (spawnMax : Nat) (input : TickInput)
    (budget k spawns : Nat) :
    Untouched (evaluateStalls spawnMax true input budget k spawns o).observer := by
  induction budget generalizing o k spawns with
  | zero => exact untouched
  | succ budget ih =>
    unfold Watch.evaluateStalls
    split
    next o' idle =>
      have same : o' = o.pollPending.2 := by
        rw [pollPendingForRecovery_eq] at idle
        exact (Prod.mk.inj idle).2.symm
      exact same ▸ untouched.pollPending
    next stall check o' taken =>
      obtain ⟨rest, _⟩ := untouched.taken taken
      rw [if_neg Bool.true_eq_false_eq_False]
      dsimp only
      generalize (if input.didSpawn k = true then spawns + 1 else spawns) = spawns'
      split
      · exact ih rest (k + 1) spawns
      · split
        · exact rest
        · exact ih rest (k + 1) spawns'

theorem Untouched.drainPending (untouched : Untouched o) (budgets : Budgets) (input : TickInput) :
    Untouched (drainPending budgets true input o).2 := by
  have left := untouched.evaluateStalls budgets.spawnMax input budgets.stallEvalMax 0 0
  unfold Watch.drainPending
  dsimp only
  split
  · exact left.deferRemaining
  · exact left

/-- Step lemma: one tick. -/
theorem Untouched.tick (d : Daemon) (input : TickInput) (untouched : Untouched d.observer) :
    Untouched (tick budgets true d input).observer :=
  (((untouched.predrained budgets true input).drainPending budgets input).poll input.poll).maintain
    input

theorem run_untouched (ticks : List TickInput) {d : Daemon} (untouched : Untouched d.observer) :
    Untouched (Steps.run (Watch.tick budgets true) d ticks).observer := by
  induction ticks generalizing d with
  | nil => exact untouched
  | cons input ticks ih => exact ih (untouched.tick budgets d input)

/-- The stalls that a tick takes from the queue. -/
def tickEvaluations (budgets : Budgets) (d : Daemon) (input : TickInput) : List Evaluation :=
  evaluations budgets.spawnMax input budgets.stallEvalMax 0 0
    (predrained budgets true input d.observer)

/-- In every run of ticks: a stall that had to be checked and passes is that of a slot which is as
it was when the stall was queued; if its origin is attested, the stall names a start time and the
process has it. -/
theorem deferred_stall_untouched {cfg : ObserverConfig} {start : Observer}
    (started : Observer.new cfg = some start) (budgets : Budgets) (ticks : List TickInput)
    (input : TickInput) :
    ∀ e ∈ tickEvaluations budgets (Steps.run (tick budgets true) ⟨start, []⟩ ticks) input,
      e.requiresFreshnessCheck = true → e.freshness = .warranted → e.Proved := by
  obtain ⟨_, wf, _, empty⟩ := started_of_new started
  have first : Untouched start := by
    refine ⟨wf, fun i stall slot _ queued => ?_⟩
    rw [empty] at queued
    cases queued
  have untouched : Untouched (Steps.run (tick budgets true) ⟨start, []⟩ ticks).observer :=
    run_untouched budgets ticks first
  intro e taken _
  exact (untouched.predrained budgets true input).evaluations _ _ _ _ _ e taken

/-- One evaluation in each tick. -/
def oneByOne : Budgets := ⟨4096, 1, 16⟩

/-- Processes 42 and 43 fall silent; the stall of 42 fires and that of 43 is held back. -/
def secondHeldBack : List TickInput :=
  [tickAt 1 .wouldBlock (beatFrom 42 1), tickAt 2 .wouldBlock (beatFrom 43 1),
    tickAt (minThreshold + 2) .wouldBlock .wouldBlock,
    tickAt (minThreshold + 3) .wouldBlock .wouldBlock]

theorem deferred_stall_untouched_secondHeldBack :
    (tickEvaluations oneByOne (Steps.run (tick oneByOne true) ⟨socketObserver, []⟩ secondHeldBack)
        (tickAt (minThreshold + 4) .wouldBlock .wouldBlock)).map
      (fun e => (e.stall.pid, e.requiresFreshnessCheck, e.fires)) = [(43, true, true)] ∧
      ∀ e ∈ tickEvaluations oneByOne
          (Steps.run (tick oneByOne true) ⟨socketObserver, []⟩ secondHeldBack)
          (tickAt (minThreshold + 4) .wouldBlock .wouldBlock),
        e.requiresFreshnessCheck = true → e.freshness = .warranted → e.Proved :=
  ⟨by decide +kernel,
    deferred_stall_untouched (Option.some_get _).symm oneByOne secondHeldBack _⟩

end Varta.Watch
