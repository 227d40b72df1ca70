import Varta.Watch.PollLog
import Varta.Watch.StallRuns

/-!
# The stall queue

The queue of the observer as its callers see it. Stalls come out one by one in the order in which
the tracker has produced them. What is marked for a second look before recovery is exactly what
was still in the queue at a call of `defer_remaining_stalls_for_recovery`, although the observer
remembers only one index for it.
-/
namespace Varta.Watch

namespace Observer

open Tracker (StallEvent)

/-! ### The observer's tracker -/

theorem applyStep_tracker (o : Observer) (step : Step) :
    ∃ actions, (o.applyStep step).tracker = Steps.run Tracker.step o.tracker actions := by
  cases step with
  | listen i round =>
    obtain ⟨o', _, _, received, handled, -⟩ := pollListener_spec round o i
    cases handled with
    | dropped silent same => exact ⟨[], same.tracker.trans received.tracker⟩
    | @recorded _ _ _ b answer arrived kept tracker accepted refused =>
      refine ⟨[.record b], tracker.trans ?_⟩
      rw [received.tracker]
      rfl
  | consumed flag => exact ⟨[], rfl⟩
  | drain rawClock generationRecycled =>
    by_cases pending : o.stallCursor < o.stallQueue.length
    · exact ⟨[], congrArg Observer.tracker (drainStalls_pending pending rawClock generationRecycled)⟩
    · have refilled := drainStalls_refilled pending rawClock generationRecycled
      exact ⟨[.drainStalledSlots (max o.lastNowNs rawClock) o.thresholdNs generationRecycled],
        congrArg Prod.snd refilled.drained⟩
  | readClock rawClock => exact ⟨[], (applyRawClock_clocked o rawClock).tracker⟩
  | refreshPidMax rawClock reading =>
    exact ⟨[], (maybeRefreshPidMax_clocked o rawClock reading).tracker⟩

/-- Run lemma: whatever the observer does, its tracker only records and drains. -/
theorem run_tracker (o : Observer) (steps : List Step) :
    ∃ actions, (Steps.run applyStep o steps).tracker = Steps.run Tracker.step o.tracker actions := by
  induction steps generalizing o with
  | nil => exact ⟨[], rfl⟩
  | cons step steps ih =>
    obtain ⟨first, now⟩ := applyStep_tracker o step
    obtain ⟨rest, later⟩ := ih (o.applyStep step)
    refine ⟨first ++ rest, ?_⟩
    rw [Steps.run_cons, later, now, Steps.run_append]

theorem normalizeCapacity_le (capacity : Nat) : normalizeCapacity capacity ≤ maxCapacity :=
  Nat.max_le.mpr ⟨by decide, Nat.min_le_right _ _⟩

/-- The tracker is sound, and not larger than the code allows. -/
structure Sized (t : Tracker) : Prop where
  wf : t.Wf
  capacity : t.capacity ≤ maxCapacity

theorem Sized.run {t : Tracker} (sized : Sized t) (actions : List Tracker.Action) :
    Sized (Steps.run Tracker.step t actions) := by
  have keeps (t : Tracker) (a : Tracker.Action) (wf : t.Wf) : (t.step a).Wf := Tracker.step_wf wf a
  refine ⟨Steps.run_invariant keeps actions sized.wf, ?_⟩
  rw [Tracker.capacity_run]
  exact sized.capacity

theorem Sized.length_drained_le {t : Tracker} (sized : Sized t) (nowNs thresholdNs : Nat)
    (generationRecycled : UInt32 → Nat → Bool) :
    (t.drainStalledSlots nowNs thresholdNs generationRecycled).1.length ≤ maxCapacity := by
  have perm := Tracker.drainStalledSlots_perm sized.wf nowNs thresholdNs generationRecycled
  calc (t.drainStalledSlots nowNs thresholdNs generationRecycled).1.length
      = (t.entries.filter (Tracker.announces nowNs thresholdNs generationRecycled)).length := by
        rw [perm.length_eq, List.length_map]
    _ ≤ t.entries.length := List.length_filter_le ..
    _ = t.len := sized.wf.len_eq.symm
    _ ≤ maxCapacity := Nat.le_trans sized.wf.bounded sized.capacity

/-! ### What is produced -/

/-- The stalls that a drain takes from the tracker. -/
def drainedStalls (o : Observer) (rawClock : Nat) (generationRecycled : UInt32 → Nat → Bool) :
    List StallEvent :=
  if o.stallCursor < o.stallQueue.length then []
  else
    let (nowNs, o) := o.applyRawClock rawClock
    (o.tracker.drainStalledSlots nowNs o.thresholdNs generationRecycled).1

/-- The stalls that a poll takes from the tracker. -/
def polledStalls (o : Observer) (input : PollInput) : List StallEvent :=
  let ((_, consumed), o) := pollListeners input.rounds o.pollOrder false o
  { o with lastPollConsumed := consumed }.drainedStalls input.drainClock input.generationRecycled

/-- A poll fills the queue with what it takes from the tracker, if it finds the queue empty. -/
structure Requeued (stalls : List StallEvent) (o' : Observer) : Prop where
  stallQueue : o'.stallQueue = stalls.map some
  stallCursor : o'.stallCursor = 0
  stallDeferredFrom : o'.stallDeferredFrom = usizeMax
  bounded : stalls.length ≤ maxCapacity

variable {o : Observer}

theorem drainStalls_requeued (sized : Sized o.tracker)
    (empty : ¬ o.stallCursor < o.stallQueue.length) (rawClock : Nat)
    (generationRecycled : UInt32 → Nat → Bool) :
    Requeued (o.drainedStalls rawClock generationRecycled)
      (o.drainStalls rawClock generationRecycled) := by
  have clock := applyRawClock_clocked o rawClock
  unfold drainStalls drainedStalls
  rw [if_neg empty, if_neg empty]
  generalize o.applyRawClock rawClock = result at clock
  refine ⟨rfl, rfl, rfl, ?_⟩
  have sized' : Sized result.2.tracker := clock.tracker ▸ sized
  exact sized'.length_drained_le _ _ _

theorem Sized.pollListeners (sized : Sized o.tracker) (rounds : Nat → Round) (order : List Nat)
    (consumed : Bool) : Sized (pollListeners rounds order consumed o).2.tracker := by
  obtain ⟨tried, _, reached, _⟩ := pollListeners_steps rounds order consumed o
  obtain ⟨actions, run⟩ := run_tracker o (tried.map fun i => .listen i (rounds i))
  rw [reached, run]
  exact sized.run actions

theorem Sized.poll (sized : Sized o.tracker) (input : PollInput) :
    Sized (o.poll input).2.tracker := by
  obtain ⟨tried, flag, _, reached, _⟩ := poll_steps o input
  obtain ⟨actions, run⟩ := run_tracker o ((tried.map fun i => .listen i (input.rounds i)) ++
    [.consumed flag, .drain input.drainClock input.generationRecycled])
  rw [reached, run]
  exact sized.run actions

theorem poll_requeued (sized : Sized o.tracker) (empty : ¬ o.stallCursor < o.stallQueue.length)
    (input : PollInput) : Requeued (o.polledStalls input) (o.poll input).2 := by
  have sized' := sized.pollListeners input.rounds o.pollOrder false
  obtain ⟨_, queue, _⟩ := pollListeners_polled input.rounds o.pollOrder false sized.wf
  unfold poll polledStalls
  generalize pollListeners input.rounds o.pollOrder false o = result at sized' queue
  obtain ⟨⟨event, consumed⟩, o'⟩ := result
  dsimp only at sized' queue ⊢
  rw [← queue.stallQueue, ← queue.stallCursor] at empty
  exact drainStalls_requeued (o := { o' with lastPollConsumed := consumed }) sized' empty _ _

/-- A poll produces nothing while stalls are pending. -/
theorem polledStalls_pending (wf : o.tracker.Wf) (pending : o.stallCursor < o.stallQueue.length)
    (input : PollInput) : o.polledStalls input = [] := by
  obtain ⟨_, queue, _⟩ := pollListeners_polled input.rounds o.pollOrder false wf
  unfold polledStalls
  generalize pollListeners input.rounds o.pollOrder false o = result at queue
  obtain ⟨⟨event, consumed⟩, o'⟩ := result
  dsimp only at queue ⊢
  rw [← queue.stallQueue, ← queue.stallCursor] at pending
  exact if_pos pending

/-! ### Deliveries -/

theorem pollPendingForRecovery_eq (o : Observer) : o.pollPendingForRecovery =
    (o.pollPending.1.map (·, decide (o.stallCursor ≥ o.stallDeferredFrom)), o.pollPending.2) := by
  unfold pollPendingForRecovery pollPending
  split_ifs with pending
  · cases o.stallQueue[o.stallCursor]?.join <;> rfl
  · rfl

inductive Call where
  | poll (input : PollInput)
  | pollPending
  | pollPendingForRecovery
  | deferRemainingStallsForRecovery

/-- An observer with the history of its queue. -/
structure Delivery where
  observer : Observer
  /-- Everything the tracker has produced. -/
  produced : List StallEvent
  /-- Everything the callers have got. -/
  returned : List StallEvent
  /-- How many defer calls each produced stall has been in the queue for, by its place in
  `produced`. -/
  defers : Nat → Nat

namespace Delivery

def start (o : Observer) : Delivery := ⟨o, [], [], fun _ => 0⟩

def call (d : Delivery) : Call → Delivery
  | .poll input => { d with
      observer := (d.observer.poll input).2
      produced := d.produced ++ d.observer.polledStalls input }
  | .pollPending => { d with
      observer := d.observer.pollPending.2
      returned := d.returned ++ d.observer.pollPending.1.toList }
  | .pollPendingForRecovery => { d with
      observer := d.observer.pollPendingForRecovery.2
      returned := d.returned ++ (d.observer.pollPendingForRecovery.1.map Prod.fst).toList }
  | .deferRemainingStallsForRecovery => { d with
      observer := d.observer.deferRemainingStallsForRecovery
      defers := fun i =>
        if d.returned.length ≤ i ∧ i < d.produced.length then d.defers i + 1 else d.defers i }

/-- The queue holds what has been produced and not returned, and its index says which of that has
been deferred. -/
structure Faithful (d : Delivery) : Prop where
  sized : Sized d.observer.tracker
  bounded : d.observer.stallQueue.length ≤ maxCapacity
  returned : d.returned <+: d.produced
  pending : d.observer.stallQueue.drop d.observer.stallCursor =
    (d.produced.drop d.returned.length).map some
  later : ∀ i, d.produced.length ≤ i → d.defers i = 0
  deferred : (d.observer.stallDeferredFrom = usizeMax ∧
      ∀ i, d.returned.length ≤ i → d.defers i = 0) ∨
    (d.observer.stallDeferredFrom ≤ d.observer.stallCursor ∧
      ∀ i, d.returned.length ≤ i → i < d.produced.length → 0 < d.defers i)

section

variable {d : Delivery}

theorem Faithful.pending_iff (faithful : Faithful d) :
    d.observer.stallCursor < d.observer.stallQueue.length ↔
      d.returned.length < d.produced.length := by
  have lengths := congrArg List.length faithful.pending
  simp only [List.length_drop, List.length_map] at lengths
  omega

/-- The stall at the cursor is the first one that has not been returned. -/
theorem Faithful.head (faithful : Faithful d) :
    d.observer.stallQueue[d.observer.stallCursor]?.join = d.produced[d.returned.length]? := by
  have first := congrArg List.head? faithful.pending
  rw [List.head?_drop, List.head?_map, List.head?_drop] at first
  rw [first]
  cases d.produced[d.returned.length]? <;> rfl

theorem Faithful.pollPending_eq (faithful : Faithful d) :
    d.observer.pollPending.1 = d.produced[d.returned.length]? := by
  unfold pollPending
  split
  · exact faithful.head
  next empty =>
    have done := mt faithful.pending_iff.mpr empty
    exact (List.getElem?_eq_none (Nat.le_of_not_lt done)).symm

/-- The two ways to take a stall differ in what they say about it. -/
theorem call_pollPendingForRecovery (d : Delivery) :
    d.call .pollPendingForRecovery = d.call .pollPending := by
  unfold call
  rw [pollPendingForRecovery_eq]
  cases d.observer.pollPending.1 <;> rfl

theorem Faithful.pollPending (faithful : Faithful d) : Faithful (d.call .pollPending) := by
  have answer := faithful.pollPending_eq
  by_cases waiting : d.observer.stallCursor < d.observer.stallQueue.length
  · have left := faithful.pending_iff.mp waiting
    obtain ⟨stall, next⟩ : ∃ stall, d.produced[d.returned.length]? = some stall :=
      ⟨_, List.getElem?_eq_getElem left⟩
    rw [next] at answer
    unfold call
    dsimp only
    rw [answer, Option.toList_some]
    unfold Observer.pollPending
    rw [if_pos waiting]
    refine ⟨faithful.sized, ?_, ?_, ?_, faithful.later, ?_⟩
    · simpa using faithful.bounded
    · -- what has been returned is one longer
      obtain ⟨rest, all⟩ := faithful.returned
      rw [← all, List.getElem?_append_right (Nat.le_refl _), Nat.sub_self] at next
      cases rest with
      | nil => cases next
      | cons first rest =>
        cases next
        exact ⟨rest, by rw [← all, List.append_assoc]; rfl⟩
    · -- the place behind the cursor is emptied, which is not part of what is pending
      have tail := congrArg List.tail faithful.pending
      rw [List.tail_drop, ← List.map_tail, List.tail_drop] at tail
      dsimp only
      rw [List.drop_set_of_lt (Nat.lt_succ_self _), tail, List.length_append, List.length_singleton]
    · rw [List.length_append, List.length_singleton]
      refine faithful.deferred.imp ?_ ?_
      · exact fun ⟨unmarked, zero⟩ => ⟨unmarked, fun i above => zero i (by omega)⟩
      · refine fun ⟨marked, positive⟩ => ⟨Nat.le_succ_of_le marked, fun i above below => ?_⟩
        exact positive i (by omega) below
  · have done : d.produced[d.returned.length]? = none :=
      List.getElem?_eq_none (Nat.le_of_not_lt (mt faithful.pending_iff.mpr waiting))
    rw [done] at answer
    have still : d.call .pollPending = d := by
      unfold call
      dsimp only
      rw [answer, Option.toList_none, List.append_nil, Observer.pollPending, if_neg waiting]
    rw [still]
    exact faithful

theorem Faithful.poll (faithful : Faithful d) (input : PollInput) :
    Faithful (d.call (.poll input)) := by
  have sized := faithful.sized.poll input
  unfold call
  by_cases waiting : d.observer.stallCursor < d.observer.stallQueue.length
  · -- the queue is left as it is
    obtain ⟨_, queue, _⟩ := poll_pending faithful.sized.wf waiting input
    dsimp only
    rw [polledStalls_pending faithful.sized.wf waiting input, List.append_nil]
    refine ⟨sized, ?_, faithful.returned, ?_, faithful.later, ?_⟩
    · rw [queue.stallQueue]
      exact faithful.bounded
    · rw [queue.stallQueue, queue.stallCursor]
      exact faithful.pending
    · rw [queue.stallDeferredFrom, queue.stallCursor]
      exact faithful.deferred
  · -- everything has been returned, and the queue is filled anew
    have requeued := poll_requeued faithful.sized waiting input
    have done := Nat.le_of_not_lt (mt faithful.pending_iff.mpr waiting)
    have all : d.returned = d.produced := faithful.returned.eq_of_length_le done
    dsimp only
    refine ⟨sized, ?_, ?_, ?_, ?_, Or.inl ⟨requeued.stallDeferredFrom, ?_⟩⟩
    · rw [requeued.stallQueue, List.length_map]
      exact requeued.bounded
    · rw [all]
      exact List.prefix_append _ _
    · rw [requeued.stallQueue, requeued.stallCursor, List.drop_zero, all, List.drop_left]
    · intro i above
      rw [List.length_append] at above
      exact faithful.later i (by omega)
    · intro i above
      exact faithful.later i (Nat.le_trans done above)

theorem Faithful.deferRemaining (faithful : Faithful d) :
    Faithful (d.call .deferRemainingStallsForRecovery) := by
  unfold call deferRemainingStallsForRecovery
  by_cases waiting : d.observer.stallCursor < d.observer.stallQueue.length
  · rw [if_pos waiting]
    refine ⟨faithful.sized, faithful.bounded, faithful.returned, faithful.pending, ?_, Or.inr ?_⟩
    · intro i above
      dsimp only at above ⊢
      rw [if_neg (by omega)]
      exact faithful.later i above
    · refine ⟨Nat.min_le_right _ _, fun i above below => ?_⟩
      dsimp only at above below ⊢
      rw [if_pos ⟨above, below⟩]
      exact Nat.succ_pos _
  · -- no stall is in the queue, so none is counted
    have done := mt faithful.pending_iff.mpr waiting
    have same : (fun i => if d.returned.length ≤ i ∧ i < d.produced.length then d.defers i + 1
        else d.defers i) = d.defers := by
      funext i
      exact if_neg (by omega)
    rw [if_neg waiting, same]
    exact faithful

/-- Step lemma. -/
theorem Faithful.call (d : Delivery) (c : Call) (faithful : Faithful d) : Faithful (d.call c) := by
  cases c with
  | poll input => exact faithful.poll input
  | pollPending => exact faithful.pollPending
  | pollPendingForRecovery =>
    rw [call_pollPendingForRecovery]
    exact faithful.pollPending
  | deferRemainingStallsForRecovery => exact faithful.deferRemaining

/-- The mark of the next stall. -/
theorem Faithful.marked (faithful : Faithful d) (left : d.returned.length < d.produced.length) :
    decide (d.observer.stallCursor ≥ d.observer.stallDeferredFrom) =
      decide (0 < d.defers d.returned.length) := by
  have waiting := faithful.pending_iff.mpr left
  have bounded := faithful.bounded
  refine decide_eq_decide.mpr ?_
  rcases faithful.deferred with ⟨unmarked, zero⟩ | ⟨marked, positive⟩
  · -- the queue is too short for the cursor to come to the index that marks nothing
    rw [unmarked, zero _ (Nat.le_refl _)]
    unfold usizeMax Machine.u64Bound
    unfold maxCapacity at bounded
    omega
  · exact iff_of_true marked (positive _ (Nat.le_refl _) left)

theorem Faithful.pollPendingForRecovery_eq (faithful : Faithful d) :
    d.observer.pollPendingForRecovery.1 = d.produced[d.returned.length]?.map fun stall =>
      (stall, decide (0 < d.defers d.returned.length)) := by
  rw [Observer.pollPendingForRecovery_eq, faithful.pollPending_eq]
  by_cases left : d.returned.length < d.produced.length
  · rw [faithful.marked left]
  · rw [List.getElem?_eq_none (Nat.le_of_not_lt left)]
    rfl

/-- Run lemma: as many calls as there are stalls left return them all. -/
theorem Faithful.drained (faithful : Faithful d) (n : Nat)
    (left : d.produced.length = d.returned.length + n) :
    (Steps.run Delivery.call d (List.replicate n .pollPending)).returned = d.produced := by
  induction n generalizing d with
  | zero => exact faithful.returned.eq_of_length left.symm
  | succ n ih =>
    have answer := faithful.pollPending_eq
    have inside : d.returned.length < d.produced.length := by omega
    rw [List.getElem?_eq_getElem inside] at answer
    have longer : (d.call .pollPending).returned.length = d.returned.length + 1 := by
      unfold Delivery.call
      dsimp only
      rw [answer, Option.toList_some, List.length_append, List.length_singleton]
    rw [List.replicate_succ, Steps.run_cons, ih faithful.pollPending]
    · rfl
    · change d.produced.length = _
      omega

end

theorem faithful_start {cfg : ObserverConfig} {o : Observer} (made : Observer.new cfg = some o) :
    Faithful (start o) := by
  have started := started_of_new made
  have sized : Sized o.tracker := by
    refine ⟨started.wf, ?_⟩
    obtain ⟨threshold, _, rfl⟩ := Option.map_eq_some_iff.mp made
    exact normalizeCapacity_le _
  have nothing := started.stallQueue
  refine ⟨sized, ?_, List.prefix_rfl, ?_, fun _ _ => rfl, Or.inl ⟨?_, fun _ _ => rfl⟩⟩
  · change o.stallQueue.length ≤ maxCapacity
    rw [nothing]
    exact Nat.zero_le _
  · change o.stallQueue.drop o.stallCursor = []
    rw [nothing, List.drop_nil]
  · obtain ⟨threshold, _, rfl⟩ := Option.map_eq_some_iff.mp made
    rfl

/-- In every order of calls, the stalls come out in the order in which the tracker has produced
them: the next one returned is the first one not returned yet, and it is marked if and only if a
defer call has found it in the queue. As many calls as there are stalls left return them all. -/
theorem stalls_delivered {cfg : ObserverConfig} {o : Observer} (made : Observer.new cfg = some o)
    (calls : List Call) :
    let d := Steps.run call (start o) calls
    d.returned <+: d.produced ∧
      d.observer.pollPending.1 = d.produced[d.returned.length]? ∧
      (d.observer.pollPendingForRecovery.1 = d.produced[d.returned.length]?.map fun stall =>
        (stall, decide (0 < d.defers d.returned.length))) ∧
      (Steps.run call d
        (List.replicate (d.produced.length - d.returned.length) .pollPending)).returned =
          d.produced := by
  intro d
  have faithful : Faithful d := Steps.run_invariant Faithful.call calls (faithful_start made)
  refine ⟨faithful.returned, faithful.pollPending_eq, faithful.pollPendingForRecovery_eq, ?_⟩
  have within := faithful.returned.length_le
  exact faithful.drained _ (by omega)

/-- Two processes fall silent. The first stall is taken before the call that defers the second. -/
def twoStalls : List Call :=
  [.poll (pollAt 1 (beatFrom 7 1) (some 1, some 5)), .poll (pollAt 2 (beatFrom 8 1) (some 1, some 6)),
    .poll (pollAt 20000000 .wouldBlock (none, none)), .pollPending,
    .deferRemainingStallsForRecovery, .poll (pollAt 30000000 .wouldBlock (none, none))]

/-- Where a delivery stands: the pids produced and returned, and the next answer. -/
def standing (d : Delivery) : List UInt32 × List UInt32 × Option (UInt32 × Bool) :=
  (d.produced.map (·.pid), d.returned.map (·.pid),
    d.observer.pollPendingForRecovery.1.map fun (stall, check) => (stall.pid, check))

set_option maxRecDepth 20000 in
theorem stalls_delivered_twoStalls :
    standing (Steps.run call (start socketObserver) twoStalls) = ([7, 8], [7], some (8, true)) ∧
      (Steps.run call (start socketObserver) twoStalls).returned <+:
        (Steps.run call (start socketObserver) twoStalls).produced :=
  ⟨by decide +kernel, (stalls_delivered (Option.some_get rfl).symm twoStalls).1⟩

end Delivery

end Observer

end Varta.Watch
