import Varta.Lib.Steps
import Varta.Watch.Observer
import Varta.Watch.TrackerInvariant

/-!
# What a poll can do

A round of `poll` hands at most one frame to the tracker; everything else it does is
accounting. Each invariant of the observer follows from this one description.
-/
namespace Varta.Watch

namespace Observer

/-! ### Accounting -/

/-- The fields that admission and event accounting leave alone. -/
structure Kept (o o' : Observer) : Prop where
  listeners : o'.listeners = o.listeners
  thresholdNs : o'.thresholdNs = o.thresholdNs
  stallQueue : o'.stallQueue = o.stallQueue
  stallCursor : o'.stallCursor = o.stallCursor
  stallDeferredFrom : o'.stallDeferredFrom = o.stallDeferredFrom
  lastNowNs : o'.lastNowNs = o.lastNowNs
  nextListenerStart : o'.nextListenerStart = o.nextListenerStart

theorem Kept.refl (o : Observer) : Kept o o := ⟨rfl, rfl, rfl, rfl, rfl, rfl, rfl⟩

variable {o o' o'' : Observer} {identity : Option Nat × Option Nat} {out : Option Event × Observer}
  {nowNs : Nat} {result : RecvResult} (round : Round)

theorem Kept.trans (first : Kept o o') (second : Kept o' o'') : Kept o o'' :=
  ⟨second.listeners.trans first.listeners, second.thresholdNs.trans first.thresholdNs,
    second.stallQueue.trans first.stallQueue, second.stallCursor.trans first.stallCursor,
    second.stallDeferredFrom.trans first.stallDeferredFrom,
    second.lastNowNs.trans first.lastNowNs,
    second.nextListenerStart.trans first.nextListenerStart⟩

/-- `Kept`, with the tracker. -/
structure Accounted (o o' : Observer) : Prop extends Kept o o' where
  tracker : o'.tracker = o.tracker

theorem Accounted.refl (o : Observer) : Accounted o o := ⟨Kept.refl o, rfl⟩

theorem Accounted.trans (first : Accounted o o') (second : Accounted o' o'') : Accounted o o'' :=
  ⟨first.toKept.trans second.toKept, second.tracker.trans first.tracker⟩

theorem accounted_tryAdmitGlobal (o : Observer) (nowNs : Nat) :
    Accounted o (o.tryAdmitGlobal nowNs).2 := by
  unfold tryAdmitGlobal
  split <;> exact ⟨⟨rfl, rfl, rfl, rfl, rfl, rfl, rfl⟩, rfl⟩

theorem accounted_admitUnless (o : Observer) (exempt : Bool) (nowNs : Nat) :
    Accounted o (o.admitUnless exempt nowNs).2 := by
  unfold admitUnless
  split
  · exact Accounted.refl o
  · exact accounted_tryAdmitGlobal o nowNs

theorem arrival_congr (same : Accounted o o') (nowNs : Nat) (peerPid : UInt32) (origin : BeatOrigin)
    (identity : Option Nat × Option Nat) (frame : Vlp.Frame) :
    o'.arrival nowNs peerPid origin identity frame =
      o.arrival nowNs peerPid origin identity frame := by
  unfold arrival
  rw [same.tracker, same.thresholdNs]

/-! ### One frame -/

/-- No beat is announced. -/
def Silent (event : Option Event) : Prop := ∀ beat, event ≠ some (.beat beat)

/-- What a round does with the answer of a listener. -/
inductive Handled (o : Observer) (nowNs : Nat) (identity : Option Nat × Option Nat)
    (result : RecvResult) (out : Option Event × Observer) : Prop
  /-- Nothing reaches the tracker. -/
  | dropped (silent : Silent out.1) (same : Accounted o out.2)
  /-- A frame reaches the tracker, and a beat is announced if the tracker accepts it. -/
  | recorded {peerPid : UInt32} {origin : BeatOrigin} {frame : Vlp.Frame} {b : Arrival}
    (answer : result = .authenticated peerPid origin (.ok frame))
    (arrived : b = o.arrival nowNs peerPid origin identity frame)
    (kept : Kept o out.2) (tracker : out.2.tracker = (o.tracker.recordWithGeneration b).2)
    (accepted : (o.tracker.recordWithGeneration b).1.accepted = true →
      out.1 = some (.beat (beatOf b)))
    (refused : (o.tracker.recordWithGeneration b).1.accepted = false → Silent out.1)

/-- A branch that pays a token and then returns at most a rejection. -/
theorem dropped_of_admit {event : Observer → Option Event} {after : Observer → Observer}
    (silent : ∀ o', Silent (event o')) (accounting : ∀ o', Accounted o' (after o')) :
    ∀ admission : Bool × Observer, Accounted o admission.2 →
      Handled o nowNs identity result (match admission with
        | (false, o) => (none, o)
        | (true, o) => (event o, after o)) := by
  rintro ⟨verdict, o'⟩ paid
  cases verdict with
  | false => exact .dropped (fun _ absurd => by cases absurd) paid
  | true => exact .dropped (silent o') (paid.trans (accounting o'))

section Recorded

variable {peerPid : UInt32} {origin : BeatOrigin} {frame : Vlp.Frame} {b : Arrival}

/-- The observer after the tracker has had the frame. -/
theorem kept_recorded (same : Accounted o o') :
    Kept o { o' with tracker := (o.tracker.recordWithGeneration b).2 } :=
  same.toKept.trans ⟨rfl, rfl, rfl, rfl, rfl, rfl, rfl⟩

section

variable (same : Accounted o o') (arrived : b = o.arrival nowNs peerPid origin identity frame)

include same arrived

theorem handled_announced (beat : out.1 = some (.beat (beatOf b)))
    (after : out.2 = { o' with tracker := (o.tracker.recordWithGeneration b).2 })
    (verdict : (o.tracker.recordWithGeneration b).1.accepted = true) :
    Handled o nowNs identity (.authenticated peerPid origin (.ok frame)) out := by
  refine .recorded rfl arrived (after ▸ kept_recorded same) (after ▸ rfl) (fun _ => beat) ?_
  intro refused
  rw [verdict] at refused
  cases refused

theorem handled_rejected (silent : Silent out.1)
    (accounted : Accounted { o' with tracker := (o.tracker.recordWithGeneration b).2 } out.2)
    (verdict : (o.tracker.recordWithGeneration b).1.accepted = false) :
    Handled o nowNs identity (.authenticated peerPid origin (.ok frame)) out := by
  refine .recorded rfl arrived ((kept_recorded same).trans accounted.toKept) accounted.tracker ?_
    fun _ => silent
  intro accepted
  rw [verdict] at accepted
  cases accepted

/-- A rejection that is announced only if a token is left for it. -/
theorem handled_charged {exempt : Bool} {paidAt : Nat} {event : Observer → Event}
    (notBeat : ∀ o beat, event o ≠ .beat beat)
    (verdict : (o.tracker.recordWithGeneration b).1.accepted = false) :
    Handled o nowNs identity (.authenticated peerPid origin (.ok frame))
      (match ({ o' with tracker := (o.tracker.recordWithGeneration b).2 } :
          Observer).admitUnless exempt paidAt with
        | (false, o) => (none, o)
        | (true, o) => (some (event o), o)) := by
  have paid := accounted_admitUnless
    { o' with tracker := (o.tracker.recordWithGeneration b).2 } exempt paidAt
  refine handled_rejected same arrived ?_ ?_ verdict
  · split
    · exact fun _ absurd => by cases absurd
    · exact fun beat same => notBeat _ beat (Option.some.inj same)
  · split
    next found => exact (congrArg Prod.snd found) ▸ paid
    next found => exact (congrArg Prod.snd found) ▸ paid

end

end Recorded

theorem classifyFrame_handled {peerPid : UInt32} {origin : BeatOrigin} {frame : Vlp.Frame}
    (same : Accounted o o') (globalAdmitted : Bool) :
    Handled o nowNs identity (.authenticated peerPid origin (.ok frame))
      (o'.classifyFrame (o'.arrival nowNs peerPid origin identity frame) globalAdmitted) := by
  have arrived := arrival_congr same nowNs peerPid origin identity frame
  generalize o'.arrival nowNs peerPid origin identity frame = b at arrived
  unfold classifyFrame
  dsimp only
  split
  · -- the namespace gate
    refine dropped_of_admit ?_ ?_ _ (same.trans (accounted_admitUnless o' globalAdmitted b.nowNs))
    · exact fun _ _ absurd => by cases absurd
    · exact fun _ => ⟨⟨rfl, rfl, rfl, rfl, rfl, rfl, rfl⟩, rfl⟩
  · -- the tracker has the frame: the branches differ in what they announce
    rw [same.tracker]
    split
    next verdict => exact handled_announced same arrived rfl rfl (by rw [verdict]; rfl)
    next verdict => exact handled_announced same arrived rfl rfl (by rw [verdict]; rfl)
    next verdict =>
      refine handled_charged same arrived ?_ (by rw [verdict]; rfl)
      exact fun _ _ absurd => by cases absurd
    next verdict =>
      refine handled_charged same arrived ?_ (by rw [verdict]; rfl)
      exact fun _ _ absurd => by cases absurd
    next verdict =>
      exact handled_rejected same arrived (fun _ absurd => by cases absurd) (Accounted.refl _)
        (by rw [verdict]; rfl)
    next verdict =>
      exact handled_rejected same arrived (fun _ absurd => by cases absurd) (Accounted.refl _)
        (by rw [verdict]; rfl)

theorem ingestFrame_handled (o : Observer) (nowNs : Nat) (peerPid : UInt32)
    (origin : BeatOrigin) (identity : Option Nat × Option Nat) (frame : Vlp.Frame) :
    Handled o nowNs identity (.authenticated peerPid origin (.ok frame))
      (o.ingestFrame nowNs peerPid origin identity frame) := by
  unfold ingestFrame
  dsimp only
  split
  · -- the kernel names another sender
    refine dropped_of_admit ?_ Accounted.refl _ (accounted_tryAdmitGlobal o nowNs)
    exact fun _ _ absurd => by cases absurd
  · split
    · -- the pid is above the limit
      refine dropped_of_admit ?_ ?_ _ (accounted_admitUnless o _ nowNs)
      · exact fun _ _ absurd => by cases absurd
      · exact fun _ => ⟨⟨rfl, rfl, rfl, rfl, rfl, rfl, rfl⟩, rfl⟩
    · split
      · -- the limiter of the pid
        exact .dropped (fun _ absurd => by cases absurd) ⟨⟨rfl, rfl, rfl, rfl, rfl, rfl, rfl⟩, rfl⟩
      · have paid := accounted_admitUnless o
          (o.terminalAfterRegular frame && decide (peerPid ≠ 0 ∧ frame.pid = peerPid)) nowNs
        split
        next o' denied =>
          rw [denied] at paid
          exact .dropped (fun _ absurd => by cases absurd) paid
        next o' granted =>
          rw [granted] at paid
          exact classifyFrame_handled paid _

/-- A branch that passes the turn on if it returns a rejection. -/
theorem dropped_with_turn {event : Event} (notBeat : ∀ beat, event ≠ .beat beat) (start : Nat) :
    ∀ admission : Bool × Observer, Accounted o admission.2 →
      let out : Option Event × Observer := match admission with
        | (false, o) => (none, o)
        | (true, o) => (some event, { o with nextListenerStart := start })
      ∃ turn, Handled { o with nextListenerStart := turn } nowNs identity result out ∧
        (out.1 ≠ none → turn = start) := by
  rintro ⟨verdict, o'⟩ paid
  cases verdict with
  | false =>
    exact ⟨o.nextListenerStart, .dropped (fun _ absurd => by cases absurd) paid, absurd rfl⟩
  | true =>
    refine ⟨start, .dropped (fun beat same => notBeat beat (Option.some.inj same)) ?_, fun _ => rfl⟩
    exact { paid with nextListenerStart := rfl }

/-- An answer is handled with the turn where it was or, if there is an event, with the next
listener. -/
theorem handle_handled (o : Observer) (i nowNs : Nat) (identity : Option Nat × Option Nat)
    (result : RecvResult) :
    let out := o.handle i nowNs identity result
    ∃ turn, Handled { o with nextListenerStart := turn } nowNs identity result out ∧
      (out.1 ≠ none → turn = (i + 1) % o.listeners.length) := by
  unfold handle
  dsimp only
  split
  next peerPid origin data =>
    -- the turn goes to the next listener before the frame is looked at
    refine ⟨(i + 1) % o.listeners.length, ?_, fun _ => rfl⟩
    split
    next frame => exact ingestFrame_handled _ nowNs peerPid origin identity frame
    next e =>
      refine dropped_of_admit ?_ Accounted.refl _ (accounted_tryAdmitGlobal _ nowNs)
      exact fun _ _ absurd => by cases absurd
  · exact ⟨_, .dropped (fun _ absurd => by cases absurd) (Accounted.refl o), absurd rfl⟩
  · exact ⟨_, .dropped (fun _ absurd => by cases absurd) (Accounted.refl o), absurd rfl⟩
  · refine dropped_with_turn ?_ _ _ (accounted_tryAdmitGlobal o nowNs)
    exact fun _ absurd => by cases absurd
  · refine dropped_with_turn ?_ _ _ (accounted_admitUnless o _ nowNs)
    exact fun _ absurd => by cases absurd

/-! ### One listener -/

/-- The observer after a reading of the clock. -/
structure Clocked (o : Observer) (raw : Nat) (result : Nat × Observer) : Prop where
  now : result.1 = max o.lastNowNs raw
  lastNowNs : result.2.lastNowNs = max o.lastNowNs raw
  tracker : result.2.tracker = o.tracker
  listeners : result.2.listeners = o.listeners
  thresholdNs : result.2.thresholdNs = o.thresholdNs
  stallQueue : result.2.stallQueue = o.stallQueue
  stallCursor : result.2.stallCursor = o.stallCursor
  stallDeferredFrom : result.2.stallDeferredFrom = o.stallDeferredFrom
  nextListenerStart : result.2.nextListenerStart = o.nextListenerStart
  globalRl : result.2.globalRl = o.globalRl

theorem applyRawClock_clocked (o : Observer) (raw : Nat) : Clocked o raw (o.applyRawClock raw) := by
  unfold applyRawClock
  dsimp only
  split
  · exact ⟨rfl, rfl, rfl, rfl, rfl, rfl, rfl, rfl, rfl, rfl⟩
  · split <;> exact ⟨rfl, rfl, rfl, rfl, rfl, rfl, rfl, rfl, rfl, rfl⟩

theorem maybeRefreshPidMax_clocked (o : Observer) (raw : Nat) (reading : UInt32) :
    Clocked o raw (max o.lastNowNs raw, o.maybeRefreshPidMax raw reading) := by
  have clock := applyRawClock_clocked o raw
  unfold maybeRefreshPidMax
  dsimp only
  split <;> exact { clock with now := rfl }

/-- The observer with the clock read and one listener's answer taken. -/
structure Received (o : Observer) (i raw : Nat) (listener : Listener) (o' : Observer) : Prop where
  listeners : o'.listeners = o.listeners.set i listener
  tracker : o'.tracker = o.tracker
  thresholdNs : o'.thresholdNs = o.thresholdNs
  stallQueue : o'.stallQueue = o.stallQueue
  stallCursor : o'.stallCursor = o.stallCursor
  stallDeferredFrom : o'.stallDeferredFrom = o.stallDeferredFrom
  lastNowNs : o'.lastNowNs = max o.lastNowNs raw

/-- The answer of listener `i`, and the listener after it. One that does not exist has nothing. -/
def Answered (o : Observer) (i : Nat) (round : Round) (result : RecvResult)
    (listener : Listener) : Prop :=
  match o.listeners[i]? with
  | none => result = .wouldBlock
  | some asked =>
    asked.recv round.instants (max o.lastNowNs round.rawClock) round.ingress = (result, listener)

/-- A round of `poll`: the clock, one listener, and what is made of its answer. An event passes
the turn on. -/
theorem pollListener_spec (o : Observer) (i : Nat) :
    ∃ o' result listener, Received o i round.rawClock listener o' ∧
      Handled o' (max o.lastNowNs round.rawClock) round.identity result
        ((o.pollListener i round).1.1, (o.pollListener i round).2) ∧
      o.Answered i round result listener ∧
      ((o.pollListener i round).1.1 ≠ none →
        o'.nextListenerStart = (i + 1) % o.listeners.length) := by
  have clock := applyRawClock_clocked o round.rawClock
  unfold pollListener Answered
  -- the clock matters only through its specification
  generalize o.applyRawClock round.rawClock = result at clock
  obtain ⟨nowNs, o₁⟩ := result
  obtain ⟨now, last, tracker, listeners, threshold, queue, cursor, deferred, _⟩ := clock
  dsimp only at now last tracker listeners threshold queue cursor deferred ⊢
  subst now
  rw [listeners]
  cases present : o.listeners[i]? with
  | none =>
    have beyond : o.listeners.set i .uds = o.listeners :=
      List.set_eq_of_length_le (List.getElem?_eq_none_iff.mp present)
    refine ⟨o₁, .wouldBlock, .uds, ?_, .dropped (fun _ absurd => by cases absurd) (.refl o₁), rfl,
      absurd rfl⟩
    exact ⟨listeners.trans beyond.symm, tracker, threshold, queue, cursor, deferred, last⟩
  | some listener =>
    dsimp only
    generalize listener.recv round.instants (max o.lastNowNs round.rawClock) round.ingress = answer
    obtain ⟨result, listener'⟩ := answer
    obtain ⟨turn, handled, next⟩ := handle_handled
      { o₁ with listeners := o.listeners.set i listener' } i _ round.identity result
    rw [List.length_set] at next
    refine ⟨{ o₁ with listeners := o.listeners.set i listener', nextListenerStart := turn }, result,
      listener', ?_, handled, rfl, next⟩
    exact ⟨rfl, tracker, threshold, queue, cursor, deferred, last⟩

theorem Handled.wf (handled : Handled o nowNs identity result out) (wf : o.tracker.Wf) :
    out.2.tracker.Wf := by
  cases handled with
  | dropped silent same => exact same.tracker ▸ wf
  | recorded answer arrived kept tracker accepted refused =>
    exact tracker ▸ (Tracker.recordWithGeneration_spec wf _).1

theorem Handled.kept (handled : Handled o nowNs identity result out) : Kept o out.2 := by
  cases handled with
  | dropped silent same => exact same.toKept
  | recorded answer arrived kept tracker accepted refused => exact kept

/-- What the listeners of a poll do to the map of slots: nothing, unless a beat is announced.
The beat may change its own slot, and evicts at most when its pid is new and the tracker full. -/
inductive Polled (t : Tracker) (event : Option Event) (t' : Tracker) : Prop
  | quiet (silent : Silent event) (same : Tracker.SameMap t t')
  | beat {beat : BeatEvent} (announced : event = some (.beat beat))
    (others : ∀ q, q ≠ beat.pid → t'.slotOf q = t.slotOf q ∨
      t.slotOf beat.pid = none ∧ t.capacity ≤ t.len)

theorem Polled.after {t t' t'' : Tracker} {event : Option Event} (same : Tracker.SameMap t t')
    (polled : Polled t' event t'') : Polled t event t'' := by
  cases polled with
  | quiet silent unchanged => exact .quiet silent (same.trans unchanged)
  | beat announced others =>
    simp only [same.slotOf, same.capacity, same.len] at others
    exact .beat announced others

theorem Handled.polled (handled : Handled o nowNs identity result out) (wf : o.tracker.Wf) :
    Polled o.tracker out.1 out.2.tracker := by
  cases handled with
  | dropped silent same => exact .quiet silent (same.tracker ▸ Tracker.SameMap.refl _)
  | @recorded _ _ frame b answer arrived kept tracker accepted refused =>
    have recorded := (Tracker.recordWithGeneration_spec wf b).2
    rw [tracker]
    cases recorded with
    -- a rejection may be announced, but not as a beat
    | refused rejected same => exact .quiet (refused rejected) same
    | updated known update verdict after =>
      have taken : (o.tracker.recordWithGeneration b).1.accepted = true := by
        rw [verdict, SlotUpdate.answer_accepted, update]
        rfl
      exact .beat (accepted taken) fun q other => Or.inl ((after q).trans (if_neg other))
    | inserted unknown verdict victim full after =>
      have taken : (o.tracker.recordWithGeneration b).1.accepted = true := by
        rw [verdict]
        rfl
      refine .beat (accepted taken) fun q (other : q ≠ b.frame.pid) => ?_
      rw [after q, if_neg other]
      cases victim with
      | none => exact Or.inl rfl
      -- an eviction means that the tracker was full
      | some evicted => exact Or.inr ⟨unknown, full (Option.some_ne_none evicted)⟩

theorem pollListener_polled (wf : o.tracker.Wf) (i : Nat) (round : Round) :
    (o.pollListener i round).2.tracker.Wf ∧
      Polled o.tracker (o.pollListener i round).1.1 (o.pollListener i round).2.tracker := by
  obtain ⟨o', _, _, received, handled, -⟩ := pollListener_spec round o i
  have wf' : o'.tracker.Wf := received.tracker ▸ wf
  refine ⟨handled.wf wf', ?_⟩
  rw [← received.tracker]
  exact handled.polled wf'

/-- Nothing of the stall queue has changed. -/
structure SameQueue (o o' : Observer) : Prop where
  stallQueue : o'.stallQueue = o.stallQueue
  stallCursor : o'.stallCursor = o.stallCursor
  stallDeferredFrom : o'.stallDeferredFrom = o.stallDeferredFrom

theorem SameQueue.trans (first : SameQueue o o') (second : SameQueue o' o'') : SameQueue o o'' :=
  ⟨second.stallQueue.trans first.stallQueue, second.stallCursor.trans first.stallCursor,
    second.stallDeferredFrom.trans first.stallDeferredFrom⟩

theorem Clocked.sameQueue {raw : Nat} {result : Nat × Observer} (clock : Clocked o raw result) :
    SameQueue o result.2 :=
  { clock with }

theorem pollListener_sameQueue (o : Observer) (i : Nat) (round : Round) :
    SameQueue o (o.pollListener i round).2 := by
  obtain ⟨o', _, _, received, handled, -⟩ := pollListener_spec round o i
  have taken : SameQueue o o' := { received with }
  have kept := handled.kept
  exact taken.trans { kept with }

/-- Run lemma: the loop over the listeners ends with the first announcement, so that at most
one beat reaches the map. -/
theorem pollListeners_polled (rounds : Nat → Round) (order : List Nat) (consumed : Bool)
    (wf : o.tracker.Wf) :
    (pollListeners rounds order consumed o).2.tracker.Wf ∧
      SameQueue o (pollListeners rounds order consumed o).2 ∧
      Polled o.tracker (pollListeners rounds order consumed o).1.1
        (pollListeners rounds order consumed o).2.tracker := by
  -- on the listeners left; the loop goes on only while nothing was announced
  induction order generalizing consumed o with
  | nil =>
    refine ⟨wf, ⟨rfl, rfl, rfl⟩, .quiet (fun _ absurd => ?_) (Tracker.SameMap.refl _)⟩
    cases absurd
  | cons i rest ih =>
    obtain ⟨wf', polled⟩ := pollListener_polled wf i (rounds i)
    have queue := pollListener_sameQueue o i (rounds i)
    unfold pollListeners
    split
    next event took o' found =>
      rw [found] at wf' polled queue
      exact ⟨wf', queue, polled⟩
    next took o' found =>
      rw [found] at wf' polled queue
      obtain ⟨wf'', queue', later⟩ := ih (consumed || took) wf'
      refine ⟨wf'', queue.trans queue', ?_⟩
      cases polled with
      | quiet silent same => exact later.after same
      -- a beat ends the loop
      | beat announced => cases announced

/-! ### Stalls -/

/-- The observer after a drain that found the queue empty. -/
structure Refilled (o : Observer) (raw : Nat) (generationRecycled : UInt32 → Nat → Bool)
    (o' : Observer) : Prop where
  drained : (o'.stallQueue, o'.tracker) = Prod.map (List.map some) id
    (o.tracker.drainStalledSlots (max o.lastNowNs raw) o.thresholdNs generationRecycled)
  listeners : o'.listeners = o.listeners
  thresholdNs : o'.thresholdNs = o.thresholdNs
  stallCursor : o'.stallCursor = 0
  lastNowNs : o'.lastNowNs = max o.lastNowNs raw

theorem drainStalls_pending (pending : o.stallCursor < o.stallQueue.length) (raw : Nat)
    (generationRecycled : UInt32 → Nat → Bool) : o.drainStalls raw generationRecycled = o := by
  rw [drainStalls, if_pos pending]

theorem drainStalls_refilled (empty : ¬ o.stallCursor < o.stallQueue.length) (raw : Nat)
    (generationRecycled : UInt32 → Nat → Bool) :
    Refilled o raw generationRecycled (o.drainStalls raw generationRecycled) := by
  have clock := applyRawClock_clocked o raw
  unfold drainStalls
  rw [if_neg empty]
  generalize o.applyRawClock raw = result at clock
  obtain ⟨nowNs, o₁⟩ := result
  obtain ⟨now, last, tracker, listeners, threshold, _⟩ := clock
  dsimp only at now last tracker listeners threshold ⊢
  subst now
  rw [tracker, threshold]
  exact ⟨rfl, listeners, rfl, rfl, last⟩

/-- A poll that finds stalls pending queues no others. -/
theorem poll_pending (wf : o.tracker.Wf) (pending : o.stallCursor < o.stallQueue.length)
    (input : PollInput) :
    (o.poll input).2.tracker.Wf ∧ SameQueue o (o.poll input).2 ∧
      Polled o.tracker (o.poll input).1 (o.poll input).2.tracker := by
  obtain ⟨wf', queue, polled⟩ := pollListeners_polled input.rounds o.pollOrder false wf
  unfold poll
  generalize pollListeners input.rounds o.pollOrder false o = result at wf' queue polled
  obtain ⟨⟨event, consumed⟩, o'⟩ := result
  dsimp only at wf' queue polled ⊢
  rw [← queue.stallQueue, ← queue.stallCursor] at pending
  -- stalls are pending, so the drain at the end does nothing
  rw [drainStalls_pending (o := { o' with lastPollConsumed := consumed }) pending]
  exact ⟨wf', { queue with }, polled⟩

/-- A poll that finds nothing pending queues the stalls it announces. -/
theorem poll_refills (wf : o.tracker.Wf) (empty : ¬ o.stallCursor < o.stallQueue.length)
    (input : PollInput) :
    (o.poll input).2.tracker.Wf ∧ ∃ stalls : List Tracker.StallEvent,
      (o.poll input).2.stallQueue = stalls.map some ∧
      ∀ stall ∈ stalls, Tracker.Latched ((o.poll input).2.tracker.slotOf stall.pid) := by
  obtain ⟨wf', queue, -⟩ := pollListeners_polled input.rounds o.pollOrder false wf
  unfold poll
  generalize pollListeners input.rounds o.pollOrder false o = result at wf' queue
  obtain ⟨⟨event, consumed⟩, o'⟩ := result
  dsimp only at wf' queue ⊢
  -- the listeners did not touch the queue, so the drain at the end fills it
  rw [← queue.stallQueue, ← queue.stallCursor] at empty
  have refilled := drainStalls_refilled (o := { o' with lastPollConsumed := consumed }) empty
    input.drainClock input.generationRecycled
  have spec := Tracker.drainStalledSlots_spec wf' (max o'.lastNowNs input.drainClock)
    o'.thresholdNs input.generationRecycled
  obtain ⟨stallQueue, tracker⟩ := Prod.mk.inj refilled.drained
  dsimp only [id] at tracker stallQueue ⊢
  rw [tracker]
  exact ⟨spec.wf, _, stallQueue, spec.announced⟩

/-- A drain, whether it finds the queue empty or not, as a step on the map of slots. -/
theorem drainStalls_spec (wf : o.tracker.Wf) (raw : Nat)
    (generationRecycled : UInt32 → Nat → Bool) :
    (o.drainStalls raw generationRecycled).tracker.Wf ∧
      (o.drainStalls raw generationRecycled).listeners = o.listeners ∧
      (o.drainStalls raw generationRecycled).thresholdNs = o.thresholdNs ∧
      o.lastNowNs ≤ (o.drainStalls raw generationRecycled).lastNowNs ∧
      ∀ pid, Tracker.Drains (o.tracker.slotOf pid)
        ((o.drainStalls raw generationRecycled).tracker.slotOf pid) := by
  by_cases pending : o.stallCursor < o.stallQueue.length
  · rw [drainStalls_pending pending]
    exact ⟨wf, rfl, rfl, Nat.le_refl _, fun _ => Or.inl rfl⟩
  · obtain ⟨drained, listeners, threshold, _, last⟩ :=
      drainStalls_refilled pending raw generationRecycled
    have spec := Tracker.drainStalledSlots_spec wf (max o.lastNowNs raw) o.thresholdNs
      generationRecycled
    have tracker := congrArg Prod.snd drained
    dsimp only [Prod.map_snd, id] at tracker
    rw [tracker, last]
    exact ⟨spec.wf, listeners, threshold, Nat.le_max_left .., spec.entries⟩

theorem drainStalls_apart (o : Observer) (raw : Nat) (generationRecycled : UInt32 → Nat → Bool) :
    let after := o.drainStalls raw generationRecycled
    after.nextListenerStart = o.nextListenerStart ∧ after.listeners = o.listeners ∧
      after.globalRl = o.globalRl := by
  have clock := applyRawClock_clocked o raw
  unfold drainStalls
  split
  · exact ⟨rfl, rfl, rfl⟩
  · exact ⟨clock.nextListenerStart, clock.listeners, clock.globalRl⟩

/-! ### Runs -/

/-- The steps the observer takes: the parts of `poll`, and what the main loop asks of it
between two polls. -/
inductive Step where
  | listen (i : Nat) (round : Round)
  | consumed (flag : Bool)
  | drain (rawClock : Nat) (generationRecycled : UInt32 → Nat → Bool)
  | readClock (rawClock : Nat)
  | refreshPidMax (rawClock : Nat) (reading : UInt32)

def applyStep (o : Observer) : Step → Observer
  | .listen i round => (o.pollListener i round).2
  | .consumed flag => { o with lastPollConsumed := flag }
  | .drain rawClock generationRecycled => o.drainStalls rawClock generationRecycled
  | .readClock rawClock => (o.applyRawClock rawClock).2
  | .refreshPidMax rawClock reading => o.maybeRefreshPidMax rawClock reading

/-- A poll as one step. -/
def pollStep (o : Observer) (input : PollInput) : Observer := (o.poll input).2

/-! ### The start -/

/-- A new observer tracks nothing and has nothing queued. -/
structure Started (cfg : ObserverConfig) (o : Observer) : Prop where
  listeners : o.listeners = cfg.listeners
  wf : o.tracker.Wf
  untracked : ∀ pid, o.tracker.slotOf pid = none
  stallQueue : o.stallQueue = []

theorem started_of_new {cfg : ObserverConfig} (made : Observer.new cfg = some o) :
    Started cfg o := by
  obtain ⟨threshold, _, rfl⟩ := Option.map_eq_some_iff.mp made
  have wf := Tracker.wf_new cfg.hash32 (normalizeCapacity cfg.trackerCapacity) cfg.evictionPolicy
    cfg.evictionScanWindow
  refine ⟨rfl, wf, fun pid => ?_, rfl⟩
  exact wf.indexed.lookup_eq_none_iff.mpr (BoundedIndex.get_new _ _ _)

/-! ### A small observer -/

/-- Four slots, a Unix socket, the least threshold and no limiter. -/
def socketConfig : ObserverConfig where
  hash32 := mix32
  threshold := minThreshold
  trackerCapacity := 4
  evictionPolicy := .strict
  evictionScanWindow := 4
  maxBeatRate := none
  globalBeatRate := 0
  globalBeatBurst := 0
  allowCrossNamespace := false
  pidMax := 4194304
  observerNsInode := some 1
  listeners := [.uds]

def socketObserver : Observer := (Observer.new socketConfig).get rfl

/-- A poll at `clock` in which every listener answers `ingress`. -/
def pollAt (clock : Nat) (ingress : Ingress) (identity : Option Nat × Option Nat) : PollInput where
  rounds _ := ⟨clock, ⟨clock, clock, clock⟩, ingress, identity⟩
  drainClock := clock
  generationRecycled _ _ := false

/-- The beat of a process on the Unix socket. -/
def beatFrom (pid : UInt32) (nonce : Nat) : Ingress :=
  .datagram ⟨pid, 0, 0, true, .ok ⟨.ok, pid, nonce, nonce, 0⟩⟩

end Observer

end Varta.Watch
