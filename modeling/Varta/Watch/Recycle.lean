import Varta.Watch.ObserverSteps
import Varta.Watch.SecureRecv

/-!
# Listener and tracker clocks

The secure listener and the tracker both let a recycled pid start anew after a silence, each
by its own clock: the listener's `last_seen_ns` moves with every frame it admits, the slot's
`last_ns` with every beat the tracker accepts. For a pid that only one secure listener feeds,
the slot's clock is never ahead of the listener's. It falls behind when an admitted frame is
dropped on the way to the tracker.
-/
namespace Varta.Watch

open Observer
open Vlp (Frame)

/-! ### One pid, one listener -/

/-- The datagram carries a frame of the pid. -/
def feeds (pid : UInt32) : Ingress → Bool
  | .datagram ⟨_, _, _, _, .ok frame⟩ => decide (frame.pid = pid)
  | _ => false

/-- Frames of the pid arrive at listener `k` only. -/
def fedOnlyBy (pid : UInt32) (k : Nat) : Step → Bool
  | .listen i round => decide (i = k) || !feeds pid round.ingress
  | _ => true

/-- The secure listener at `k`, if that is what it is. -/
def secureAt (o : Observer) (k : Nat) : Option SecureUdpListener :=
  match o.listeners[k]? with
  | some (.secure l) => some l
  | _ => none

def Event.isBeat : Event → Bool
  | .beat _ => true
  | _ => false

/-- Listener `k` hands a frame of the pid to the observer. -/
def handsOver (pid : UInt32) (k : Nat) (o : Observer) (round : Round) : Bool :=
  match o.listeners[k]? with
  | none => false
  | some listener =>
    match (listener.recv round.instants (max o.lastNowNs round.rawClock) round.ingress).1 with
    | .authenticated _ _ (.ok frame) => decide (frame.pid = pid)
    | _ => false

/-- Listener `k` admits a frame of the pid, and the observer or the tracker drops it. -/
def sheds (pid : UInt32) (k : Nat) (o : Observer) : Step → Bool
  | .listen i round =>
    decide (i = k) && handsOver pid k o round && !(o.pollListener i round).1.1.any Event.isBeat
  | _ => false

/-- A frame that any listener hands over is the one of the datagram. -/
theorem recv_frame {listener : Listener} {at_ : Instants} {nowNs : Nat} {ingress : Ingress}
    {peerPid : UInt32} {origin : BeatOrigin} {frame : Frame}
    (answer : (listener.recv at_ nowNs ingress).1 = .authenticated peerPid origin (.ok frame)) :
    ∃ d : Datagram, ingress = .datagram d ∧ d.data = .ok frame := by
  cases listener with
  | uds | udp =>
    cases ingress with
    -- plain sockets hand the datagram over as it is
    | datagram d => exact ⟨d, rfl, (RecvResult.authenticated.inj answer).2.2⟩
    | wouldBlock | shortRead | ctrlTruncated | ioError => cases answer
  | secure l =>
    unfold Listener.recv at answer
    rw [Prod.map_fst, id] at answer
    unfold SecureUdpListener.recv at answer
    cases ingress with
    | datagram d =>
      refine ⟨d, rfl, ?_⟩
      dsimp only at answer
      split at answer
      · cases answer
      · split at answer
        · cases answer
        next own data =>
          split at answer
          · obtain ⟨_, _, same⟩ := RecvResult.authenticated.inj answer
            exact data.trans same
          · cases answer
    | wouldBlock | shortRead | ctrlTruncated | ioError => cases answer

theorem not_feeds {pid : UInt32} {ingress : Ingress} {d : Datagram} {frame : Frame}
    (other : feeds pid ingress = false) (arrived : ingress = .datagram d)
    (data : d.data = .ok frame) : frame.pid ≠ pid := by
  obtain ⟨peerPid, iv, counter, opens, content⟩ := d
  subst arrived
  cases data
  simpa [feeds] using other

/-- What a frame of a secure listener is recorded as. -/
theorem arrival_network (o : Observer) (nowNs : Nat) (trust : TransportTrust)
    (identity : Option Nat × Option Nat) (frame : Frame) :
    o.arrival nowNs 0 trust.origin identity frame =
      ⟨frame, nowNs, o.thresholdNs, trust.origin, none, none⟩ := by
  cases trust <;> rfl

section Fed

variable (pid : UInt32) (k : Nat) (trust : TransportTrust)

/-- Listener `k` is secure, and every part is in order. -/
structure Fed (gap threshold : Nat) (o : Observer) (l : SecureUdpListener) : Prop where
  present : o.listeners[k]? = some (.secure l)
  store : l.StoreWf
  gap : l.sessionRestartGap = gap
  trust : l.recoveryTrust = trust
  threshold : o.thresholdNs = threshold
  tracker : o.tracker.Wf

/-- Nothing is heard of the pid: its slot may be announced as stalled or dropped, its sender
state swept. -/
structure Quiet (o o' : Observer) (l l' : SecureUdpListener) : Prop where
  now : o.lastNowNs ≤ o'.lastNowNs
  slot : Tracker.Drains (o.tracker.slotOf pid) (o'.tracker.slotOf pid) ∨
    o'.tracker.slotOf pid = none
  state : l'.stateOf pid = l.stateOf pid ∨ l'.stateOf pid = none

/-- The listener admits a frame of the pid. -/
structure Heard (threshold : Nat) (o o' : Observer) (l' : SecureUdpListener) (b : Arrival) :
    Prop where
  now : o.lastNowNs ≤ o'.lastNowNs
  own : b.frame.pid = pid
  arrived : b = ⟨b.frame, o'.lastNowNs, threshold, trust.origin, none, none⟩
  state : ∃ state, l'.stateOf pid = some state ∧ state.lastSeenNs = o'.lastNowNs

/-- The tracker has taken the beat. -/
def Taken (o o' : Observer) (b : Arrival) : Prop :=
  ∃ new, o'.tracker.slotOf pid = some new ∧ (new = Slot.fromFrame b ∨
    ∃ slot, o.tracker.slotOf pid = some slot ∧ Slot.Refreshed slot b new)

variable {pid k trust} {gap threshold : Nat} {o o' : Observer} {l l' : SecureUdpListener}

/-- A frame of another pid leaves the slot or evicts it. -/
theorem recorded_other {t t' : Tracker} {b : Arrival} {u : Update}
    (recorded : Tracker.Recorded t b (u, t')) (other : b.frame.pid ≠ pid) :
    t'.slotOf pid = t.slotOf pid ∨ t'.slotOf pid = none := by
  cases recorded with
  | refused rejected same => exact Or.inl (same.slotOf pid)
  -- only the slot of the frame's own pid changes
  | updated known update answer after =>
    left
    rw [after pid, if_neg other.symm]
  | inserted unknown answer victim full after =>
    rw [after pid, if_neg other.symm]
    split
    · exact Or.inr rfl
    · exact Or.inl rfl

/-- A frame of the pid itself is taken, or leaves the slot. -/
theorem recorded_own {b : Arrival} (wf : o.tracker.Wf)
    (tracker : o'.tracker = (o.tracker.recordWithGeneration b).2) (own : b.frame.pid = pid) :
    if (o.tracker.recordWithGeneration b).1.accepted = true then Taken pid o o' b
      else o'.tracker.slotOf pid = o.tracker.slotOf pid := by
  have recorded := (Tracker.recordWithGeneration_spec wf b).2
  subst own
  rw [tracker]
  cases recorded with
  | refused rejected same =>
    rw [rejected]
    exact same.slotOf _
  | updated known update answer after =>
    rw [answer, SlotUpdate.answer_accepted, update]
    refine ⟨_, tracker ▸ (after _).trans (if_pos rfl), ?_⟩
    -- made anew for a new process, or refreshed
    rcases Slot.record_cases update with ⟨_, rfl⟩ | refreshed
    · exact Or.inl rfl
    · exact Or.inr ⟨_, known, refreshed⟩
  | inserted unknown answer victim full after =>
    rw [answer]
    exact ⟨_, tracker ▸ (after _).trans (if_pos rfl), Or.inl rfl⟩

/-- A slot that was left alone is the one from before, up to the latch of its stall. -/
theorem Quiet.slot_before (quiet : Quiet pid o o' l l') {slot : Slot}
    (found : o'.tracker.slotOf pid = some slot) :
    ∃ before, o.tracker.slotOf pid = some before ∧ slot.origin = before.origin ∧
      slot.generation = before.generation ∧ slot.pidNsInode = before.pidNsInode ∧
      slot.lastNs = before.lastNs := by
  -- kept, retired, latched or evicted
  rcases quiet.slot with (same | ⟨before, known, _, gone | latched⟩) | gone
  · exact ⟨slot, same.symm.trans found, rfl, rfl, rfl, rfl⟩
  · cases gone.symm.trans found
  · cases latched.symm.trans found
    exact ⟨before, known, rfl, rfl, rfl, rfl⟩
  · cases gone.symm.trans found

theorem Quiet.state_before (quiet : Quiet pid o o' l l') {state : SenderState}
    (held : l'.stateOf pid = some state) : l.stateOf pid = some state := by
  rcases quiet.state with same | gone
  · exact same.symm.trans held
  · cases gone.symm.trans held

theorem quiet_of_same (now : o.lastNowNs ≤ o'.lastNowNs) (tracker : o'.tracker = o.tracker) :
    Quiet pid o o' l l :=
  ⟨now, Or.inl (Or.inl (tracker ▸ rfl)), Or.inl rfl⟩

theorem Fed.congr (fed : Fed k trust gap threshold o l) (listeners : o'.listeners = o.listeners)
    (unchanged : o'.thresholdNs = o.thresholdNs) (tracker : o'.tracker = o.tracker) :
    Fed k trust gap threshold o' l :=
  ⟨listeners ▸ fed.present, fed.store, fed.gap, fed.trust, unchanged.trans fed.threshold,
    tracker ▸ fed.tracker⟩

section Handled

variable {o₁ : Observer} {nowNs : Nat} {identity : Option Nat × Option Nat}
  {out : Option Event × Observer}

/-- A round that hands over no frame of the pid leaves its slot or evicts it. -/
theorem handled_other {result : RecvResult} (handled : Handled o₁ nowNs identity result out)
    (wf : o₁.tracker.Wf)
    (other : ∀ peerPid origin frame, result = .authenticated peerPid origin (.ok frame) →
      frame.pid ≠ pid) :
    out.2.tracker.slotOf pid = o₁.tracker.slotOf pid ∨ out.2.tracker.slotOf pid = none := by
  cases handled with
  | dropped _ same => exact Or.inl (by rw [same.tracker])
  | @recorded peerPid origin frame b answer arrived kept tracker accepted refused =>
    have recorded := (Tracker.recordWithGeneration_spec wf b).2
    rw [tracker]
    refine recorded_other recorded ?_
    rw [arrived]
    exact other peerPid origin frame answer

/-- A frame of the pid is taken by the tracker, or leaves its slot and is not announced. -/
theorem handled_own {frame : Frame}
    (handled : Handled o₁ nowNs identity (.authenticated 0 trust.origin (.ok frame)) out)
    (wf : o₁.tracker.Wf) (own : frame.pid = pid) :
    Taken pid o₁ out.2 ⟨frame, nowNs, o₁.thresholdNs, trust.origin, none, none⟩ ∨
      (out.2.tracker.slotOf pid = o₁.tracker.slotOf pid ∧ Silent out.1) := by
  cases handled with
  | dropped silent same => exact Or.inr ⟨by rw [same.tracker], silent⟩
  | @recorded peerPid origin frame' b answer arrived kept tracker accepted refused =>
    obtain ⟨rfl, rfl, same⟩ := RecvResult.authenticated.inj answer
    cases same
    rw [arrival_network] at arrived
    subst arrived
    have verdict := recorded_own wf tracker own
    split at verdict
    · exact Or.inl verdict
    next rejected => exact Or.inr ⟨verdict, refused ((Bool.not_eq_true _).mp rejected)⟩

end Handled

/-- A round of another listener. -/
theorem Fed.listen_other (fed : Fed k trust gap threshold o l) {i : Nat} (other : i ≠ k)
    {round : Round} (silent : feeds pid round.ingress = false) :
    Fed k trust gap threshold (o.pollListener i round).2 l ∧
      Quiet pid o (o.pollListener i round).2 l l := by
  obtain ⟨o₁, result, listener, received, handled, answered, -⟩ := pollListener_spec round o i
  have wf : o₁.tracker.Wf := received.tracker ▸ fed.tracker
  have kept := handled.kept
  have slot := handled_other handled wf fun peerPid origin frame answer => by
    -- this listener has no frame of the pid to hand over
    unfold Answered at answered
    split at answered
    · cases answered.symm.trans answer
    · obtain ⟨d, ingress, data⟩ := recv_frame ((congrArg Prod.fst answered).trans answer)
      exact not_feeds silent ingress data
  constructor
  · -- the listener of the pid is in another place
    refine ⟨?_, fed.store, fed.gap, fed.trust, ?_, handled.wf wf⟩
    · rw [kept.listeners, received.listeners, List.getElem?_set_ne other]
      exact fed.present
    · exact (kept.thresholdNs.trans received.thresholdNs).trans fed.threshold
  · refine ⟨?_, ?_, Or.inl rfl⟩
    · rw [kept.lastNowNs, received.lastNowNs]
      exact Nat.le_max_left ..
    · rw [received.tracker] at slot
      exact slot.imp_left Or.inl

/-- A frame that the listener hands over and no beat announces has been shed. -/
theorem sheds_of_silent {round : Round} {frame : Frame} (fed : Fed k trust gap threshold o l)
    (answer : (l.recv round.instants (max o.lastNowNs round.rawClock) round.ingress).1 =
      .authenticated 0 l.recoveryTrust.origin (.ok frame)) (own : frame.pid = pid)
    (silent : Silent (o.pollListener k round).1.1) :
    sheds pid k o (.listen k round) = true := by
  have hands : handsOver pid k o round = true := by
    simp only [handsOver, fed.present, Listener.recv, Prod.map_fst, id, answer, own, decide_true]
  have none : (o.pollListener k round).1.1.any Event.isBeat = false := by
    cases event : (o.pollListener k round).1.1 with
    | none => rfl
    | some event' =>
      cases event' with
      | beat beat => exact absurd event (silent beat)
      | _ => rfl
  simp only [sheds, hands, none, decide_true, Bool.not_false, Bool.and_self]

/-- A round of the pid's own listener. -/
theorem Fed.listen_own (fed : Fed k trust gap threshold o l) (round : Round) :
    ∃ l', Fed k trust gap threshold (o.pollListener k round).2 l' ∧
      (Quiet pid o (o.pollListener k round).2 l l' ∨
        ∃ b, Heard pid trust threshold o (o.pollListener k round).2 l' b ∧
          (Taken pid o (o.pollListener k round).2 b ∨
            ((o.pollListener k round).2.tracker.slotOf pid = o.tracker.slotOf pid ∧
              sheds pid k o (.listen k round) = true))) := by
  obtain ⟨o₁, result, listener, received, handled, answered, -⟩ := pollListener_spec round o k
  have receives := SecureUdpListener.recv_receives fed.store round.instants
    (max o.lastNowNs round.rawClock) round.ingress
  have shed := @sheds_of_silent pid k trust gap threshold o l round
  rw [Answered, fed.present] at answered
  dsimp only [Listener.recv] at answered
  -- from here on only what `recv` says about its result is used
  generalize l.recv round.instants (max o.lastNowNs round.rawClock) round.ingress = read
    at answered receives shed
  obtain ⟨result, l'⟩ := read
  cases answered
  have wf : o₁.tracker.Wf := received.tracker ▸ fed.tracker
  have kept := handled.kept
  have bound := (List.getElem?_eq_some_iff.mp fed.present).1
  have clock : (o.pollListener k round).2.lastNowNs = max o.lastNowNs round.rawClock :=
    kept.lastNowNs.trans received.lastNowNs
  have now : o.lastNowNs ≤ (o.pollListener k round).2.lastNowNs := clock ▸ Nat.le_max_left ..
  have fed' : l'.StoreWf → l'.sessionRestartGap = l.sessionRestartGap →
      l'.recoveryTrust = l.recoveryTrust →
      Fed k trust gap threshold (o.pollListener k round).2 l' := by
    intro store sameGap sameTrust
    refine ⟨?_, store, sameGap.trans fed.gap, sameTrust.trans fed.trust, ?_, handled.wf wf⟩
    · rw [kept.listeners, received.listeners, List.getElem?_set_self bound]
    · exact (kept.thresholdNs.trans received.thresholdNs).trans fed.threshold
  have elsewhere : (∀ peerPid origin frame, result = .authenticated peerPid origin (.ok frame) →
      frame.pid ≠ pid) → Tracker.Drains (o.tracker.slotOf pid)
        ((o.pollListener k round).2.tracker.slotOf pid) ∨
      (o.pollListener k round).2.tracker.slotOf pid = none := by
    intro other
    have slot := handled_other handled wf other
    rw [received.tracker] at slot
    exact slot.imp_left Or.inl
  refine ⟨l', ?_⟩
  cases receives with
  -- no frame: the sweep may have dropped the sender
  | withheld silent store =>
    refine ⟨fed' store.wf store.gap store.trust, Or.inl ⟨now, ?_, (store.states pid).imp_right And.left⟩⟩
    exact elsewhere fun peerPid origin frame answer => absurd answer (silent _ _ _)
  | @admitted d frame arrived data answer store =>
    dsimp only at answer handled shed
    subst answer
    refine ⟨fed' store.wf store.gap store.trust, ?_⟩
    by_cases own : frame.pid = pid
    · -- the tracker takes the frame, or it has been dropped on the way
      right
      rw [fed.trust] at handled
      have fate := handled_own handled wf own
      rw [received.thresholdNs, fed.threshold, ← clock] at fate
      refine ⟨⟨frame, (o.pollListener k round).2.lastNowNs, threshold, trust.origin, none, none⟩,
        ⟨now, own, rfl, ?_⟩, ?_⟩
      · rw [clock, ← own]
        exact store.own.imp fun _ held => ⟨held.1, held.2.1⟩
      · rw [Taken, received.tracker] at fate
        exact fate.imp_right fun ⟨same, silent⟩ => ⟨same, shed fed rfl own silent⟩
    · left
      refine ⟨now, ?_, (store.others pid (Ne.symm own)).imp_right And.left⟩
      refine elsewhere fun peerPid origin frame' answer => ?_
      obtain ⟨_, _, same⟩ := RecvResult.authenticated.inj answer
      cases same
      exact own

/-- Step lemma: what any step does to the pid's slot and sender state. -/
theorem Fed.step (fed : Fed k trust gap threshold o l) (step : Step)
    (only : fedOnlyBy pid k step = true) :
    ∃ l', Fed k trust gap threshold (applyStep o step) l' ∧
      (Quiet pid o (applyStep o step) l l' ∨
        ∃ b, Heard pid trust threshold o (applyStep o step) l' b ∧
          (Taken pid o (applyStep o step) b ∨
            ((applyStep o step).tracker.slotOf pid = o.tracker.slotOf pid ∧
              sheds pid k o step = true))) := by
  cases step with
  | listen i round =>
    by_cases own : i = k
    · subst own
      exact fed.listen_own round
    · have silent : feeds pid round.ingress = false := by
        simpa [fedOnlyBy, own] using only
      obtain ⟨fed', quiet⟩ := fed.listen_other own silent
      exact ⟨l, fed', Or.inl quiet⟩
  | consumed flag =>
    exact ⟨l, fed.congr rfl rfl rfl, Or.inl (quiet_of_same (Nat.le_refl _) rfl)⟩
  -- a drain latches the slot or retires it; the listeners do not take part
  | drain rawClock generationRecycled =>
    obtain ⟨wf, listeners, limit, now, entries⟩ :=
      drainStalls_spec fed.tracker rawClock generationRecycled
    refine ⟨l, ⟨?_, fed.store, fed.gap, fed.trust, limit.trans fed.threshold, wf⟩,
      Or.inl ⟨now, Or.inl (entries pid), Or.inl rfl⟩⟩
    exact (congrArg (·[k]?) listeners).trans fed.present
  | readClock rawClock =>
    have clock := applyRawClock_clocked o rawClock
    refine ⟨l, fed.congr clock.listeners clock.thresholdNs clock.tracker, Or.inl ?_⟩
    exact quiet_of_same (clock.lastNowNs ▸ Nat.le_max_left ..) clock.tracker
  | refreshPidMax rawClock reading =>
    have clock := maybeRefreshPidMax_clocked o rawClock reading
    exact ⟨l, fed.congr clock.listeners clock.thresholdNs clock.tracker,
      Or.inl (quiet_of_same (clock.lastNowNs ▸ Nat.le_max_left ..) clock.tracker)⟩

theorem fed_new (pid : UInt32) {cfg : ObserverConfig} {hash32 : UInt32 → UInt32} {bound : Nat}
    (listens : cfg.listeners[k]? = some (.secure (.new hash32 trust gap bound)))
    (started : Observer.new cfg = some o) :
    Fed k trust gap o.thresholdNs o (.new hash32 trust gap bound) ∧
      ∀ slot, o.tracker.slotOf pid ≠ some slot := by
  obtain ⟨listeners, wf, untracked, _⟩ := started_of_new started
  rw [← listeners] at listens
  have store := SecureUdpListener.storeWf_new hash32 trust gap bound
  refine ⟨⟨listens, store, rfl, rfl, rfl, wf⟩, fun slot found => ?_⟩
  cases (untracked pid).symm.trans found

end Fed

/-! ### A session restart reaches the tracker -/

/-- The listener as `recv` finds it when the datagram is looked at. -/
def SecureUdpListener.swept (l : SecureUdpListener) (at_ : Instants) : SecureUdpListener :=
  { l with lastRecvConsumed := false }.periodicSweep at_

/-- The frame that listener `k` accepts by its session-restart branch in this round. -/
def restartAt (o : Observer) (k : Nat) (round : Round) : Option Frame :=
  match secureAt o k, round.ingress with
  | some l, .datagram ⟨_, iv, counter, true, .ok frame⟩ =>
    let l := l.swept round.instants
    let nowNs := max o.lastNowNs round.rawClock
    if (l.stateOf frame.pid).any (·.restarts l.sessionRestartGap nowNs ⟨iv, counter, frame⟩) then
      some frame
    else none
  | _, _ => none

/-- The slot is the listener's, and its clock is not ahead of the listener's. -/
structure Behind (trust : TransportTrust) (nowNs : Nat) (slot : Slot)
    (state : Option SenderState) : Prop where
  origin : slot.origin = trust.origin
  generation : slot.generation = none
  pidNsInode : slot.pidNsInode = none
  now : slot.lastNs ≤ nowNs
  listener : ∀ st, state = some st → slot.lastNs ≤ st.lastSeenNs

/-- On such a slot a regular frame after the silence is accepted, as a recycle or as the next
beat. -/
theorem Behind.record_accepted {trust : TransportTrust} {nowNs : Nat} {slot : Slot}
    {state : Option SenderState} (behind : Behind trust nowNs slot state) {frame : Frame}
    {now threshold : Nat} (regular : frame.isTerminal = false)
    (silent : threshold ≤ now - slot.lastNs) :
    (slot.record ⟨frame, now, threshold, trust.origin, none, none⟩).answer.accepted = true := by
  -- without start times there is nothing to compare
  have continues : slot.generationMismatch none = false := by
    unfold Slot.generationMismatch
    split
    next absurd => cases absurd
    next => rfl
  have unpinned : slot.namespaceUpgrade ⟨frame, now, threshold, trust.origin, none, none⟩ =
      some false := by
    rw [Slot.namespaceUpgrade, behind.pidNsInode]
  unfold Slot.record
  dsimp only
  rw [continues, if_neg Bool.false_ne_true]
  split
  · rfl
  next steady =>
    rw [if_neg (not_not.mpr behind.origin), unpinned]
    dsimp only
    rw [regular, if_neg Bool.false_ne_true]
    -- the recycle gate failed, so the nonce advances
    have advances : ¬ (slot.hasRegularNonce = true ∧ frame.nonce ≤ slot.lastNonce) := by
      rintro ⟨hasNonce, stale⟩
      refine steady ?_
      simp only [Slot.networkRecycles, Option.isNone_none, behind.generation, behind.origin,
        trust.origin_isNetwork, regular, hasNonce, stale, silent, decide_true, Bool.not_false,
        Bool.and_self]
    rw [Slot.refreshRegular, if_neg advances]
    rfl

/-- The pid's slot trails the listener. -/
def Trails (pid : UInt32) (k : Nat) (trust : TransportTrust) (gap threshold : Nat)
    (o : Observer) : Prop :=
  ∃ l, Fed k trust gap threshold o l ∧
    ∀ slot, o.tracker.slotOf pid = some slot → Behind trust o.lastNowNs slot (l.stateOf pid)

/-- What leaves the pid alone leaves its slot behind, up to the latch of its stall. -/
theorem Behind.quiet {trust : TransportTrust} {pid : UInt32} {o o' : Observer}
    {l l' : SecureUdpListener} {slot : Slot} (quiet : Quiet pid o o' l l')
    (behind : ∀ slot, o.tracker.slotOf pid = some slot →
      Behind trust o.lastNowNs slot (l.stateOf pid))
    (found : o'.tracker.slotOf pid = some slot) :
    Behind trust o'.lastNowNs slot (l'.stateOf pid) := by
  obtain ⟨before, known, origin, generation, namespaces, last⟩ := quiet.slot_before found
  have old := behind before known
  exact ⟨origin.trans old.origin, generation.trans old.generation,
    namespaces.trans old.pidNsInode, last ▸ old.now.trans quiet.now,
    fun st held => last ▸ old.listener st (quiet.state_before held)⟩

/-- A beat taken off the listener keeps its slot behind: it has the listener's origin, no
namespace and no start time. -/
theorem Behind.taken {trust : TransportTrust} {frame : Frame} {now nowNs threshold : Nat}
    {before new : Slot} {state : Option SenderState} (behind : Behind trust now before state)
    (refreshed : Slot.Refreshed before ⟨frame, nowNs, threshold, trust.origin, none, none⟩ new) :
    new.origin = trust.origin ∧ new.generation = none ∧ new.pidNsInode = none := by
  refine ⟨refreshed.sameOrigin.trans behind.origin, ?_, ?_⟩
  · rcases refreshed.generation with same | ⟨_, same⟩
    · exact same.trans behind.generation
    · exact same
  · rcases refreshed.pidNsInode with same | ⟨_, same⟩
    · exact same.trans behind.pidNsInode
    · exact same

/-- Step lemma. -/
theorem Trails.step {trust : TransportTrust} {pid : UInt32} {k gap threshold : Nat}
    (o : Observer) (step : Step) (trails : Trails pid k trust gap threshold o)
    (only : fedOnlyBy pid k step = true) :
    Trails pid k trust gap threshold (applyStep o step) := by
  obtain ⟨l, fed, behind⟩ := trails
  obtain ⟨l', fed', quiet | ⟨b, heard, fate⟩⟩ := fed.step step only
  · exact ⟨l', fed', fun slot found => Behind.quiet quiet behind found⟩
  · refine ⟨l', fed', fun slot found => ?_⟩
    obtain ⟨own, ownState, seen⟩ := heard.state
    -- the listener has just read the clock for this pid
    have listener : slot.lastNs ≤ (applyStep o step).lastNowNs →
        ∀ st, l'.stateOf pid = some st → slot.lastNs ≤ st.lastSeenNs := by
      intro bound st held
      rw [ownState] at held
      cases held
      exact seen.symm ▸ bound
    rcases fate with ⟨new, written, how⟩ | ⟨same, _⟩
    · rw [written] at found
      cases found
      have arrived := heard.arrived
      generalize b.frame = frame at arrived
      subst arrived
      rcases how with rfl | ⟨before, known, refreshed⟩
      · exact ⟨rfl, rfl, rfl, Nat.le_refl _, listener (Nat.le_refl _)⟩
      · have last := refreshed.lastNs
        obtain ⟨origin, generation, namespaces⟩ := (behind before known).taken refreshed
        exact ⟨origin, generation, namespaces, last.le, listener last.le⟩
    · -- the frame was shed: only the listener's clock moved
      rw [same] at found
      have old := behind slot found
      have bound := old.now.trans heard.now
      exact ⟨old.origin, old.generation, old.pidNsInode, bound, listener bound⟩

theorem secureAt_fed {k gap threshold : Nat} {trust : TransportTrust} {o : Observer}
    {l : SecureUdpListener} (fed : Fed k trust gap threshold o l) : secureAt o k = some l := by
  rw [secureAt, fed.present]

/-- The sweep at the head of `recv` drops senders at most. -/
theorem swept_shrunk {l : SecureUdpListener} (wf : l.StoreWf) (at_ : Instants) :
    SecureUdpListener.Shrunk (SecureUdpListener.Expired at_) l (l.swept at_) := by
  have flagged : SecureUdpListener.Shrunk (SecureUdpListener.Expired at_) l
      { l with lastRecvConsumed := false } :=
    SecureUdpListener.Shrunk.congr wf rfl rfl rfl rfl rfl
  exact flagged.trans (SecureUdpListener.periodicSweep_shrunk flagged.wf at_)

/-- What the restart branch has checked. -/
theorem restartAt_eq_some {o : Observer} {k : Nat} {round : Round} {frame : Frame}
    {l : SecureUdpListener} (secure : secureAt o k = some l)
    (restart : restartAt o k round = some frame) :
    ∃ state, (l.swept round.instants).stateOf frame.pid = some state ∧
      frame.isTerminal = false ∧ (l.swept round.instants).sessionRestartGap ≤
        max o.lastNowNs round.rawClock - state.lastSeenNs := by
  unfold restartAt at restart
  rw [secure] at restart
  split at restart
  next iv counter frame' taken _ =>
    cases taken
    dsimp only at restart
    split at restart
    next restarts =>
      cases restart
      cases held : (l.swept round.instants).stateOf frame.pid with
      | none =>
        rw [held] at restarts
        cases restarts
      | some state =>
        simp only [held, Option.any_some, SenderState.restarts, Bool.and_eq_true,
          decide_eq_true_eq] at restarts
        exact ⟨state, rfl, by simpa [Vlp.Frame.isTerminal] using restarts.2.1, restarts.2.2⟩
    · cases restart
  · cases restart

/-- A frame accepted by a session restart is never out of order for the tracker, if the gap
is at least the threshold and the pid is fed by this listener only. -/
theorem session_restart_accepted {cfg : ObserverConfig} {hash32 : UInt32 → UInt32}
    {trust : TransportTrust} {gap bound k : Nat} {pid : UInt32}
    (listens : cfg.listeners[k]? = some (.secure (.new hash32 trust gap bound)))
    {start : Observer} (started : Observer.new cfg = some start) (wide : start.thresholdNs ≤ gap)
    (steps : List Step) (only : ∀ step ∈ steps, fedOnlyBy pid k step = true)
    {o : Observer} (reached : o = Steps.run applyStep start steps) {round : Round} {frame : Frame}
    (restart : restartAt o k round = some frame) (own : frame.pid = pid)
    (tracked : o.tracker.isTracked pid = true) {b : Arrival}
    (forwarded : b = o.arrival (max o.lastNowNs round.rawClock) 0 trust.origin round.identity
      frame) :
    (o.tracker.recordWithGeneration b).1 = .inserted ∨
      (o.tracker.recordWithGeneration b).1 = .refreshed := by
  obtain ⟨fed, empty⟩ := fed_new pid listens started
  obtain ⟨l, fed, behind⟩ : Trails pid k trust gap start.thresholdNs o :=
    reached ▸ (Steps.guarded_of_forall start only).invariant Trails.step
      ⟨_, fed, fun slot found => absurd found (empty slot)⟩
  rw [fed.tracker.isTracked, Option.isSome_iff_exists] at tracked
  obtain ⟨slot, known⟩ := tracked
  have old := behind slot known
  obtain ⟨state, swept, regular, gone⟩ := restartAt_eq_some (secureAt_fed fed) restart
  have shrunk := swept_shrunk fed.store round.instants
  have held : l.stateOf pid = some state := own ▸ shrunk.stateOf swept
  -- the listener has been silent for the gap, and the slot is not ahead of it
  have silent : start.thresholdNs ≤ max o.lastNowNs round.rawClock - slot.lastNs := by
    rw [shrunk.gap, fed.gap] at gone
    have clocks := old.listener state held
    omega
  rw [arrival_network, fed.threshold] at forwarded
  have answer := Tracker.recordWithGeneration_known (b := b) fed.tracker
    (by rw [forwarded]; exact own ▸ known)
  have accepted := old.record_accepted regular silent
  rw [← forwarded, ← answer] at accepted
  exact Update.accepted_iff.mp accepted

/-- Secure UDP from an operator-attested network, with a gap of the least threshold; `rate`
bounds the beats of one pid per second. -/
def secureConfig (threshold : Nat) (rate : Option Nat) : ObserverConfig where
  hash32 := mix32
  threshold := threshold
  trackerCapacity := 4
  evictionPolicy := .strict
  evictionScanWindow := 4
  maxBeatRate := rate
  globalBeatRate := 0
  globalBeatBurst := 0
  allowCrossNamespace := false
  pidMax := 4194304
  observerNsInode := some 1
  listeners := [.secure (.new mix32 .operator threshold 0)]

def secureObserver : Observer := (Observer.new (secureConfig minThreshold none)).get rfl

/-- A beat of process 42 on the given prefix, received at `clock`. -/
def sealedBeat (clock : Nat) (iv : UInt64) (counter nonce : Nat) : Round :=
  ⟨clock, ⟨clock, clock, clock⟩,
    .datagram ⟨0, iv, counter, true, .ok ⟨.ok, 42, nonce, nonce, 0⟩⟩, (none, none)⟩

/-- A process with five beats dies; a threshold later its pid beats on a new prefix. -/
theorem session_restart_accepted_newProcess :
    ((Steps.run applyStep secureObserver
        [.listen 0 (sealedBeat 1 7 1 5)]).tracker.recordWithGeneration
      ⟨⟨.ok, 42, 1, 1, 0⟩, minThreshold + 1, minThreshold, .operatorAttestedTransport, none,
        none⟩).1 = .inserted ∨
    ((Steps.run applyStep secureObserver
        [.listen 0 (sealedBeat 1 7 1 5)]).tracker.recordWithGeneration
      ⟨⟨.ok, 42, 1, 1, 0⟩, minThreshold + 1, minThreshold, .operatorAttestedTransport, none,
        none⟩).1 = .refreshed :=
  @session_restart_accepted (secureConfig minThreshold none) mix32 .operator minThreshold 0 0 42
    rfl secureObserver (Option.some_get _).symm (by decide) [.listen 0 (sealedBeat 1 7 1 5)]
    (by decide) _ rfl (sealedBeat (minThreshold + 1) 9 1 1) ⟨.ok, 42, 1, 1, 0⟩
    (by decide +kernel) rfl (by decide +kernel) _ (by decide +kernel)

/-! ### A recycled process reaches the listener -/

/-- Listener `k` refuses the datagram as a replay: the sender is known and the frame is not
recorded. -/
def refusesReplayAt (o : Observer) (k : Nat) (round : Round) : Bool :=
  match secureAt o k, round.ingress with
  | some l, .datagram ⟨_, iv, counter, true, .ok frame⟩ =>
    let l := l.swept round.instants
    let nowNs := max o.lastNowNs round.rawClock
    (l.index.get frame.pid).isSome &&
      !(l.tryRecordReplayStateAt round.instants.now nowNs ⟨iv, counter, frame⟩).1
  | _, _ => false

/-- Listener `k` knows the prefix. -/
def knowsPrefixAt (o : Observer) (k : Nat) (pid : UInt32) (iv : UInt64) : Bool :=
  ((secureAt o k).bind (·.stateOf pid)).any (·.knows iv)

/-- A frame of a tracked pid is admitted and then dropped: the listener has heard of the pid,
the slot has not. -/
def shedsTracked (pid : UInt32) (k : Nat) (o : Observer) (step : Step) : Bool :=
  o.tracker.isTracked pid && sheds pid k o step

/-- The listener's clock is not ahead of the slot's. -/
def Lockstep (pid : UInt32) (k : Nat) (trust : TransportTrust) (gap threshold : Nat)
    (o : Observer) : Prop :=
  ∃ l, Fed k trust gap threshold o l ∧
    ∀ slot state, o.tracker.slotOf pid = some slot → l.stateOf pid = some state →
      state.lastSeenNs ≤ slot.lastNs

/-- Step lemma: a step that drops no admitted frame keeps the clocks together. -/
theorem Lockstep.step {trust : TransportTrust} {pid : UInt32} {k gap threshold : Nat}
    (o : Observer) (step : Step) (lockstep : Lockstep pid k trust gap threshold o)
    (allowed : fedOnlyBy pid k step = true ∧ shedsTracked pid k o step = false) :
    Lockstep pid k trust gap threshold (applyStep o step) := by
  obtain ⟨l, fed, clocks⟩ := lockstep
  obtain ⟨l', fed', quiet | ⟨b, heard, fate⟩⟩ := fed.step step allowed.1
  · refine ⟨l', fed', fun slot state found held => ?_⟩
    obtain ⟨before, known, _, _, _, last⟩ := quiet.slot_before found
    exact last ▸ clocks before state known (quiet.state_before held)
  · refine ⟨l', fed', fun slot state found held => ?_⟩
    obtain ⟨own, ownState, seen⟩ := heard.state
    rw [ownState] at held
    cases held
    -- both clocks read the same time, unless the frame was shed
    rcases fate with ⟨new, written, how⟩ | ⟨same, shed⟩
    · rw [written] at found
      cases found
      have arrived : b.nowNs = (applyStep o step).lastNowNs := congrArg Arrival.nowNs heard.arrived
      rcases how with rfl | ⟨before, known, refreshed⟩
      · exact (seen.trans arrived.symm).le
      · exact (seen.trans (arrived.symm.trans refreshed.lastNs.symm)).le
    · -- the slot would have to be there before the step, and then nothing is dropped
      have tracked : o.tracker.isTracked pid = true := by
        rw [fed.tracker.isTracked, ← same, found]
        rfl
      have kept := allowed.2
      rw [shedsTracked, tracked, shed] at kept
      cases kept

/-- An unknown prefix is accepted after the gap, by its clock or as a new session. -/
theorem SenderState.record_of_silence {state : SenderState} {gap now nowNs : Nat} {d : Sealed}
    (unknown : state.knows d.ivRandom = false) (regular : d.frame.isTerminal = false)
    (silent : gap ≤ nowNs - state.lastSeenNs) : (state.record gap now nowNs d).isSome = true := by
  simp only [knows, decide_eq_false_iff_not, not_or] at unknown
  have continues : ¬ (d.frame.nonce = Vlp.nonceTerminal ∨ nowNs - state.lastSeenNs < gap) := by
    simp only [Vlp.Frame.isTerminal, decide_eq_false_iff_not] at regular
    omega
  unfold record
  rw [if_neg unknown.1, if_neg unknown.2]
  -- past the marks it is a rotation, behind them a restart
  cases state.acceptsAgedOutPrefix d.frame.nonce d.frame.timestamp with
  | true => rfl
  | false =>
    simp only [Bool.false_eq_true, if_false, if_neg continues]
    rfl

/-- The gap is the threshold, one secure listener feeds the pid, and while the pid is tracked
the tracker takes each of its frames that the listener admits. Then a regular frame on an
unknown prefix is not refused as a replay once the slot has been silent for the threshold. -/
theorem recycled_frame_not_refused {cfg : ObserverConfig} {hash32 : UInt32 → UInt32}
    {trust : TransportTrust} {gap bound k : Nat} {pid : UInt32}
    (listens : cfg.listeners[k]? = some (.secure (.new hash32 trust gap bound)))
    {start : Observer} (started : Observer.new cfg = some start) (equal : start.thresholdNs = gap)
    (steps : List Step)
    (guarded : Steps.Guarded applyStep
      (fun o step => fedOnlyBy pid k step = true ∧ shedsTracked pid k o step = false) start steps)
    {o : Observer} (reached : o = Steps.run applyStep start steps) {round : Round}
    {peerPid : UInt32} {iv : UInt64} {counter lastNs : Nat} {frame : Frame}
    (arrived : round.ingress = .datagram ⟨peerPid, iv, counter, true, .ok frame⟩)
    (own : frame.pid = pid) (regular : frame.isTerminal = false)
    (unknown : knowsPrefixAt o k pid iv = false) (tracked : o.tracker.lastNsOf pid = some lastNs)
    (silent : o.thresholdNs ≤ max o.lastNowNs round.rawClock - lastNs) :
    refusesReplayAt o k round = false := by
  obtain ⟨fed, empty⟩ := fed_new pid listens started
  obtain ⟨l, fed, clocks⟩ : Lockstep pid k trust gap start.thresholdNs o :=
    reached ▸ guarded.invariant Lockstep.step
      ⟨_, fed, fun slot _ found => absurd found (empty slot)⟩
  obtain ⟨slot, known, rfl⟩ := Option.map_eq_some_iff.mp tracked
  have secure := secureAt_fed fed
  have shrunk := swept_shrunk fed.store round.instants
  unfold refusesReplayAt
  rw [secure, arrived]
  dsimp only
  rw [Bool.and_eq_false_iff]
  cases held : (l.swept round.instants).stateOf frame.pid with
  -- the sweep at the head of `recv` has forgotten the sender: first contact
  | none =>
    left
    rw [shrunk.wf.get_eq_none_iff.mpr held]
    rfl
  | some state =>
    right
    have before : l.stateOf pid = some state := own ▸ shrunk.stateOf held
    have fresh : state.knows iv = false := by
      simpa [knowsPrefixAt, secure, before] using unknown
    -- the listener has been silent at least as long as the slot
    have gone : (l.swept round.instants).sessionRestartGap ≤
        max o.lastNowNs round.rawClock - state.lastSeenNs := by
      have clock := clocks slot state known before
      rw [shrunk.gap, fed.gap, ← equal, ← fed.threshold]
      omega
    have accepted := (SecureUdpListener.tryRecordReplayStateAt_known round.instants.now
      (max o.lastNowNs round.rawClock) ⟨iv, counter, frame⟩ shrunk.wf held).2.1
    rw [accepted, SenderState.record_of_silence fresh regular gone]
    rfl

/-- The same two processes as above. -/
theorem recycled_frame_not_refused_newProcess :
    refusesReplayAt (Steps.run applyStep secureObserver [.listen 0 (sealedBeat 1 7 1 5)]) 0
      (sealedBeat (minThreshold + 1) 9 1 1) = false :=
  @recycled_frame_not_refused (secureConfig minThreshold none) mix32 .operator minThreshold 0 0 42
    rfl secureObserver (Option.some_get _).symm (by decide) [.listen 0 (sealedBeat 1 7 1 5)]
    (by decide +kernel) _ rfl (sealedBeat (minThreshold + 1) 9 1 1) 0 9 1 1 ⟨.ok, 42, 1, 1, 0⟩ rfl
    rfl (by decide) (by decide +kernel) (by decide +kernel) (by decide +kernel)

/-- Half a second of threshold and gap, and one beat a second for each pid. -/
def limitedObserver : Observer := (Observer.new (secureConfig 500000000 (some 1))).get rfl

/-- Two beats, the second just too early for the limiter. -/
def shedBeat : List Step :=
  [.listen 0 (sealedBeat 1 7 1 10), .listen 0 (sealedBeat 1000000000 7 2 11)]

/-- The limiter drops the second beat, which the listener has counted. The slot is silent for
1.4 seconds when the pid's new process beats, and the tracker would take the beat, but the
listener refuses it. -/
theorem shed_beat_delays_recycle :
    let o := Steps.run applyStep limitedObserver shedBeat
    let round := sealedBeat 1400000000 9 1 1
    (shedBeat.all (fedOnlyBy 42 0) = true ∧ limitedObserver.thresholdNs = 500000000) ∧
      (knowsPrefixAt o 0 42 9 = false ∧ o.tracker.lastNsOf 42 = some 1 ∧
        o.thresholdNs ≤ max o.lastNowNs round.rawClock - 1) ∧
      (o.tracker.recordWithGeneration ⟨⟨.ok, 42, 1, 1, 0⟩, 1400000000, o.thresholdNs,
        .operatorAttestedTransport, none, none⟩).1 = .inserted ∧
      refusesReplayAt o 0 round = true := by
  decide +kernel

end Varta.Watch
