import Varta.Watch.SenderStore

/-!
# What a secure `recv` does

One call sweeps, and then admits at most one frame. An admitted frame leaves its sender's
state with the time of the call; every other state stays or is swept.
-/
namespace Varta.Watch

namespace SenderState

theorem new_lastSeenNs (d : Sealed) (now nowNs : Nat) :
    (SenderState.new d now nowNs).lastSeenNs = nowNs := by
  unfold SenderState.new observeFrameClock
  split <;> rfl

theorem record_lastSeenNs {state state' : SenderState} {gap now nowNs : Nat} {d : Sealed}
    (accepted : state.record gap now nowNs d = some state') : state'.lastSeenNs = nowNs := by
  obtain ⟨-, rfl⟩ | ⟨-, advances⟩ := record_cases accepted
  -- the restart reads the same clock
  · exact new_lastSeenNs d now nowNs
  · cases advances with
    | current | previous | rotate => rfl

end SenderState

namespace SecureUdpListener

/-- Stale at one of the sweeps of a `recv`. -/
def Expired (at_ : Instants) (state : SenderState) : Prop :=
  Stale at_.sweep state ∨ Stale at_.full state

/-- A frame is admitted at `nowNs`, on top of the state that its sender had, unless a sweep has
dropped it. -/
structure Admitted (at_ : Instants) (l : SecureUdpListener) (d : Sealed) (nowNs : Nat)
    (l' : SecureUdpListener) : Prop where
  wf : StoreWf l'
  gap : l'.sessionRestartGap = l.sessionRestartGap
  trust : l'.recoveryTrust = l.recoveryTrust
  own : ∃ state, l'.stateOf d.frame.pid = some state ∧ state.lastSeenNs = nowNs ∧
    ∀ old, l.stateOf d.frame.pid = some old → Expired at_ old ∨
      old.record l.sessionRestartGap at_.now nowNs d = some state
  others : ∀ q, q ≠ d.frame.pid → l'.stateOf q = l.stateOf q ∨
    (l'.stateOf q = none ∧ ∃ state, l.stateOf q = some state ∧ Expired at_ state)

theorem Shrunk.admitted {at_ : Instants} {l l' l'' : SecureUdpListener} {d : Sealed} {nowNs : Nat}
    (first : Shrunk (Expired at_) l l') (second : Admitted at_ l' d nowNs l'') :
    Admitted at_ l d nowNs l'' := by
  obtain ⟨state, held, seen, before⟩ := second.own
  refine ⟨second.wf, second.gap.trans first.gap, second.trust.trans first.trust,
    ⟨state, held, seen, fun old known => ?_⟩, fun q other => ?_⟩
  · rcases first.states d.frame.pid with same | ⟨_, old', known', expired⟩
    · rw [← first.gap]
      exact before old (same.trans known)
    · cases known.symm.trans known'
      exact .inl expired
  · rcases first.states q with same | ⟨gone, dropped⟩
    · rw [← same]
      exact second.others q other
    · right
      refine ⟨?_, dropped⟩
      rcases second.others q other with same | ⟨gone', _⟩
      · rw [same, gone]
      · exact gone'

variable {l : SecureUdpListener}

/-- A sweep at one of the instants. -/
theorem Shrunk.imp {stale stale' : SenderState → Prop} {l' : SecureUdpListener}
    (shrunk : Shrunk stale l l') (weaker : ∀ state, stale state → stale' state) :
    Shrunk stale' l l' :=
  { shrunk with states := fun q => (shrunk.states q).imp_right fun ⟨gone, state, held, expired⟩ =>
      ⟨gone, state, held, weaker state expired⟩ }

theorem periodicSweep_shrunk (wf : StoreWf l) (at_ : Instants) :
    Shrunk (Expired at_) l (l.periodicSweep at_) := by
  unfold periodicSweep
  split
  · have swept : Shrunk (Expired at_) l _ :=
      (evictStaleSendersAt_swept wf at_.sweep).imp fun _ => Or.inl
    exact swept.trans (Shrunk.congr swept.wf rfl rfl rfl rfl rfl)
  · exact Shrunk.refl wf

/-- The builder's settings never change. -/
theorem tryRecord_settings (l : SecureUdpListener) (now nowNs : Nat) (d : Sealed) :
    (l.tryRecordReplayStateAt now nowNs d).2.sessionRestartGap = l.sessionRestartGap ∧
      (l.tryRecordReplayStateAt now nowNs d).2.recoveryTrust = l.recoveryTrust := by
  unfold tryRecordReplayStateAt allocateSenderSlot
  split
  · split
    · exact ⟨rfl, rfl⟩
    · split <;> exact ⟨rfl, rfl⟩
  · split
    · exact ⟨rfl, rfl⟩
    · split
      · exact ⟨rfl, rfl⟩
      · split <;> exact ⟨rfl, rfl⟩

theorem tryRecord_admitted {l : SecureUdpListener} (wf : StoreWf l) {at_ : Instants} {nowNs : Nat}
    {d : Sealed} (accepted : (l.tryRecordReplayStateAt at_.now nowNs d).1 = true) :
    Admitted at_ l d nowNs (l.tryRecordReplayStateAt at_.now nowNs d).2 := by
  obtain ⟨gap, trust⟩ := tryRecord_settings l at_.now nowNs d
  refine ⟨tryRecordReplayStateAt_wf at_.now nowNs d wf, gap, trust, ?_,
    fun q other => Or.inl (stateOf_tryRecord_of_ne at_.now nowNs d wf other)⟩
  -- first contact, or a sender that is known
  cases known : l.stateOf d.frame.pid with
  | none =>
    have after := (tryRecordReplayStateAt_unknown at_.now nowNs d wf known).2 d.frame.pid
    rw [if_pos ⟨rfl, accepted⟩] at after
    exact ⟨_, after, SenderState.new_lastSeenNs d at_.now nowNs, nofun⟩
  | some state =>
    obtain ⟨_, verdict, after⟩ := tryRecordReplayStateAt_known at_.now nowNs d wf known
    rw [accepted, eq_comm, Option.isSome_iff_exists] at verdict
    obtain ⟨state', recorded⟩ := verdict
    have after := after d.frame.pid
    rw [if_pos rfl, recorded] at after
    refine ⟨state', after, SenderState.record_lastSeenNs recorded, ?_⟩
    rintro _ ⟨rfl⟩
    exact .inr recorded

theorem tryRecord_refused {stale : SenderState → Prop} {l : SecureUdpListener} (wf : StoreWf l)
    {now nowNs : Nat} {d : Sealed} (refused : (l.tryRecordReplayStateAt now nowNs d).1 = false) :
    Shrunk stale l (l.tryRecordReplayStateAt now nowNs d).2 := by
  obtain ⟨gap, trust⟩ := tryRecord_settings l now nowNs d
  refine ⟨tryRecordReplayStateAt_wf now nowNs d wf, gap, trust, fun q => Or.inl ?_⟩
  cases known : l.stateOf d.frame.pid with
  | none =>
    rw [(tryRecordReplayStateAt_unknown now nowNs d wf known).2 q]
    -- the table had no room for a new sender
    exact if_neg fun both => by
      rw [refused] at both
      cases both.2
  | some state =>
    obtain ⟨_, verdict, after⟩ := tryRecordReplayStateAt_known now nowNs d wf known
    rw [refused, eq_comm, Option.isSome_eq_false_iff, Option.isNone_iff_eq_none] at verdict
    rw [after q, verdict]
    split
    next here => rw [here, known, Option.getD_none]
    next => rfl

theorem admitFrame_spec (wf : StoreWf l) (at_ : Instants) (nowNs : Nat) (d : Sealed) :
    ((l.admitFrame at_ nowNs d).1 = true →
        Admitted at_ l d nowNs (l.admitFrame at_ nowNs d).2) ∧
      ((l.admitFrame at_ nowNs d).1 = false → Shrunk (Expired at_) l (l.admitFrame at_ nowNs d).2) := by
  unfold admitFrame
  dsimp only
  -- the sweep for a full table
  have swept : Shrunk (Expired at_) l (if (l.index.get d.frame.pid).isSome = false ∧
      l.index.len ≥ maxSenderStates then l.evictStaleSendersAt at_.full else l) := by
    split
    · exact (evictStaleSendersAt_swept wf at_.full).imp fun _ => Or.inr
    · exact Shrunk.refl wf
  generalize (if (l.index.get d.frame.pid).isSome = false ∧ l.index.len ≥ maxSenderStates then
    l.evictStaleSendersAt at_.full else l) = l₁ at swept
  split
  · -- no room after the sweep: the frame is not even looked at
    refine ⟨(fun absurd => by cases absurd), fun _ => ?_⟩
    exact swept.trans (Shrunk.congr swept.wf rfl rfl rfl rfl rfl)
  · split
    next l₂ accepted =>
      refine ⟨fun _ => ?_, fun absurd => by cases absurd⟩
      have admitted := @tryRecord_admitted l₁ swept.wf at_ nowNs d (by rw [accepted])
      rw [accepted] at admitted
      exact swept.admitted admitted
    next l₂ refused =>
      have kept := swept.trans
        (@tryRecord_refused _ l₁ swept.wf at_.now nowNs d (by rw [refused]))
      rw [refused] at kept
      have counted (l₃ : SecureUdpListener) :
          Shrunk (Expired at_) l₂ l₃ → Shrunk (Expired at_) l l₃ := kept.trans
      split
      · refine ⟨(fun absurd => by cases absurd), fun _ => counted _ ?_⟩
        exact Shrunk.congr kept.wf rfl rfl rfl rfl rfl
      · refine ⟨(fun absurd => by cases absurd), fun _ => counted _ ?_⟩
        exact Shrunk.congr kept.wf rfl rfl rfl rfl rfl

/-- What one `recv` does: it hands over one admitted frame, or no frame. -/
inductive Receives (l : SecureUdpListener) (at_ : Instants) (nowNs : Nat) (ingress : Ingress)
    (out : RecvResult × SecureUdpListener) : Prop
  | admitted {d : Datagram} {frame : Vlp.Frame} (arrived : ingress = .datagram d)
    (data : d.data = .ok frame)
    (answer : out.1 = .authenticated 0 l.recoveryTrust.origin (.ok frame))
    (store : Admitted at_ l ⟨d.ivRandom, d.counter, frame⟩ nowNs out.2)
  | withheld (silent : ∀ peerPid origin frame, out.1 ≠ .authenticated peerPid origin (.ok frame))
    (store : Shrunk (Expired at_) l out.2)

theorem recv_receives (wf : StoreWf l) (at_ : Instants) (nowNs : Nat) (ingress : Ingress) :
    Receives l at_ nowNs ingress (l.recv at_ nowNs ingress) := by
  have flagged : Shrunk (Expired at_) l { l with lastRecvConsumed := false } :=
    Shrunk.congr wf rfl rfl rfl rfl rfl
  have swept := flagged.trans (periodicSweep_shrunk flagged.wf at_)
  unfold recv
  dsimp only
  generalize { l with lastRecvConsumed := false }.periodicSweep at_ = l₁ at swept
  -- the paths without a frame only count
  have counted : ∀ {result : RecvResult} {l₂ : SecureUdpListener},
      (∀ peerPid origin frame, result ≠ .authenticated peerPid origin (.ok frame)) →
      Shrunk (Expired at_) l₁ l₂ → Receives l at_ nowNs ingress (result, l₂) := fun silent store =>
    .withheld silent (swept.trans store)
  have same : ∀ {l₂ : SecureUdpListener}, l₂.slab = l₁.slab → l₂.index = l₁.index →
      l₂.freeList = l₁.freeList → l₂.sessionRestartGap = l₁.sessionRestartGap →
      l₂.recoveryTrust = l₁.recoveryTrust → Shrunk (Expired at_) l₁ l₂ := Shrunk.congr swept.wf
  split
  · exact counted (fun _ _ _ absurd => by cases absurd) (Shrunk.refl swept.wf)
  · exact counted (fun _ _ _ absurd => by cases absurd) (Shrunk.refl swept.wf)
  · exact counted (fun _ _ _ absurd => by cases absurd) (Shrunk.refl swept.wf)
  · exact counted (fun _ _ _ absurd => by cases absurd) (same rfl rfl rfl rfl rfl)
  next d =>
    split
    · exact counted (fun _ _ _ absurd => by cases absurd) (same rfl rfl rfl rfl rfl)
    · split
      · exact counted (fun _ _ _ absurd => by cases absurd) (same rfl rfl rfl rfl rfl)
      next frame data =>
        -- the flag is set as soon as there is a datagram
        have taken : Shrunk (Expired at_) l₁ { l₁ with lastRecvConsumed := true } :=
          same rfl rfl rfl rfl rfl
        have spec := admitFrame_spec taken.wf at_ nowNs ⟨d.ivRandom, d.counter, frame⟩
        have swept := swept.trans taken
        split
        next l₂ accepted =>
          rw [accepted] at spec
          refine .admitted rfl data ?_ (swept.admitted (spec.1 rfl))
          exact congrArg (fun trust : TransportTrust => RecvResult.authenticated 0 trust.origin
            (.ok frame)) swept.trust
        next l₂ refused =>
          rw [refused] at spec
          exact .withheld (fun _ _ _ absurd => by cases absurd) (swept.trans (spec.2 rfl))

/-! ### Runs -/

/-- One `recv`, with its clock readings and what the socket has. -/
def received (l : SecureUdpListener) (call : Instants × Nat × Ingress) : SecureUdpListener :=
  (l.recv call.1 call.2.1 call.2.2).2

theorem received_wf (wf : StoreWf l) (call : Instants × Nat × Ingress) :
    StoreWf (l.received call) := by
  cases recv_receives wf call.1 call.2.1 call.2.2 with
  | admitted _ _ _ store | withheld _ store => exact store.wf

/-- The slots stay divided into free ones and those of the senders in the index. A sender seen
within the TTL keeps its state or gets the one that its next frame makes of it. A frame is handed
over only with its sender in the store. -/
theorem store_fails_closed (hash32 : UInt32 → UInt32) (trust : TransportTrust) (gap now : Nat)
    (calls : List (Instants × Nat × Ingress)) :
    let l := Steps.run received (new hash32 trust gap now) calls
    l.freeList.Nodup ∧ (∀ slot ∈ l.freeList, l.slab[slot]? = some none) ∧
      (∀ slot, (slot ∈ l.freeList ∨ ∃ state, l.slab[slot]? = some (some state)) ↔
        slot < maxSenderStates) ∧
      (∀ p slot, l.index.get p = some slot ↔
        ∃ state, l.slab[slot]? = some (some state) ∧ state.identity = p) ∧
      ∀ at_ nowNs ingress,
        (∀ p state, l.stateOf p = some state → Expired at_ state ∨
          ∃ state', (l.recv at_ nowNs ingress).2.stateOf p = some state' ∧ (state' = state ∨
            ∃ d, state.record l.sessionRestartGap at_.now nowNs d = some state')) ∧
        ∀ peerPid origin frame,
          (l.recv at_ nowNs ingress).1 = .authenticated peerPid origin (.ok frame) →
            ∃ state, (l.recv at_ nowNs ingress).2.stateOf frame.pid = some state := by
  intro l
  have wf : StoreWf l :=
    @Steps.run_invariant _ _ received StoreWf (fun _ call wf => received_wf wf call) _ calls
      (storeWf_new ..)
  refine ⟨wf.listed.nodup, fun slot => (wf.listed.mem slot).mp, fun slot => ?_, fun p slot => ?_,
    fun at_ nowNs ingress => ?_⟩
  · rw [← wf.sized]
    exact wf.listed.covers slot
  · constructor
    · exact wf.stored p slot
    · rintro ⟨state, held, rfl⟩
      exact wf.indexed slot state held
  · cases recv_receives wf at_ nowNs ingress with
    | @admitted d frame _ _ answer store =>
      obtain ⟨state', held, _, before⟩ := store.own
      constructor
      · intro p state known
        by_cases own : p = frame.pid
        · subst own
          rcases before state known with expired | recorded
          · exact .inl expired
          · exact .inr ⟨state', held, .inr ⟨_, recorded⟩⟩
        · rcases store.others p own with same | ⟨_, old, known', expired⟩
          · exact .inr ⟨state, same.trans known, .inl rfl⟩
          · cases known.symm.trans known'
            exact .inl expired
      · intro peerPid origin frame' handed
        cases answer.symm.trans handed
        exact ⟨state', held⟩
    | withheld silent store =>
      constructor
      · intro p state known
        rcases store.states p with same | ⟨_, old, known', expired⟩
        · exact .inr ⟨state, same.trans known, .inl rfl⟩
        · cases known.symm.trans known'
          exact .inl expired
      · intro peerPid origin frame handed
        exact absurd handed (silent _ _ _)

end SecureUdpListener

end Varta.Watch
