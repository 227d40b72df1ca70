import Varta.Watch.PollLog

/-!
# Complete identities

Recovery may act on a slot of origin `KernelAttested`, so such a slot should have both parts
of its identity pinned: the namespace inode and the start time. The observer downgrades a
first contact with an incomplete identity. It does not downgrade a beat whose slot has a
complete identity, and if the tracker then makes that slot anew the incoming identity is all
that is left of it.
-/
namespace Varta.Watch

open Observer

/-- An attested slot has both parts of its identity. -/
def Slot.CompleteIfAttested (slot : Slot) : Prop :=
  slot.origin = .kernelAttested → slot.pidNsInode.isSome = true ∧ slot.generation.isSome = true

/-- The datagram's identity is incomplete and takes the place of a complete one: the start
times differ, or the slot is weaker than a kernel-attested beat. -/
def erasesIdentity (t : Tracker) (round : Round) : Bool :=
  match round.ingress with
  | .datagram ⟨peerPid, _, _, _, .ok frame⟩ =>
    decide (peerPid ≠ 0) && !(round.identity.1.isSome && round.identity.2.isSome) &&
      (t.slotOf frame.pid).any fun slot =>
        slot.pidNsInode.isSome && slot.generation.isSome &&
          (slot.generationMismatch round.identity.2 || decide (slot.origin ≠ .kernelAttested))
  | _ => false

/-- A beat counts as attested if the kernel names its sender and the identity is complete,
its own or the pinned one. -/
theorem linuxEffectiveOrigin_attested {origin : BeatOrigin} {ns generation : Option Nat}
    {slotNs slotGeneration : Option (Option Nat)}
    (attested : linuxEffectiveOriginForIdentity origin ns generation slotNs slotGeneration =
      .kernelAttested) :
    origin = .kernelAttested ∧ ((ns.isSome = true ∧ generation.isSome = true) ∨
      (slotNs.join.isSome = true ∧ slotGeneration.join.isSome = true)) := by
  unfold linuxEffectiveOriginForIdentity at attested
  dsimp only at attested
  split at attested
  · cases attested
  next enough =>
    subst attested
    rw [Bool.not_eq_true, Bool.and_eq_false_iff] at enough
    refine ⟨rfl, ?_⟩
    rcases enough with incoming | pinned
    · left
      simpa using incoming
    · right
      simpa using pinned

variable {peerPid : UInt32} {round : Round} {slot : Slot} {b : Arrival}

/-- What a Unix socket hands over is the datagram, with the origin its sender has. -/
theorem uds_recv_authenticated {at_ : Instants} {nowNs : Nat} {ingress : Ingress}
    {origin : BeatOrigin} {data : Except Vlp.DecodeError Vlp.Frame}
    (answer : (Listener.uds.recv at_ nowNs ingress).1 = .authenticated peerPid origin data) :
    origin = originForPeerPid peerPid ∧
      ∃ iv counter opens, ingress = .datagram ⟨peerPid, iv, counter, opens, data⟩ := by
  cases ingress with
  | datagram d =>
    obtain ⟨rfl, rfl, rfl⟩ := RecvResult.authenticated.inj answer
    exact ⟨rfl, d.ivRandom, d.counter, d.opens, rfl⟩
  | wouldBlock | shortRead | ctrlTruncated | ioError => cases answer

/-- Where no identity is erased, an incomplete datagram meets a complete slot only if the slot
is attested and of the same start time. -/
theorem steady_of_not_erases {t : Tracker} {frame : Vlp.Frame} {iv : UInt64} {counter : Nat}
    {opens : Bool} (ingress : round.ingress = .datagram ⟨peerPid, iv, counter, opens, .ok frame⟩)
    (keeps : erasesIdentity t round = false) (peer : peerPid ≠ 0)
    (known : t.slotOf frame.pid = some slot)
    (incomplete : ¬ (round.identity.1.isSome = true ∧ round.identity.2.isSome = true))
    (pinnedNs : slot.pidNsInode.isSome = true) (pinnedGeneration : slot.generation.isSome = true) :
    slot.generationMismatch round.identity.2 = false ∧ slot.origin = .kernelAttested := by
  have missing : (round.identity.1.isSome && round.identity.2.isSome) = false := by
    rw [← Bool.not_eq_true, Bool.and_eq_true]
    exact incomplete
  rw [erasesIdentity, ingress] at keeps
  simp only [known, Option.any_some] at keeps
  rw [missing, pinnedNs, pinnedGeneration] at keeps
  simpa [peer] using keeps

/-- An attested beat makes an attested slot anew only for another start time. -/
theorem Slot.not_resets (attested : b.origin = .kernelAttested)
    (same : slot.generationMismatch b.generation = false) (origin : slot.origin = .kernelAttested) :
    ¬ slot.Resets b := by
  rintro (mismatch | network | ⟨differs, _⟩)
  · rw [same] at mismatch
    cases mismatch
  · -- the recycle gate without start times is for network origins
    simp only [Slot.networkRecycles, attested, BeatOrigin.isNetwork, Bool.and_false,
      Bool.false_and] at network
    cases network
  · exact differs (origin.trans attested.symm)

/-- An attested arrival is complete, or its slot keeps a complete identity. -/
theorem arrival_attested {o : Observer} (wf : o.tracker.Wf) {nowNs : Nat} {frame : Vlp.Frame}
    {iv : UInt64} {counter : Nat} {opens : Bool}
    (ingress : round.ingress = .datagram ⟨peerPid, iv, counter, opens, .ok frame⟩)
    (keeps : erasesIdentity o.tracker round = false)
    (arrived : b = o.arrival nowNs peerPid (originForPeerPid peerPid) round.identity frame)
    (attested : b.origin = .kernelAttested) :
    (b.pidNsInode.isSome = true ∧ b.generation.isSome = true) ∨
      ∃ slot, o.tracker.slotOf b.frame.pid = some slot ∧ ¬ slot.Resets b := by
  obtain ⟨raw, identity⟩ := linuxEffectiveOrigin_attested (arrived ▸ attested)
  have peer : peerPid ≠ 0 := by
    rintro rfl
    cases raw
  rw [if_pos peer] at identity
  have own : b.pidNsInode = round.identity.1 ∧ b.generation = round.identity.2 ∧
      b.frame = frame := by
    rw [arrived, arrival, if_pos peer]
    exact ⟨rfl, rfl, rfl⟩
  rw [own.1, own.2.1, own.2.2]
  by_cases complete : round.identity.1.isSome = true ∧ round.identity.2.isSome = true
  · exact Or.inl complete
  · -- the origin was kept on the strength of the pinned identity
    right
    have pinned := identity.resolve_left complete
    unfold Tracker.pidNsInodeOf Tracker.generationOf at pinned
    rw [wf.usedSlotOf] at pinned
    cases known : o.tracker.slotOf frame.pid with
    | none =>
      rw [known] at pinned
      cases pinned.1
    | some slot =>
      rw [known] at pinned
      have steady := steady_of_not_erases ingress keeps peer known complete pinned.1 pinned.2
      refine ⟨slot, rfl, Slot.not_resets attested ?_ steady.2⟩
      rw [own.2.1]
      exact steady.1

/-- A refresh pins what was not pinned, and takes nothing back. -/
theorem Slot.Refreshed.completeIfAttested {new : Slot} (refreshed : Slot.Refreshed slot b new)
    (complete : slot.CompleteIfAttested) :
    new.CompleteIfAttested := by
  -- only attested slots owe anything
  intro origin
  rw [refreshed.sameOrigin] at origin
  have pinned := complete origin
  constructor
  · rcases refreshed.pidNsInode with same | ⟨unpinned, _⟩
    · exact same ▸ pinned.1
    · rw [unpinned] at pinned
      cases pinned.1
  · rcases refreshed.generation with same | ⟨unpinned, _⟩
    · exact same ▸ pinned.2
    · rw [unpinned] at pinned
      cases pinned.2

/-- What the tracker makes of a beat with these properties has a complete identity. -/
theorem recorded_complete {t t' : Tracker} {u : Update}
    (complete : ∀ pid slot, t.slotOf pid = some slot → slot.CompleteIfAttested)
    (recorded : Tracker.Recorded t b (u, t'))
    (attested : b.origin = .kernelAttested → (b.pidNsInode.isSome = true ∧ b.generation.isSome =
      true) ∨ ∃ slot, t.slotOf b.frame.pid = some slot ∧ ¬ slot.Resets b) :
    ∀ pid slot, t'.slotOf pid = some slot → slot.CompleteIfAttested := by
  intro pid slot found
  cases recorded with
  | refused rejected same => exact complete pid slot ((same.slotOf pid).symm.trans found)
  | updated known update answer after =>
    rw [after pid] at found
    split at found
    · cases found
      rcases Slot.record_cases update with ⟨resets, rfl⟩ | refreshed
      · -- a slot made anew has the identity of the beat alone
        intro origin
        rcases attested origin with incoming | ⟨pinned, also, keeps⟩
        · exact incoming
        · rw [known] at also
          cases also
          exact absurd resets keeps
      · exact refreshed.completeIfAttested (complete _ _ known)
    · exact complete pid slot found
  | inserted unknown answer victim full after =>
    rw [after pid] at found
    split at found
    · cases found
      intro origin
      rcases attested origin with incoming | ⟨pinned, also, _⟩
      · exact incoming
      · rw [unknown] at also
        cases also
    · split at found
      · cases found
      · exact complete pid slot found

/-- The invariant of an observer that listens on a Unix socket. -/
structure IdentityKept (o : Observer) : Prop where
  listeners : o.listeners = [.uds]
  wf : o.tracker.Wf
  complete : ∀ pid slot, o.tracker.slotOf pid = some slot → slot.CompleteIfAttested

/-- Step lemma: a round that erases no identity. -/
theorem IdentityKept.pollListener {o : Observer} (inv : IdentityKept o)
    (keeps : erasesIdentity o.tracker round = false) : IdentityKept (o.pollListener 0 round).2 := by
  have present : o.listeners[0]? = some .uds := by rw [inv.listeners]; rfl
  obtain ⟨o', result, listener, received, handled, answered, -⟩ := pollListener_spec round o 0
  rw [Answered, present] at answered
  have listeners : o'.listeners = [.uds] := by
    have same : listener = .uds := by
      refine (congrArg Prod.snd answered).symm.trans ?_
      cases round.ingress <;> rfl
    rw [received.listeners, inv.listeners, same]
    rfl
  have wf : o'.tracker.Wf := received.tracker ▸ inv.wf
  have complete : ∀ pid slot, o'.tracker.slotOf pid = some slot → slot.CompleteIfAttested :=
    received.tracker ▸ inv.complete
  refine ⟨handled.kept.listeners.trans listeners, handled.wf wf, ?_⟩
  · cases handled with
    | dropped silent same => exact same.tracker ▸ complete
    | @recorded peerPid origin frame b answer arrived kept tracker accepted refused =>
      obtain ⟨rfl, iv, counter, opens, ingress⟩ :=
        uds_recv_authenticated ((congrArg Prod.fst answered).trans answer)
      rw [tracker]
      refine recorded_complete complete (Tracker.recordWithGeneration_spec wf b).2 ?_
      exact arrival_attested wf ingress (received.tracker ▸ keeps) arrived

theorem IdentityKept.congr {o o' : Observer} (inv : IdentityKept o)
    (listeners : o'.listeners = o.listeners) (tracker : o'.tracker = o.tracker) :
    IdentityKept o' :=
  ⟨listeners.trans inv.listeners, tracker ▸ inv.wf, tracker ▸ inv.complete⟩

theorem IdentityKept.drainStalls {o : Observer} (inv : IdentityKept o) (raw : Nat)
    (generationRecycled : UInt32 → Nat → Bool) :
    IdentityKept (o.drainStalls raw generationRecycled) := by
  obtain ⟨wf, listeners, _, _, entries⟩ := drainStalls_spec inv.wf raw generationRecycled
  refine ⟨listeners.trans inv.listeners, wf, fun pid slot found => ?_⟩
  rcases entries pid with same | ⟨before, known, _, gone | latched⟩
  · exact inv.complete pid slot (same.symm.trans found)
  · rw [gone] at found
    cases found
  · rw [latched] at found
    cases found
    exact inv.complete pid before known

/-- Step lemma: with one listener a poll is at most one round and a drain. -/
theorem IdentityKept.pollStep (o : Observer) (input : PollInput) (inv : IdentityKept o)
    (keeps : erasesIdentity o.tracker (input.rounds 0) = false) :
    IdentityKept (pollStep o input) := by
  have order : o.pollOrder = [0] := by
    simp [pollOrder, inv.listeners, Nat.mod_one]
  obtain ⟨tried, flag, within, reached, _⟩ := poll_steps o input
  rw [Observer.pollStep, reached, Steps.run_append]
  have listened : IdentityKept
      (Steps.run applyStep o (tried.map fun i => .listen i (input.rounds i))) := by
    rw [order] at within
    rcases List.prefix_cons_iff.mp within with rfl | ⟨rest, rfl, empty⟩
    · exact inv
    · rw [List.prefix_nil.mp empty]
      exact inv.pollListener keeps
  generalize Steps.run applyStep o _ = o' at listened
  have counted : IdentityKept { o' with lastPollConsumed := flag } := listened.congr rfl rfl
  exact counted.drainStalls _ _

theorem identityKept_new {cfg : ObserverConfig} {o : Observer} (socket : cfg.listeners = [.uds])
    (started : Observer.new cfg = some o) : IdentityKept o := by
  obtain ⟨listeners, wf, untracked, _⟩ := started_of_new started
  refine ⟨listeners.trans socket, wf, fun pid slot found => ?_⟩
  rw [untracked pid] at found
  cases found

/-- In every run over a Unix socket whose polls erase no identity, every kernel-attested slot
has a complete identity. -/
theorem attested_slots_complete {cfg : ObserverConfig} {o : Observer}
    (socket : cfg.listeners = [.uds]) (started : Observer.new cfg = some o)
    (polls : List PollInput)
    (keeps : Steps.Guarded pollStep
      (fun o input => erasesIdentity o.tracker (input.rounds 0) = false) o polls) :
    ∀ slot ∈ (Steps.run pollStep o polls).tracker.entries, slot.origin = .kernelAttested →
      slot.pidNsInode.isSome = true ∧ slot.generation.isSome = true := by
  have reached := keeps.invariant IdentityKept.pollStep (identityKept_new socket started)
  intro slot member
  exact reached.complete slot.pid slot (reached.wf.slotOf_eq_some_iff.mpr ⟨member, rfl⟩)

/-- One beat with a complete identity makes one attested slot. -/
theorem attested_slots_complete_firstBeat :
    (Steps.run pollStep socketObserver
        [pollAt 1 (beatFrom 42 1) (some 1, some 7)]).tracker.entries.map (·.origin) =
      [.kernelAttested] ∧
      ∀ slot ∈ (Steps.run pollStep socketObserver
          [pollAt 1 (beatFrom 42 1) (some 1, some 7)]).tracker.entries,
        slot.origin = .kernelAttested →
          slot.pidNsInode.isSome = true ∧ slot.generation.isSome = true :=
  ⟨by decide +kernel,
    attested_slots_complete rfl (Option.some_get _).symm _ (by decide +kernel)⟩

/-- A process that has the pid of another one beats while its namespace is unreadable. The
slot is made anew for it, with the origin of the old identity. -/
theorem partial_identity_stays_attested :
    (Steps.run pollStep socketObserver
        [pollAt 1 (beatFrom 42 1) (some 1, some 7),
          pollAt 2 (beatFrom 42 1) (none, some 8)]).tracker.entries.map
      (fun slot => (slot.origin, slot.pidNsInode, slot.generation)) =
      [(.kernelAttested, none, some 8)] := by
  decide +kernel

end Varta.Watch
