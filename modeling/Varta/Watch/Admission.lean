import Varta.Watch.PollLog
import Varta.Watch.StallRuns
import Mathlib.Data.Finset.Card

/-!
# Who pays for an event

Every event that a datagram causes costs one token of the global limiter, except the first
terminal beat after a regular one. That beat was paid for by the regular one.
-/
namespace Varta.Watch

open Vlp (nonceTerminal)

/-! ### What a round is charged -/

/-- The limiter after a round at `nowNs` that asked it at most once, and the tokens it gave. -/
inductive GlobalRateLimit.Fee (limit : GlobalRateLimit) (nowNs : Nat) (after : GlobalRateLimit) :
    Nat → Prop
  | free (same : after = limit) : Fee limit nowNs after 0
  | denied (asked : limit.tryConsume nowNs = (false, after)) : Fee limit nowNs after 0
  | paid (asked : limit.tryConsume nowNs = (true, after)) : Fee limit nowNs after 1

namespace GlobalRateLimit

variable {limit after : GlobalRateLimit} {nowNs tokens : Nat}

theorem Fee.le_one (fee : Fee limit nowNs after tokens) : tokens ≤ 1 := by
  cases fee <;> omega

/-- A refill that leaves the time of the last one leaves everything. -/
theorem refill_eq_of_lastRefillNs (same : (limit.refill nowNs).lastRefillNs = limit.lastRefillNs) :
    limit.refill nowNs = limit := by
  unfold refill at *
  dsimp only at *
  split at same
  next elapsed =>
    dsimp only at same
    omega
  next still => rw [if_neg still]

theorem refill_capacityMilli (limit : GlobalRateLimit) (nowNs : Nat) :
    (limit.refill nowNs).capacityMilli = limit.capacityMilli := by
  unfold refill
  dsimp only
  split <;> rfl

/-- An enabled limiter is refilled, and gives a thousand milli-tokens if it has them. -/
theorem tryConsume_fields {granted : Bool} (enabled : limit.isDisabled = false)
    (asked : limit.tryConsume nowNs = (granted, after)) :
    after.capacityMilli = limit.capacityMilli ∧
      after.lastRefillNs = (limit.refill nowNs).lastRefillNs ∧
      after.tokensMilli + granted.toNat * 1000 = (limit.refill nowNs).tokensMilli := by
  have capacity := refill_capacityMilli limit nowNs
  unfold tryConsume at asked
  rw [enabled] at asked
  generalize limit.refill nowNs = refilled at *
  simp only [Bool.false_eq_true, ↓reduceIte] at asked
  split at asked
  next enough =>
    obtain ⟨rfl, rfl⟩ := Prod.mk.inj asked
    exact ⟨capacity, rfl, Nat.sub_add_cancel enough⟩
  next =>
    obtain ⟨rfl, rfl⟩ := Prod.mk.inj asked
    exact ⟨capacity, rfl, rfl⟩

/-- The tokens that are gone are those that were given. -/
theorem Fee.spent (fee : Fee limit nowNs after tokens) (enabled : limit.isDisabled = false) :
    limit.spent after nowNs = tokens := by
  unfold GlobalRateLimit.spent
  cases fee with
  | free same => rw [if_pos same]
  | denied asked =>
    obtain ⟨-, -, held⟩ := tryConsume_fields enabled asked
    have gone : (limit.refill nowNs).tokensMilli - after.tokensMilli = 0 := by
      rw [← held]
      simp
    rw [gone]
    simp
  | paid asked =>
    obtain ⟨-, stamped, held⟩ := tryConsume_fields enabled asked
    -- a limiter that gave a token is not the one that was asked
    have changed : after ≠ limit := by
      rintro rfl
      rw [refill_eq_of_lastRefillNs stamped.symm] at held
      simp at held
    rw [if_neg changed, ← held]
    simp

theorem Fee.enabled (fee : Fee limit nowNs after tokens) (enabled : limit.isDisabled = false) :
    after.isDisabled = false := by
  have kept : after.capacityMilli = limit.capacityMilli := by
    cases fee with
    | free same => rw [same]
    | denied asked | paid asked => exact (tryConsume_fields enabled asked).1
  unfold isDisabled at *
  rwa [kept]

theorem new_enabled {ratePerSec burst : Nat} (positive_rate : 1 ≤ ratePerSec)
    (positive_burst : 1 ≤ burst) : (new ratePerSec burst).isDisabled = false := by
  have enabled : ¬ (ratePerSec = 0 ∨ burst = 0) := by omega
  have capacity : Machine.u64SaturatingMul burst 1000 ≠ 0 := by
    unfold Machine.u64SaturatingMul Machine.u64Bound
    omega
  simp [new, enabled, isDisabled, capacity]

end GlobalRateLimit

open GlobalRateLimit (Fee)

namespace Observer

/-- What a round is charged at `nowNs`. -/
def Charged (o : Observer) (nowNs : Nat) (o' : Observer) (tokens : Nat) : Prop :=
  Fee o.globalRl nowNs o'.globalRl tokens

variable {o : Observer}

theorem Charged.nothing {o' : Observer} {nowNs : Nat} (same : o'.globalRl = o.globalRl) :
    Charged o nowNs o' 0 :=
  .free same

theorem tryAdmitGlobal_charged (o : Observer) (nowNs : Nat) :
    Charged o nowNs (o.tryAdmitGlobal nowNs).2 (o.tryAdmitGlobal nowNs).1.toNat := by
  unfold tryAdmitGlobal
  cases asked : o.globalRl.tryConsume nowNs with
  | mk granted limit =>
    cases granted with
    | false => exact .denied asked
    | true => exact .paid asked

/-- What a round pays for what it returns. -/
inductive Billed (o : Observer) (nowNs : Nat) (result : RecvResult)
    (out : Option Event × Observer) : Prop
  /-- Nothing is returned, for a token or for none. -/
  | quiet {tokens : Nat} (event : out.1 = none) (charged : Charged o nowNs out.2 tokens)
  | paid (charged : Charged o nowNs out.2 1)
  /-- An error that took no datagram is free. -/
  | untaken (nothing : result.consumedDatagram = false) (silent : Silent out.1)
    (charged : Charged o nowNs out.2 0)
  /-- The terminal beat of the process that the kernel names, after a regular one. -/
  | gasp {peerPid : UInt32} {origin : BeatOrigin} {frame : Vlp.Frame} {beat : BeatEvent}
    (answer : result = .authenticated peerPid origin (.ok frame))
    (verified : peerPid ≠ 0 ∧ frame.pid = peerPid) (terminal : o.terminalAfterRegular frame = true)
    (event : out.1 = some (.beat beat)) (pid : beat.pid = frame.pid)
    (nonce : beat.nonce = frame.nonce) (charged : Charged o nowNs out.2 0)

section Billed

variable {o' : Observer} {nowNs : Nat} {result : RecvResult}

/-- A branch that asks for a token and returns its event only if it gets one. -/
theorem billed_of_admit (limiter : o'.globalRl = o.globalRl) {event : Observer → Option Event}
    {after : Observer → Observer} (accounting : ∀ o', (after o').globalRl = o'.globalRl) :
    Billed o nowNs result (match o'.tryAdmitGlobal nowNs with
      | (false, o) => (none, o)
      | (true, o) => (event o, after o)) := by
  have charged := tryAdmitGlobal_charged o' nowNs
  generalize o'.tryAdmitGlobal nowNs = admission at charged
  obtain ⟨granted, asked⟩ := admission
  unfold Charged at charged
  rw [limiter] at charged
  cases granted with
  | false => exact .quiet rfl charged
  | true =>
    refine .paid ?_
    unfold Charged
    rwa [accounting]

/-- A bill depends on the limiter and the tracker. -/
theorem Billed.congr {out : Option Event × Observer} (limiter : o'.globalRl = o.globalRl)
    (tracker : o'.tracker = o.tracker) (billed : Billed o' nowNs result out) :
    Billed o nowNs result out := by
  have same {tokens : Nat} (charged : Charged o' nowNs out.2 tokens) :
      Charged o nowNs out.2 tokens := by
    unfold Charged at *
    rwa [← limiter]
  cases billed with
  | quiet event charged => exact .quiet event (same charged)
  | paid charged => exact .paid (same charged)
  | untaken nothing silent charged => exact .untaken nothing silent (same charged)
  | gasp answer verified terminal event pid nonce charged =>
    unfold terminalAfterRegular at terminal
    rw [tracker] at terminal
    exact .gasp answer verified terminal event pid nonce (same charged)

/-- A frame that has paid pays no second time. -/
theorem classifyFrame_admitted (o : Observer) (b : Arrival) :
    (o.classifyFrame b true).2.globalRl = o.globalRl := by
  unfold classifyFrame
  simp only [admitUnless, ↓reduceIte]
  split
  · rfl
  · generalize o.tracker.recordWithGeneration b = recorded
    obtain ⟨update, tracker⟩ := recorded
    cases update <;> rfl

/-- An exempt frame that is not recorded as a beat pays after all. -/
theorem classifyFrame_exempt {peerPid : UInt32} {origin : BeatOrigin} {frame : Vlp.Frame}
    {b : Arrival} (own : b.frame = frame) (now : b.nowNs = nowNs)
    (verified : peerPid ≠ 0 ∧ frame.pid = peerPid) (terminal : o.terminalAfterRegular frame = true) :
    Billed o nowNs (.authenticated peerPid origin (.ok frame)) (o.classifyFrame b false) := by
  unfold classifyFrame
  simp only [admitUnless, Bool.false_eq_true, ↓reduceIte, now]
  split
  · refine billed_of_admit rfl ?_
    exact fun _ => rfl
  · have announced {o' : Observer} (limiter : o'.globalRl = o.globalRl) :
        Billed o nowNs (.authenticated peerPid origin (.ok frame)) (some (.beat (beatOf b)), o') :=
      .gasp rfl verified terminal rfl (congrArg Vlp.Frame.pid own) (congrArg Vlp.Frame.nonce own)
        (.nothing limiter)
    generalize o.tracker.recordWithGeneration b = recorded
    obtain ⟨update, tracker⟩ := recorded
    cases update with
    | inserted | refreshed => exact announced rfl
    | originConflict | namespaceConflict =>
      refine billed_of_admit ?_ ?_
      · rfl
      · exact fun _ => rfl
    | outOfOrder | capacityExceeded => exact .quiet rfl (.nothing rfl)

theorem ingestFrame_billed (o : Observer) (nowNs : Nat) (peerPid : UInt32) (origin : BeatOrigin)
    (identity : Option Nat × Option Nat) (frame : Vlp.Frame) :
    Billed o nowNs (.authenticated peerPid origin (.ok frame))
      (o.ingestFrame nowNs peerPid origin identity frame) := by
  unfold ingestFrame
  dsimp only
  split
  · refine billed_of_admit rfl ?_
    exact fun _ => rfl
  next named =>
    cases bypass : o.terminalAfterRegular frame && decide (peerPid ≠ 0 ∧ frame.pid = peerPid) with
    | false =>
      simp only [admitUnless, Bool.false_eq_true, ↓reduceIte, Bool.not_false]
      split
      · refine billed_of_admit rfl ?_
        exact fun _ => rfl
      split
      · exact .quiet rfl (.nothing rfl)
      · have charged := tryAdmitGlobal_charged o nowNs
        generalize o.tryAdmitGlobal nowNs = admission at charged
        obtain ⟨granted, o'⟩ := admission
        cases granted with
        | false => exact .quiet rfl charged
        | true =>
          refine .paid ?_
          unfold Charged at *
          rwa [classifyFrame_admitted]
    | true =>
      obtain ⟨terminal, verified⟩ := Bool.and_eq_true_iff.mp bypass
      have verified := of_decide_eq_true verified
      simp only [admitUnless, ↓reduceIte, Bool.not_true]
      split
      next unnamed => exact absurd unnamed.1 verified.1
      split
      · exact .quiet rfl (.nothing rfl)
      · exact classifyFrame_exempt rfl rfl verified terminal

theorem handle_billed (o : Observer) (i nowNs : Nat) (identity : Option Nat × Option Nat)
    (result : RecvResult) : Billed o nowNs result (o.handle i nowNs identity result) := by
  unfold handle
  cases result with
  | authenticated peerPid origin data =>
    cases data with
    | ok frame =>
      -- the turn goes to the next listener first; the limiter and the tracker do not move
      refine (ingestFrame_billed { o with nextListenerStart := (i + 1) % o.listeners.length }
        nowNs peerPid origin identity frame).congr ?_ ?_
      · rfl
      · rfl
    | error e =>
      refine billed_of_admit ?_ ?_
      · rfl
      · exact fun _ => rfl
  | wouldBlock | shortRead => exact .quiet rfl (.nothing rfl)
  | ctrlTruncated =>
    refine billed_of_admit rfl ?_
    exact fun _ => rfl
  | ioError consumed =>
    cases consumed with
    | false => exact .untaken rfl nofun (.nothing rfl)
    | true =>
      refine billed_of_admit rfl ?_
      exact fun _ => rfl

end Billed

/-! ### One round -/

namespace RoundLog

/-- The beat that the round announced. -/
def beat (entry : RoundLog) : Option BeatEvent :=
  match entry.event with
  | some (.beat beat) => some beat
  | _ => none

/-- The sender that the kernel names, or 0. -/
def peerPid (entry : RoundLog) : UInt32 :=
  match entry.result with
  | .authenticated peerPid _ _ => peerPid
  | _ => 0

/-- The event of the round, if there is one, comes from a datagram. -/
def consumed (entry : RoundLog) : Bool := entry.result.consumedDatagram

/-- An accepted terminal beat of the sender that the kernel names, for no token. -/
def unpaidTerminal (entry : RoundLog) : Bool :=
  entry.spent = 0 && entry.beat.any fun beat =>
    beat.nonce = nonceTerminal && entry.peerPid ≠ 0 && beat.pid = entry.peerPid

/-- An accepted regular beat, for a token. -/
def paidRegular (entry : RoundLog) : Bool :=
  entry.spent = 1 && entry.beat.any fun beat => beat.nonce ≠ nonceTerminal

theorem beat_eq_some {entry : RoundLog} {beat : BeatEvent} :
    entry.beat = some beat ↔ entry.event = some (.beat beat) := by
  unfold RoundLog.beat
  split
  next found => simp [found]
  next other =>
    constructor
    · exact nofun
    · exact fun found => absurd found (other beat)

end RoundLog

/-- What the log of a round says was paid for what it says was returned. -/
theorem roundLog_billed (o : Observer) (i : Nat) (round : Round) :
    Billed o (o.applyRawClock round.rawClock).1 (o.roundLog i round).result
      ((o.roundLog i round).event, (o.pollListener i round).2) := by
  have clock := applyRawClock_clocked o round.rawClock
  have limiter := clock.globalRl
  have tracker := clock.tracker
  simp only [roundLog, answerOf, pollListener, clock.listeners]
  generalize o.applyRawClock round.rawClock = read at *
  obtain ⟨nowNs, o₁⟩ := read
  cases o.listeners[i]? with
  | none => exact .quiet rfl (.nothing limiter)
  | some listener =>
    refine (handle_billed _ i nowNs round.identity _).congr ?_ ?_
    · exact limiter
    · exact tracker

/-- What the log of a round can say, with an enabled limiter. -/
theorem roundLog_cases (enabled : o.globalRl.isDisabled = false) (i : Nat) (round : Round) :
    let entry := o.roundLog i round
    (entry.event = none ∧ entry.beat = none ∧ entry.spent ≤ 1) ∨ entry.spent = 1 ∨
      (entry.consumed = false ∧ entry.beat = none ∧ entry.spent = 0) ∨
      ∃ frame beat, entry.peerPid ≠ 0 ∧ frame.pid = entry.peerPid ∧
        o.terminalAfterRegular frame = true ∧ entry.beat = some beat ∧ beat.pid = frame.pid ∧
        beat.nonce = frame.nonce ∧ entry.spent = 0 := by
  intro entry
  have billed := roundLog_billed o i round
  have spent {tokens : Nat}
      (charged : Charged o (o.applyRawClock round.rawClock).1 (o.pollListener i round).2 tokens) :
      entry.spent = tokens := Fee.spent charged enabled
  cases billed with
  | quiet event charged =>
    left
    refine ⟨event, ?_, (spent charged).trans_le (Fee.le_one charged)⟩
    unfold RoundLog.beat
    rw [show entry.event = none from event]
  | paid charged => exact Or.inr (Or.inl (spent charged))
  | untaken nothing silent charged =>
    refine Or.inr (Or.inr (Or.inl ⟨nothing, ?_, spent charged⟩))
    cases announced : entry.beat with
    | none => rfl
    | some beat => exact absurd (RoundLog.beat_eq_some.mp announced) (silent beat)
  | @gasp peerPid origin frame beat answer verified terminal event pid nonce charged =>
    have named : entry.peerPid = peerPid := by
      unfold RoundLog.peerPid
      rw [show entry.result = _ from answer]
    refine Or.inr (Or.inr (Or.inr ⟨frame, beat, ?_, ?_, terminal, ?_, pid, nonce, spent charged⟩))
    · exact named ▸ verified.1
    · exact named ▸ verified.2
    · exact RoundLog.beat_eq_some.mpr event

/-! ### Runs -/

/-- The beats of a run, and the slots they left: each slot is of the last beat of its pid, and
regular beats have paid. -/
structure Ledger (past : List RoundLog) (o : Observer) : Prop where
  wf : o.tracker.Wf
  enabled : o.globalRl.isDisabled = false
  slots : ∀ pid slot, o.tracker.slotOf pid = some slot →
    ∃ older entry newer beat, past = older ++ entry :: newer ∧ entry.beat = some beat ∧
      beat.pid = pid ∧ beat.nonce = slot.lastObservedNonce ∧
      ∀ later ∈ newer, ∀ other, later.beat = some other → other.pid ≠ pid
  regular : ∀ entry ∈ past, ∀ beat, entry.beat = some beat → beat.nonce ≠ nonceTerminal →
    entry.spent = 1

/-- The account of one round, after those before it. -/
structure Settled (past : List RoundLog) (entry : RoundLog) : Prop where
  once : entry.spent ≤ 1
  event : entry.consumed = true → entry.event.isSome → entry.spent = 1 ∨ entry.unpaidTerminal = true
  regular : ∀ beat, entry.beat = some beat → beat.nonce ≠ nonceTerminal → entry.spent = 1
  /-- The last beat of the pid before an unpaid terminal one is regular and was paid for. -/
  terminal : entry.unpaidTerminal = true → ∃ older payer newer, past = older ++ payer :: newer ∧
    payer.paidRegular = true ∧ payer.beat.map (·.pid) = entry.beat.map (·.pid) ∧
    ∀ later ∈ newer, ∀ other, later.beat = some other → some other.pid ≠ entry.beat.map (·.pid)

/-- The slot that exempts a terminal frame is of a regular beat. -/
theorem exempting_slot (wf : o.tracker.Wf) {frame : Vlp.Frame}
    (terminal : o.terminalAfterRegular frame = true) :
    frame.nonce = nonceTerminal ∧ ∃ slot, o.tracker.slotOf frame.pid = some slot ∧
      slot.lastObservedNonce ≠ nonceTerminal := by
  simp only [terminalAfterRegular, Bool.and_eq_true, Tracker.lastObservedNonceOf, wf.usedSlotOf,
    Vlp.Frame.isTerminal, decide_eq_true_eq] at terminal
  obtain ⟨⟨nonce, -⟩, regular⟩ := terminal
  cases known : o.tracker.slotOf frame.pid with
  | none => simp [known] at regular
  | some slot =>
    rw [known] at regular
    exact ⟨nonce, slot, rfl, by simpa using regular⟩

variable {past log : List RoundLog} {entry : RoundLog} {k : Nat}

/-- Step lemma: what a round does is settled by the ledger before it. -/
theorem Ledger.settled (ledger : Ledger past o) (i : Nat) (round : Round) :
    Settled past (o.roundLog i round) := by
  rcases roundLog_cases ledger.enabled i round with
    ⟨event, silent, once⟩ | one | ⟨untaken, silent, free⟩ |
    ⟨frame, beat, named, own, terminal, announced, pid, nonce, free⟩
  · refine ⟨once, ?_, ?_, ?_⟩
    · simp [event]
    · simp [silent]
    · simp [RoundLog.unpaidTerminal, silent]
  · refine ⟨Nat.le_of_eq one, fun _ _ => Or.inl one, fun _ _ _ => one, ?_⟩
    simp [RoundLog.unpaidTerminal, one]
  · refine ⟨free.trans_le (Nat.zero_le 1), ?_, ?_, ?_⟩
    · simp [untaken]
    · simp [silent]
    · simp [RoundLog.unpaidTerminal, silent]
  · obtain ⟨last, slot, known, regular⟩ := exempting_slot ledger.wf terminal
    obtain ⟨older, payer, newer, paid, split, was, whose, observed, latest⟩ :=
      ledger.slots frame.pid slot known
    have paid_nonce : paid.nonce ≠ nonceTerminal := observed ▸ regular
    refine ⟨free.trans_le (Nat.zero_le 1), fun _ _ => Or.inr ?_, ?_, fun _ => ?_⟩
    · simp [RoundLog.unpaidTerminal, free, announced, nonce, last, named, pid, own]
    · intro other same notTerminal
      rw [announced] at same
      cases same
      exact absurd (nonce.trans last) notTerminal
    · refine ⟨older, payer, newer, split, ?_, ?_, ?_⟩
      · have one := ledger.regular payer (split ▸ List.mem_append_cons_self) paid was paid_nonce
        simp [RoundLog.paidRegular, one, was, paid_nonce]
      · rw [was, announced, Option.map_some, Option.map_some, whose, pid]
      · intro later member other beat'
        rw [announced, Option.map_some, pid]
        exact fun same => latest later member other beat' (Option.some.inj same)

theorem roundLog_silent {i : Nat} {round : Round} (silent : Silent (o.pollListener i round).1.1) :
    (o.roundLog i round).beat = none := by
  cases announced : (o.roundLog i round).beat with
  | none => rfl
  | some beat => exact absurd (RoundLog.beat_eq_some.mp announced) (silent beat)

/-- A slot after a round is of the beat that the round announced, or was there before. -/
theorem pollListener_slots (wf : o.tracker.Wf) {i : Nat} {round : Round} {pid : UInt32}
    {slot : Slot} (known : (o.pollListener i round).2.tracker.slotOf pid = some slot) :
    (∃ beat, (o.roundLog i round).beat = some beat ∧ beat.pid = pid ∧
        beat.nonce = slot.lastObservedNonce) ∨
      (∀ beat, (o.roundLog i round).beat = some beat → beat.pid ≠ pid) ∧
        o.tracker.slotOf pid = some slot := by
  obtain ⟨o', _, _, received, handled, -⟩ := pollListener_spec round o i
  have wf' : o'.tracker.Wf := received.tracker ▸ wf
  cases handled with
  | dropped silent same =>
    rw [show (o.pollListener i round).2.tracker = _ from same.tracker, received.tracker] at known
    refine Or.inr ⟨fun beat announced => ?_, known⟩
    rw [roundLog_silent silent] at announced
    cases announced
  | @recorded peerPid origin frame b answer arrived kept tracker accepted refused =>
    obtain ⟨own, others⟩ := (Tracker.recordWithGeneration_spec wf' b).2.effect
    rw [show (o.pollListener i round).2.tracker = _ from tracker] at known
    cases verdict : (o'.tracker.recordWithGeneration b).1.accepted with
    | true =>
      have announced : (o.roundLog i round).beat = some (beatOf b) :=
        RoundLog.beat_eq_some.mpr (accepted verdict)
      by_cases mine : pid = b.frame.pid
      · subst mine
        obtain ⟨new, held, observed⟩ := own verdict
        obtain rfl : new = slot := Option.some.inj (held.symm.trans known)
        exact Or.inl ⟨beatOf b, announced, rfl, observed.2.symm⟩
      · right
        refine ⟨fun beat also => ?_, ?_⟩
        · rw [announced] at also
          cases also
          exact fun same => mine same.symm
        · rcases others pid fun _ => mine with same | gone
          · rw [← received.tracker, ← same, known]
          · rw [gone] at known
            cases known
    | false =>
      right
      refine ⟨fun beat announced => ?_, ?_⟩
      · rw [roundLog_silent (refused verdict)] at announced
        cases announced
      · rcases others pid (by simp [verdict]) with same | gone
        · rw [← received.tracker, ← same, known]
        · rw [gone] at known
          cases known

/-- Step lemma: a round keeps the ledger. -/
theorem Ledger.listen (ledger : Ledger past o) (i : Nat) (round : Round) :
    Ledger (past ++ [o.roundLog i round]) (o.applyStep (.listen i round)) := by
  have limiter : (o.pollListener i round).2.globalRl.isDisabled = false := by
    have billed := roundLog_billed o i round
    cases billed with
    | quiet _ charged | paid charged | untaken _ _ charged | gasp _ _ _ _ _ _ charged =>
      exact Fee.enabled charged ledger.enabled
  refine ⟨(pollListener_polled ledger.wf i round).1, limiter, ?_, ?_⟩
  · intro pid slot known
    rcases pollListener_slots ledger.wf known with ⟨beat, announced, whose, observed⟩ | ⟨other, before⟩
    · refine ⟨past, o.roundLog i round, [], beat, rfl, announced, whose, observed, ?_⟩
      exact fun later absent => absurd absent (List.not_mem_nil)
    · obtain ⟨older, found, newer, beat, split, was, whose, observed, latest⟩ :=
        ledger.slots pid slot before
      refine ⟨older, found, newer ++ [o.roundLog i round], beat, by simp [split], was, whose,
        observed, fun later member => ?_⟩
      rcases List.mem_append.mp member with inside | last
      · exact latest later inside
      · obtain rfl := List.mem_singleton.mp last
        exact other
  · intro entry member
    rcases List.mem_append.mp member with inside | last
    · exact ledger.regular entry inside
    · obtain rfl := List.mem_singleton.mp last
      exact (ledger.settled i round).regular

/-- Steps that ask no listener keep the slots of beats as they are, or drop them. -/
theorem Ledger.of_slots {o' : Observer} (ledger : Ledger past o) (wf : o'.tracker.Wf)
    (limiter : o'.globalRl = o.globalRl)
    (slots : ∀ pid slot, o'.tracker.slotOf pid = some slot →
      ∃ before, o.tracker.slotOf pid = some before ∧
        before.lastObservedNonce = slot.lastObservedNonce) : Ledger past o' := by
  refine ⟨wf, limiter ▸ ledger.enabled, fun pid slot known => ?_, ledger.regular⟩
  obtain ⟨before, was, observed⟩ := slots pid slot known
  rw [← observed]
  exact ledger.slots pid before was

theorem Ledger.drain (ledger : Ledger past o) (raw : Nat) (recycled : UInt32 → Nat → Bool) :
    Ledger past (o.applyStep (.drain raw recycled)) := by
  obtain ⟨wf, -, -, -, drains⟩ := drainStalls_spec ledger.wf raw recycled
  refine ledger.of_slots wf (drainStalls_apart o raw recycled).2.2 fun pid slot known => ?_
  rcases drains pid with same | ⟨before, was, -, gone | latched⟩
  · exact ⟨slot, same ▸ known, rfl⟩
  · exact absurd (known.symm.trans gone) (Option.some_ne_none slot)
  · obtain rfl := Option.some.inj (known.symm.trans latched)
    exact ⟨before, was, rfl⟩

theorem Ledger.clocked (ledger : Ledger past o) {raw : Nat} {result : Nat × Observer}
    (clock : Clocked o raw result) : Ledger past result.2 := by
  refine ledger.of_slots (clock.tracker ▸ ledger.wf) clock.globalRl fun pid slot known => ?_
  exact ⟨slot, clock.tracker ▸ known, rfl⟩

/-- Run lemma: every round of a run is settled by the rounds before it. -/
theorem Ledger.run_settled (ledger : Ledger past o) (steps : List Step)
    {before after : List RoundLog} (split : runLog o steps = before ++ entry :: after) :
    Settled (past ++ before) entry := by
  induction steps generalizing past o before with
  | nil => simp [runLog] at split
  | cons step rest ih =>
    cases step with
    | listen i round =>
      rw [runLog] at split
      cases before with
      | nil =>
        obtain ⟨rfl, -⟩ := List.cons.inj split
        rw [List.append_nil]
        exact ledger.settled i round
      | cons first before =>
        obtain ⟨rfl, later⟩ := List.cons.inj split
        have settled := ih (ledger.listen i round) later
        rwa [List.append_assoc] at settled
    | consumed flag =>
      have kept : Ledger past (o.applyStep (.consumed flag)) :=
        ledger.of_slots ledger.wf rfl fun pid slot known => ⟨slot, known, rfl⟩
      exact ih kept split
    | drain raw recycled => exact ih (ledger.drain raw recycled) split
    | readClock raw => exact ih (ledger.clocked (applyRawClock_clocked o raw)) split
    | refreshPidMax raw reading =>
      exact ih (ledger.clocked (maybeRefreshPidMax_clocked o raw reading)) split

/-! ### The account of a run of polls -/

theorem ledger_of_new {cfg : ObserverConfig} (made : Observer.new cfg = some o)
    (positive_rate : 1 ≤ cfg.globalBeatRate) (positive_burst : 1 ≤ cfg.globalBeatBurst) :
    Ledger [] o := by
  have started := started_of_new made
  refine ⟨started.wf, ?_, fun pid slot known => ?_, fun _ absent => absurd absent List.not_mem_nil⟩
  · obtain ⟨threshold, -, rfl⟩ := Option.map_eq_some_iff.mp made
    exact GlobalRateLimit.new_enabled positive_rate positive_burst
  · rw [started.untracked pid] at known
    cases known

/-- The rounds of a log that a predicate picks. -/
def roundsOf (log : List RoundLog) (picked : RoundLog → Bool) : Finset Nat :=
  (Finset.range log.length).filter fun k => log[k]?.any picked = true

theorem mem_roundsOf {picked : RoundLog → Bool} :
    k ∈ roundsOf log picked ↔ ∃ entry, log[k]? = some entry ∧ picked entry = true := by
  rw [roundsOf, Finset.mem_filter, Finset.mem_range, Option.any_eq_true]
  constructor
  · exact And.right
  · rintro ⟨entry, found, holds⟩
    exact ⟨(List.getElem?_eq_some_iff.mp found).1, entry, found, holds⟩

/-- The round `payer` of the log is a paid regular beat of the pid of round `k`, and the last
beat of that pid before it. -/
structure Pays (log : List RoundLog) (payer k : Nat) (entry : RoundLog) : Prop where
  earlier : payer < k
  regular : ∃ paid, log[payer]? = some paid ∧ paid.paidRegular = true ∧
    paid.beat.map (·.pid) = entry.beat.map (·.pid)
  latest : ∀ m, payer < m → m < k → ∀ between other, log[m]? = some between →
    between.beat = some other → some other.pid ≠ entry.beat.map (·.pid)

theorem Settled.pays (inside : k < log.length) (settled : Settled (log.take k) entry)
    (unpaid : entry.unpaidTerminal = true) : ∃ payer, Pays log payer k entry := by
  obtain ⟨older, paid, newer, split, regular, whose, latest⟩ := settled.terminal unpaid
  have size : older.length + (newer.length + 1) = k := by
    have := congrArg List.length split
    rw [List.length_take, Nat.min_eq_left (Nat.le_of_lt inside), List.length_append,
      List.length_cons] at this
    exact this.symm
  have at_ {m : Nat} (before : m < k) : log[m]? = (older ++ paid :: newer)[m]? := by
    rw [← split, List.getElem?_take_of_lt before]
  refine ⟨older.length, by omega, ⟨paid, ?_, regular, whose⟩, ?_⟩
  · rw [at_ (by omega), List.getElem?_append_right (Nat.le_refl _), Nat.sub_self]
    rfl
  · intro m after before between other found beat
    rw [at_ before, List.getElem?_append_right (by omega),
      List.getElem?_cons, if_neg (by omega)] at found
    exact latest between (List.mem_of_getElem? found) other beat

/-- No regular beat pays for two terminal ones: the first of them would come between. -/
theorem Pays.unique {payer k' : Nat} {entry' : RoundLog} (pays : Pays log payer k entry)
    (pays' : Pays log payer k' entry') (found : log[k]? = some entry)
    (unpaid : entry.unpaidTerminal = true) : ¬ k < k' := by
  intro before
  obtain ⟨paid, at_payer, -, whose⟩ := pays.regular
  obtain ⟨paid', at_payer', -, whose'⟩ := pays'.regular
  obtain rfl := Option.some.inj (at_payer.symm.trans at_payer')
  cases announced : entry.beat with
  | none => simp [RoundLog.unpaidTerminal, announced] at unpaid
  | some beat =>
    refine pays'.latest k pays.earlier before entry beat found announced ?_
    rw [← whose', whose, announced]
    rfl

/-- With the limiter enabled, over any run of polls: a round spends at most one token; an
event that comes from a datagram has spent one, unless it is an accepted terminal beat of the
sender that the kernel names; and each of these unpaid beats has an accepted regular beat of
its pid to itself, which came before it and was paid for. -/
theorem admission_accounting {cfg : ObserverConfig} {o : Observer}
    (made : Observer.new cfg = some o) (positive_rate : 1 ≤ cfg.globalBeatRate)
    (positive_burst : 1 ≤ cfg.globalBeatBurst) (inputs : List PollInput) :
    let log := o.history inputs
    (∀ entry ∈ log, entry.spent ≤ 1) ∧
      (∀ entry ∈ log, entry.consumed = true → entry.event.isSome →
        entry.spent = 1 ∨ entry.unpaidTerminal = true) ∧
      (∃ payer : Nat → Nat,
        Set.InjOn payer { k | ∃ entry, log[k]? = some entry ∧ entry.unpaidTerminal = true } ∧
        ∀ k entry, log[k]? = some entry → entry.unpaidTerminal = true →
          payer k < k ∧ ∃ paid, log[payer k]? = some paid ∧ paid.paidRegular = true ∧
            paid.beat.map (·.pid) = entry.beat.map (·.pid)) ∧
      (roundsOf log (·.unpaidTerminal)).card ≤ (roundsOf log (·.paidRegular)).card := by
  intro log
  obtain ⟨steps, -, logged⟩ := history_steps o inputs
  have settled {before : List RoundLog} {entry : RoundLog} {after : List RoundLog}
      (split : log = before ++ entry :: after) : Settled before entry :=
    (ledger_of_new made positive_rate positive_burst).run_settled steps (logged.symm.trans split)
  have paid : ∀ k, ∃ payer, ∀ entry, log[k]? = some entry → entry.unpaidTerminal = true →
      Pays log payer k entry := by
    intro k
    by_cases unpaid : ∃ entry, log[k]? = some entry ∧ entry.unpaidTerminal = true
    · obtain ⟨entry, found, unpaid⟩ := unpaid
      have inside := (List.getElem?_eq_some_iff.mp found).1
      obtain ⟨payer, pays⟩ := (settled (Lists.eq_take_cons_drop found)).pays inside unpaid
      refine ⟨payer, fun other also _ => ?_⟩
      rwa [← Option.some.inj (found.symm.trans also)]
    · exact ⟨0, fun entry found terminal => absurd ⟨entry, found, terminal⟩ unpaid⟩
  choose payer pays using paid
  have injective : Set.InjOn payer
      { k | ∃ entry, log[k]? = some entry ∧ entry.unpaidTerminal = true } := by
    rintro k ⟨entry, found, unpaid⟩ k' ⟨entry', found', unpaid'⟩ same
    have first := pays k entry found unpaid
    have second := pays k' entry' found' unpaid'
    rw [← same] at second
    have not_before := first.unique second found unpaid
    have not_after := second.unique first found' unpaid'
    omega
  refine ⟨?_, ?_, ⟨payer, injective, ?_⟩, ?_⟩
  · intro entry member
    obtain ⟨before, after, split⟩ := List.append_of_mem member
    exact (settled split).once
  · intro entry member
    obtain ⟨before, after, split⟩ := List.append_of_mem member
    exact (settled split).event
  · intro k entry found unpaid
    have payment := pays k entry found unpaid
    exact ⟨payment.earlier, payment.regular⟩
  · refine Finset.card_le_card_of_injOn payer ?_ ?_
    · intro k member
      obtain ⟨entry, found, unpaid⟩ := mem_roundsOf.mp member
      obtain ⟨paid, at_payer, regular, -⟩ := (pays k entry found unpaid).regular
      exact mem_roundsOf.mpr ⟨paid, at_payer, regular⟩
    · exact injective.mono fun k member => mem_roundsOf.mp member

/-- An observer with a bucket of one token. -/
def limitedConfig : ObserverConfig := { socketConfig with globalBeatRate := 1, globalBeatBurst := 1 }

def limitedObserver : Observer := (Observer.new limitedConfig).get rfl

/-- A regular beat takes the only token; the terminal beat after it is free. -/
def dyingRun : List PollInput :=
  [pollAt 1 (beatFrom 7 1) (some 1, some 5),
    pollAt 2 (.datagram ⟨7, 0, 0, true, .ok ⟨.critical, 7, 2, nonceTerminal, 0⟩⟩) (some 1, some 5)]

theorem admission_accounting_dying :
    (roundsOf (limitedObserver.history dyingRun) (·.unpaidTerminal)).card = 1 ∧
      (roundsOf (limitedObserver.history dyingRun) (·.unpaidTerminal)).card ≤
        (roundsOf (limitedObserver.history dyingRun) (·.paidRegular)).card :=
  have made : Observer.new limitedConfig = some limitedObserver := rfl
  ⟨by decide +kernel, (admission_accounting made (by decide) (by decide) dyingRun).2.2.2⟩

end Observer

end Varta.Watch
