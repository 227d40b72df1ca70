import Varta.Client.BeatStream
import Varta.Watch.OriginTrust

/-!
# Client and tracker agree on nonces

A client numbers its regular beats in a row that leaves out the sentinel and wraps to zero; the
tracker takes a nonce that is greater than the last one, or that is near zero when the last one
was near the top. As long as no more than 2^20 beats in a row are lost, the tracker takes every
beat of the row, whatever else it records in between.
-/
namespace Varta.Client

open Machine Vlp

/-! ### The row of a client -/

/-- The nonce of beat `k` of a client whose counter was at `base`, beats counted from zero. -/
def sentNonce (base k : Nat) : Nat := nextNonce^[k + 1] base

theorem nextNonce_lt (n : Nat) : nextNonce n < nonceTerminal := by
  unfold nextNonce nonceTerminal u64Bound
  split <;> omega

theorem sentNonce_lt (base k : Nat) : sentNonce base k < nonceTerminal := by
  rw [sentNonce, Function.iterate_succ_apply']
  exact nextNonce_lt _

/-- The nonces are the numbers below the sentinel, on a ring. -/
theorem iterate_nextNonce {n : Nat} (regular : n < nonceTerminal) (d : Nat) :
    nextNonce^[d] n = (n + d) % nonceTerminal := by
  induction d with
  | zero => exact (Nat.mod_eq_of_lt regular).symm
  | succ d ih =>
    have below := Nat.mod_lt (n + d) (show nonceTerminal > 0 by decide)
    rw [Function.iterate_succ_apply', ih, ← Nat.add_assoc, ← Nat.mod_add_mod (n + d)]
    generalize (n + d) % nonceTerminal = reached at below ⊢
    unfold nextNonce
    split
    next room => exact (Nat.mod_eq_of_lt (by omega)).symm
    next last => rw [show reached + 1 = nonceTerminal by omega, Nat.mod_self]

theorem sentNonce_add (base j d : Nat) :
    sentNonce base (j + d) = (sentNonce base j + d) % nonceTerminal := by
  rw [← iterate_nextNonce (sentNonce_lt base j), sentNonce, sentNonce,
    ← Function.iterate_add_apply]
  congr 1
  omega

end Varta.Client

namespace Varta.Watch

open Machine
open Vlp (nonceTerminal)
open Client (sentNonce sentNonce_lt sentNonce_add)

/-- A nonce that the tracker takes after `last`: a greater one, or one past the wrap. -/
def Follows (last nonce : Nat) : Prop :=
  last < nonce ∨ (last ≥ u64Bound - 1 - nonceWrapThreshold ∧ nonce ≤ nonceWrapThreshold)

/-- A row with up to 2^20 steps at a time is one the tracker follows, around the wrap too. -/
theorem follows_sentNonce {base j k : Nat} (later : j < k) (near : k ≤ j + 2 ^ 20) :
    Follows (sentNonce base j) (sentNonce base k) := by
  obtain ⟨d, rfl⟩ : ∃ d, k = j + d := ⟨k - j, by omega⟩
  have regular := sentNonce_lt base j
  rw [sentNonce_add]
  unfold Follows nonceWrapThreshold
  unfold nonceTerminal u64Bound at *
  rcases Nat.lt_or_ge (sentNonce base j + d) (2 ^ 64 - 1) with inside | wrapped
  · left
    rw [Nat.mod_eq_of_lt inside]
    omega
  · -- both ends are within 2^20 of the wrap
    right
    rw [Nat.mod_eq_sub_mod wrapped, Nat.mod_eq_of_lt (by omega)]
    omega

/-- The answers for a beat that is not of the process the slot is about. -/
def Update.conflicts : Update → Bool
  | .originConflict => true
  | .namespaceConflict => true
  | _ => false

namespace Slot

variable {slot new : Slot} {b : Arrival}

theorem refreshRegular_outOfOrder_iff : slot.refreshRegular b = .outOfOrder ↔
    slot.hasRegularNonce = true ∧ ¬Follows slot.lastNonce b.frame.nonce := by
  unfold refreshRegular Follows
  split
  next regular =>
    split
    next wrapped => simp [wrapped]
    next kept =>
      simp only [regular.1, true_and, true_iff]
      omega
  next fresh =>
    simp only [reduceCtorEq, false_iff]
    intro refused
    exact fresh ⟨refused.1, by omega⟩

/-- What an accepted frame leaves of the two sequences of a slot, if there was one. -/
structure Sequenced (before : Option Slot) (b : Arrival) (new : Slot) : Prop where
  regular : b.frame.isTerminal = false → new.lastNonce = b.frame.nonce ∧
    ∀ ts, new.lastTerminalTimestamp = some ts →
      ∃ slot, before = some slot ∧ slot.lastTerminalTimestamp = some ts
  terminal : b.frame.isTerminal = true → new.lastTerminalTimestamp = some b.frame.timestamp ∧
    (new.hasRegularNonce = true →
      ∃ slot, before = some slot ∧ slot.hasRegularNonce = true ∧ new.lastNonce = slot.lastNonce)

theorem sequenced_fromFrame (before : Option Slot) (b : Arrival) :
    Sequenced before b (fromFrame b) := by
  constructor <;> intro kind <;> simp [fromFrame, kind]

theorem Passes.sequenced {upgrade : Bool} (passes : slot.Passes b upgrade)
    (accepted : (slot.record b).slot? = some new) : Sequenced (some slot) b new := by
  rw [passes.record] at accepted
  split at accepted
  next kind =>
    unfold refreshTerminal at accepted
    split at accepted
    next nothing => cases accepted
    next fresh refreshed =>
      split at refreshed
      next =>
        cases refreshed
        cases accepted
        exact ⟨by simp [kind], fun _ => ⟨rfl, fun regular => ⟨slot, rfl, regular, rfl⟩⟩⟩
      next => cases refreshed
  next kind =>
    have kept : Sequenced (some slot) b
        ((slot.acceptRegular b).settle b upgrade (slot.generationUpgrade b)) :=
      ⟨fun _ => ⟨rfl, fun _ known => ⟨slot, rfl, known⟩⟩, fun terminal => absurd terminal kind⟩
    -- a wrapped nonce makes the same slot
    rcases refreshRegular_cases slot b with regular | regular | regular <;> rw [regular] at accepted
    · exact Option.some.inj accepted ▸ kept
    · exact Option.some.inj accepted ▸ kept
    · cases accepted

theorem sequenced_record (accepted : (slot.record b).slot? = some new) :
    Sequenced (some slot) b new := by
  rcases record_gates slot b with ⟨upgrade, passes⟩ | ⟨recorded, _⟩ | ⟨recorded, _⟩ | ⟨recorded, _⟩ |
    ⟨recorded, _⟩
  · exact passes.sequenced accepted
  all_goals
    rw [recorded] at accepted
    cases accepted
  · exact sequenced_fromFrame _ b
  · exact sequenced_fromFrame _ b

/-- A frame is out of order if it does not advance the sequence of its kind. -/
theorem record_outOfOrder (refused : slot.record b = .outOfOrder) :
    (b.frame.isTerminal = true ∧ slot.terminalWouldAdvance b.frame.timestamp = false) ∨
      (b.frame.isTerminal = false ∧ slot.hasRegularNonce = true ∧
        ¬Follows slot.lastNonce b.frame.nonce) := by
  rcases record_gates slot b with ⟨upgrade, passes⟩ | ⟨recorded, _⟩ | ⟨recorded, _⟩ | ⟨recorded, _⟩ |
    ⟨recorded, _⟩
  · rw [passes.record] at refused
    split at refused
    next kind =>
      refine .inl ⟨kind, ?_⟩
      cases advances : slot.terminalWouldAdvance b.frame.timestamp with
      | false => rfl
      | true =>
        rw [refreshTerminal, if_pos advances] at refused
        cases refused
    next kind =>
      refine .inr ⟨Bool.eq_false_iff.mpr kind, refreshRegular_outOfOrder_iff.mp ?_⟩
      rcases refreshRegular_cases slot b with regular | regular | regular
      · rw [regular] at refused
        cases refused
      · rw [regular] at refused
        cases refused
      · exact regular
  all_goals
    rw [recorded] at refused
    cases refused

/-- A frame that is not out of order is in conflict with the slot or continues its sequences. -/
theorem record_heard (ordered : slot.record b ≠ .outOfOrder) :
    (slot.record b).answer ≠ .outOfOrder ∧
      (((slot.record b).answer.conflicts = true ∧ (slot.record b).slot?.getD slot = slot) ∨
        ((slot.record b).answer.conflicts = false ∧
          Sequenced (some slot) b ((slot.record b).slot?.getD slot))) := by
  have sequenced (made : Slot) := @sequenced_record slot made b
  generalize slot.record b = update at ordered sequenced ⊢
  cases update with
  | recycle made | replace made | refresh made =>
    exact ⟨nofun, .inr ⟨rfl, sequenced made rfl⟩⟩
  | originConflict | namespaceConflict => exact ⟨nofun, .inl ⟨rfl, rfl⟩⟩
  | outOfOrder => exact absurd rfl ordered

/-- Where the start time is pinned there is no recycling by silence. -/
theorem record_stale {pinned : Nat} (generation : slot.generation = some pinned)
    (same : b.generation = none ∨ b.generation = some pinned) (origin : slot.origin = b.origin)
    (space : slot.pidNsInode = none ∨ b.pidNsInode = slot.pidNsInode)
    (kind : b.frame.isTerminal = false) (regular : slot.hasRegularNonce = true)
    (stale : ¬Follows slot.lastNonce b.frame.nonce) : slot.record b = .outOfOrder := by
  obtain ⟨upgrade, checked⟩ : ∃ upgrade, slot.namespaceUpgrade b = some upgrade := by
    unfold namespaceUpgrade
    rcases space with unpinned | same
    · rw [unpinned]
      cases b.pidNsInode <;> exact ⟨_, rfl⟩
    · rw [same]
      cases slot.pidNsInode <;> simp
  have passes : slot.Passes b upgrade := by
    refine ⟨?_, ?_, origin, checked⟩
    · -- a beat whose start time could not be read is no mismatch
      unfold generationMismatch
      rcases same with unknown | known
      · rw [generation, unknown]
      · simp [generation, known]
    · simp [networkRecycles, generation]
  rw [passes.record, kind, if_neg Bool.false_ne_true,
    refreshRegular_outOfOrder_iff.mpr ⟨regular, stale⟩]

end Slot

namespace Tracker

/-- A pid without a slot has no order. -/
theorem recordNew_answer (t : Tracker) (b : Arrival) :
    (t.recordNew b).1 = .inserted ∨ (t.recordNew b).1 = .capacityExceeded := by
  unfold recordNew
  split
  · split
    · unfold evictFor
      split
      · exact .inr rfl
      · dsimp only
        split
        · exact .inl rfl
        · split <;> exact .inr rfl
    · exact .inr rfl
  · split
    · exact .inr rfl
    · exact .inl rfl

theorem recordWithGeneration_unknown {t : Tracker} (wf : t.Wf) {b : Arrival}
    (unknown : t.slotOf b.frame.pid = none) : t.recordWithGeneration b = t.recordNew b := by
  unfold recordWithGeneration
  rw [wf.indexed.lookup_eq_none_iff.mp unknown]

/-- A beat that its slot does not find out of order is in conflict with the slot, which stays as
it is, or continues its sequences. -/
theorem record_inOrder {t : Tracker} (wf : t.Wf) (b : Arrival)
    (inOrder : ∀ slot, t.slotOf b.frame.pid = some slot → slot.record b ≠ .outOfOrder) :
    (t.recordWithGeneration b).1 ≠ .outOfOrder ∧
      ∀ new, (t.recordWithGeneration b).2.slotOf b.frame.pid = some new →
        ((t.recordWithGeneration b).1.conflicts = true ∧ t.slotOf b.frame.pid = some new) ∨
          ((t.recordWithGeneration b).1.conflicts = false ∧
            Slot.Sequenced (t.slotOf b.frame.pid) b new) := by
  cases known : t.slotOf b.frame.pid with
  | none =>
    have answer := recordNew_answer t b
    rw [← recordWithGeneration_unknown wf known] at answer
    constructor
    · rcases answer with inserted | exceeded
      · simp [inserted]
      · simp [exceeded]
    · intro new known'
      obtain ⟨accepted, rfl⟩ := record_unknown wf known known'
      right
      refine ⟨?_, Slot.sequenced_fromFrame none b⟩
      rcases Update.accepted_iff.mp accepted with inserted | refreshed
      · rw [inserted]
        rfl
      · rw [refreshed]
        rfl
  | some slot =>
    obtain ⟨answer, after⟩ := record_own wf known
    obtain ⟨ordered, outcome⟩ := Slot.record_heard (inOrder slot known)
    rw [answer, after]
    refine ⟨ordered, ?_⟩
    rintro _ ⟨⟩
    rcases outcome with ⟨conflict, same⟩ | ⟨fine, sequenced⟩
    · exact .inl ⟨conflict, congrArg some same.symm⟩
    · exact .inr ⟨fine, sequenced⟩

end Tracker

/-! ### A client and a tracker -/

/-- What reaches the tracker. -/
inductive Reception where
  /-- The client's regular beat number `k`. -/
  | regular (k : Nat) (b : Arrival)
  /-- A frame of the client's panic hook. -/
  | panic (b : Arrival)
  /-- Anything else the observer does with its tracker. -/
  | other (a : Tracker.Action)

structure Listening where
  tracker : Tracker
  /-- The number of the last regular beat that was delivered, without the conflicting ones. -/
  lastRegular : Option Nat
  /-- The timestamp of the last panic frame. -/
  lastTerminal : Option Nat
  /-- What the tracker has answered the client. -/
  answers : List Update

namespace Listening

def step (w : Listening) : Reception → Listening
  | .regular k b =>
    let (answer, tracker) := w.tracker.recordWithGeneration b
    { w with
      tracker
      lastRegular := if answer.conflicts then w.lastRegular else some k
      answers := w.answers ++ [answer] }
  | .panic b =>
    let (answer, tracker) := w.tracker.recordWithGeneration b
    { w with
      tracker
      lastTerminal := some b.frame.timestamp
      answers := w.answers ++ [answer] }
  | .other a => { w with tracker := w.tracker.step a }

/-- What is delivered of the stream of one client: its beats in order, not too far apart, and
its panic frames with their timestamps increasing. Nobody else beats for its pid. -/
def InOrder (pid : UInt32) (base : Nat) (w : Listening) : Reception → Prop
  | .regular k b => b.frame.pid = pid ∧ b.frame.nonce = sentNonce base k ∧
    ∀ j ∈ w.lastRegular, j < k ∧ k ≤ j + 2 ^ 20
  | .panic b => b.frame.pid = pid ∧ b.frame.nonce = nonceTerminal ∧
    ∀ ts ∈ w.lastTerminal, ts < b.frame.timestamp
  | .other (.record b) => b.frame.pid ≠ pid
  | .other _ => True

instance (pid : UInt32) (base : Nat) (w : Listening) : DecidablePred (w.InOrder pid base)
  | .regular _ _ => inferInstanceAs (Decidable (_ ∧ _ ∧ _))
  | .panic _ => inferInstanceAs (Decidable (_ ∧ _ ∧ _))
  | .other (.record _) => inferInstanceAs (Decidable (_ ≠ _))
  | .other (.drainStalledSlots ..) => isTrue trivial
  | .other .takeEvictedPid => isTrue trivial
  | .other (.take _) => isTrue trivial

/-- What the slot remembers of the stream was delivered. -/
structure Remembers (base : Nat) (w : Listening) (slot : Slot) : Prop where
  regular : slot.hasRegularNonce = true →
    ∃ j, w.lastRegular = some j ∧ slot.lastNonce = sentNonce base j
  terminal : ∀ ts, slot.lastTerminalTimestamp = some ts →
    ∃ last, w.lastTerminal = some last ∧ ts ≤ last

structure Agrees (pid : UInt32) (base : Nat) (w : Listening) : Prop where
  wf : w.tracker.Wf
  slot : ∀ slot, w.tracker.slotOf pid = some slot → Remembers base w slot
  answers : Update.outOfOrder ∉ w.answers

variable {pid : UInt32} {base : Nat} {w : Listening} {b : Arrival}

theorem isTerminal_sentNonce {k : Nat} (nonce : b.frame.nonce = sentNonce base k) :
    b.frame.isTerminal = false := by
  have regular := sentNonce_lt base k
  rw [← nonce] at regular
  simp only [Vlp.Frame.isTerminal, decide_eq_false_iff_not]
  omega

theorem Remembers.regular_inOrder {slot : Slot} (remembers : Remembers base w slot) {k : Nat}
    (nonce : b.frame.nonce = sentNonce base k)
    (near : ∀ j ∈ w.lastRegular, j < k ∧ k ≤ j + 2 ^ 20) : slot.record b ≠ .outOfOrder := by
  intro refused
  rcases Slot.record_outOfOrder refused with ⟨terminal, _⟩ | ⟨_, regular, stale⟩
  · rw [isTerminal_sentNonce nonce] at terminal
    cases terminal
  · obtain ⟨j, last, held⟩ := remembers.regular regular
    obtain ⟨later, close⟩ := near j last
    rw [held, nonce] at stale
    exact stale (follows_sentNonce later close)

theorem Remembers.panic_inOrder {slot : Slot} (remembers : Remembers base w slot)
    (terminal : b.frame.isTerminal = true)
    (increasing : ∀ ts ∈ w.lastTerminal, ts < b.frame.timestamp) : slot.record b ≠ .outOfOrder := by
  intro refused
  rcases Slot.record_outOfOrder refused with ⟨_, late⟩ | ⟨regular, _⟩
  · unfold Slot.terminalWouldAdvance at late
    cases seen : slot.lastTerminalTimestamp with
    | none => simp [seen] at late
    | some ts =>
      obtain ⟨last, delivered, before⟩ := remembers.terminal ts seen
      have after := increasing last delivered
      simp only [seen, Option.all_some, decide_eq_false_iff_not] at late
      omega
  · rw [terminal] at regular
    cases regular

theorem not_mem_append {answers : List Update} {answer : Update}
    (before : Update.outOfOrder ∉ answers) (now : answer ≠ .outOfOrder) :
    Update.outOfOrder ∉ answers ++ [answer] := by
  simp [before, now.symm]

theorem Agrees.regular (agrees : Agrees pid base w) {k : Nat}
    (inOrder : w.InOrder pid base (.regular k b)) : Agrees pid base (w.step (.regular k b)) := by
  obtain ⟨rfl, nonce, near⟩ := inOrder
  obtain ⟨answer, outcome⟩ := Tracker.record_inOrder agrees.wf b fun slot known =>
    (agrees.slot slot known).regular_inOrder nonce near
  refine ⟨(Tracker.recordWithGeneration_spec agrees.wf b).1, fun new known' => ?_,
    not_mem_append agrees.answers answer⟩
  rcases outcome new known' with ⟨conflict, same⟩ | ⟨fine, sequenced⟩
  · -- the slot is still at the last beat that was not in conflict with it
    have kept := agrees.slot new same
    refine ⟨?_, kept.terminal⟩
    simp only [step, conflict, if_true]
    exact kept.regular
  · obtain ⟨lastNonce, terminal⟩ := sequenced.regular (isTerminal_sentNonce nonce)
    refine ⟨fun _ => ⟨k, by simp [step, fine], lastNonce.trans nonce⟩, fun ts seen => ?_⟩
    obtain ⟨slot, known, held⟩ := terminal ts seen
    exact (agrees.slot slot known).terminal ts held

theorem Agrees.panic (agrees : Agrees pid base w) (inOrder : w.InOrder pid base (.panic b)) :
    Agrees pid base (w.step (.panic b)) := by
  obtain ⟨rfl, nonce, increasing⟩ := inOrder
  have kind : b.frame.isTerminal = true := decide_eq_true nonce
  obtain ⟨answer, outcome⟩ := Tracker.record_inOrder agrees.wf b fun slot known =>
    (agrees.slot slot known).panic_inOrder kind increasing
  refine ⟨(Tracker.recordWithGeneration_spec agrees.wf b).1, fun new known' => ?_,
    not_mem_append agrees.answers answer⟩
  rcases outcome new known' with ⟨_, same⟩ | ⟨_, sequenced⟩
  · have kept := agrees.slot new same
    refine ⟨kept.regular, fun ts seen => ?_⟩
    obtain ⟨last, delivered, before⟩ := kept.terminal ts seen
    have after := increasing last delivered
    exact ⟨b.frame.timestamp, rfl, by omega⟩
  · obtain ⟨terminal, regular⟩ := sequenced.terminal kind
    constructor
    · intro has
      obtain ⟨slot, known, had, same⟩ := regular has
      rw [same]
      exact (agrees.slot slot known).regular had
    · intro ts seen
      cases terminal.symm.trans seen
      exact ⟨b.frame.timestamp, rfl, Nat.le_refl _⟩

theorem Agrees.other (agrees : Agrees pid base w) {a : Tracker.Action}
    (inOrder : w.InOrder pid base (.other a)) : Agrees pid base (w.step (.other a)) := by
  refine ⟨Tracker.step_wf agrees.wf a, fun slot' known' => ?_, agrees.answers⟩
  by_cases beat : ∃ b, a = .record b
  · obtain ⟨b, rfl⟩ := beat
    have kept := agrees.slot slot' (Tracker.record_other agrees.wf (Ne.symm inOrder) known')
    exact ⟨kept.regular, kept.terminal⟩
  · obtain ⟨slot, known, latch⟩ :=
      Tracker.step_slot agrees.wf (fun b same => beat ⟨b, same⟩) known'
    have kept := agrees.slot slot known
    rcases latch with rfl | rfl <;> exact ⟨kept.regular, kept.terminal⟩

theorem Agrees.step (w : Listening) (r : Reception) (agrees : Agrees pid base w)
    (inOrder : w.InOrder pid base r) : Agrees pid base (w.step r) := by
  cases r with
  | regular k b => exact agrees.regular inOrder
  | panic b => exact agrees.panic inOrder
  | other a => exact agrees.other inOrder

end Listening

/-- The tracker never finds the stream of a client out of order, wherever its nonces start and
whatever is lost, up to 2^20 beats in a row. A beat that stays behind is out of order. -/
theorem client_tracker_agree :
    (∀ (t : Tracker) (pid : UInt32) (base : Nat) (receptions : List Reception), t.Wf →
      t.slotOf pid = none →
      Steps.Guarded Listening.step (Listening.InOrder pid base) ⟨t, none, none, []⟩ receptions →
        Update.outOfOrder ∉ (Steps.run Listening.step ⟨t, none, none, []⟩ receptions).answers) ∧
      ∀ (t : Tracker) (b : Arrival) (slot : Slot) (pinned : Nat), t.Wf →
        t.slotOf b.frame.pid = some slot → slot.generation = some pinned →
        b.generation = none ∨ b.generation = some pinned → slot.origin = b.origin →
        slot.pidNsInode = none ∨ b.pidNsInode = slot.pidNsInode →
        slot.hasRegularNonce = true → b.frame.isTerminal = false →
        b.frame.nonce ≤ slot.lastNonce →
        ¬(slot.lastNonce ≥ u64Bound - 1 - nonceWrapThreshold ∧
          b.frame.nonce ≤ nonceWrapThreshold) →
          (t.recordWithGeneration b).1 = .outOfOrder := by
  constructor
  · intro t pid base receptions wf unknown inOrder
    have start : Listening.Agrees pid base ⟨t, none, none, []⟩ := by
      refine ⟨wf, fun slot known => ?_, List.not_mem_nil⟩
      cases unknown.symm.trans known
    exact (inOrder.invariant Listening.Agrees.step start).answers
  · intro t b slot pinned wf known generation same origin space regular kind behind outside
    have stale : ¬Follows slot.lastNonce b.frame.nonce := by
      unfold Follows
      omega
    rw [Tracker.recordWithGeneration_known wf known,
      Slot.record_stale generation same origin space kind regular stale]
    rfl

/-- A beat of one process that runs as 42. -/
def attested (nonce : Nat) (pidNsInode generation : Option Nat) : Arrival :=
  ⟨⟨.ok, 42, 1, nonce, 0⟩, 0, 5, .kernelAttested, pidNsInode, generation⟩

def panicAt (timestamp : Nat) : Arrival :=
  ⟨⟨.critical, 42, timestamp, nonceTerminal, 0⟩, 0, 5, .kernelAttested, none, some 7⟩

def listening : Listening := ⟨.new mix32 1 .strict 1, none, none, []⟩

/-- Two beats around the wrap with one lost between them, and a panic frame on each side. -/
def aroundWrap : List Reception :=
  [.panic (panicAt 1), .regular 0 (attested (2 ^ 64 - 2) none (some 7)),
    .regular 2 (attested 1 none (some 7)), .panic (panicAt 2)]

theorem client_tracker_agree_aroundWrap :
    (Steps.Guarded Listening.step (Listening.InOrder 42 (2 ^ 64 - 3)) listening aroundWrap ∧
      Update.outOfOrder ∉ (Steps.run Listening.step listening aroundWrap).answers) ∧
      ((Tracker.new mix32 1 .strict 1).recordWithGeneration
        (attested 5 none (some 7))).2.slotOf 42 = some (.fromFrame (attested 5 none (some 7))) ∧
      (((Tracker.new mix32 1 .strict 1).recordWithGeneration
        (attested 5 none (some 7))).2.recordWithGeneration (attested 3 none none)).1 =
          .outOfOrder := by
  have inOrder : Steps.Guarded Listening.step (Listening.InOrder 42 (2 ^ 64 - 3)) listening
      aroundWrap := by decide +kernel
  have wf := Tracker.wf_new mix32 1 .strict 1
  have known : ((Tracker.new mix32 1 .strict 1).recordWithGeneration
      (attested 5 none (some 7))).2.slotOf 42 = some (.fromFrame (attested 5 none (some 7))) := by
    decide +kernel
  exact ⟨⟨inOrder, client_tracker_agree.1 _ 42 (2 ^ 64 - 3) aroundWrap wf (by decide +kernel)
      inOrder⟩,
    known, client_tracker_agree.2 _ (attested 3 none none) _ 7
      (Tracker.recordWithGeneration_spec wf _).1 known rfl (.inl rfl) rfl (.inl rfl) rfl
      (by decide) (by decide) (by decide)⟩

def answersTo (receptions : List Reception) : List Update :=
  (Steps.run Listening.step listening receptions).answers

/-- The identity of a frame counts before its order. A beat without a readable namespace is
refused, and the row goes on behind it until the tracker has lost the wrap. And a frame that
stays behind is not out of order if it comes from a later process, from another origin or from
another namespace, or if the slot is that of a panic frame. -/
theorem order_after_identity :
    (sentNonce (2 ^ 64 - 3 - 2 ^ 20) 0 = 2 ^ 64 - 2 - 2 ^ 20 ∧
      sentNonce (2 ^ 64 - 3 - 2 ^ 20) (2 ^ 20) = 2 ^ 64 - 2 ∧
      sentNonce (2 ^ 64 - 3 - 2 ^ 20) (2 ^ 20 + 2 ^ 20) = 2 ^ 20 - 1 ∧
      answersTo [.regular 0 (attested (2 ^ 64 - 2 - 2 ^ 20) (some 9) (some 7)),
        .regular (2 ^ 20) (attested (2 ^ 64 - 2) none (some 7)),
        .regular (2 ^ 20 + 2 ^ 20) (attested (2 ^ 20 - 1) (some 9) (some 7))] =
          [.inserted, .namespaceConflict, .outOfOrder]) ∧
      answersTo [.regular 5 (attested 5 (some 9) (some 7)),
        .regular 3 (attested 3 (some 9) (some 8))] = [.inserted, .inserted] ∧
      answersTo [.regular 5 (attested 5 (some 9) (some 7)),
        .regular 3 { attested 3 (some 9) (some 7) with origin := .socketModeOnly }] =
          [.inserted, .originConflict] ∧
      answersTo [.regular 5 (attested 5 (some 9) (some 7)),
        .regular 3 (attested 3 (some 8) (some 7))] = [.inserted, .namespaceConflict] ∧
      answersTo [.panic (panicAt 1), .regular 0 (attested 0 none (some 7))] =
        [.inserted, .refreshed] := by
  have first : sentNonce (2 ^ 64 - 3 - 2 ^ 20) 0 = 2 ^ 64 - 2 - 2 ^ 20 := by decide
  have second : sentNonce (2 ^ 64 - 3 - 2 ^ 20) (2 ^ 20) = 2 ^ 64 - 2 := by
    have ring := sentNonce_add (2 ^ 64 - 3 - 2 ^ 20) 0 (2 ^ 20)
    rw [Nat.zero_add, first] at ring
    exact ring
  have third : sentNonce (2 ^ 64 - 3 - 2 ^ 20) (2 ^ 20 + 2 ^ 20) = 2 ^ 20 - 1 := by
    rw [sentNonce_add, second]
    decide
  exact ⟨⟨first, second, third, by decide +kernel⟩, by decide +kernel, by decide +kernel,
    by decide +kernel, by decide +kernel⟩

end Varta.Watch
