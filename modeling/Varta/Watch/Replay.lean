import Mathlib.Data.List.Pairwise
import Varta.Watch.SenderStore

/-!
# At-most-once delivery

The replay guard keeps a one-deep prefix history and two high-water marks. A datagram it has
accepted stays covered by them until the sender's state is initialised again: its counter is
below the counter of its prefix as long as the prefix is in the history, and its nonce or
timestamp is below the mark after that. Only a prefix that comes back into the history
matters, and there the sender's own order gives the counter bound.
-/
namespace Varta.Watch

open Vlp (nonceTerminal)

/-! ### What one state covers -/

/-- The state refuses `d` whatever the prefix history does. -/
structure Covered (state : SenderState) (d : Sealed) : Prop where
  clock : state.acceptsAgedOutPrefix d.frame.nonce d.frame.timestamp = false
  current : state.ivRandom = d.ivRandom → d.counter ≤ state.lastCounter
  previous : state.ivRandom ≠ d.ivRandom → state.prevIvRandom = d.ivRandom →
    d.counter ≤ state.prevLastCounter

namespace SenderState

/-- The marks only rise. -/
theorem acceptsAgedOutPrefix_observe {state : SenderState} {nonce timestamp : Nat}
    (nonce' timestamp' : Nat) (below : state.acceptsAgedOutPrefix nonce timestamp = false) :
    (state.observeFrameClock nonce' timestamp').acceptsAgedOutPrefix nonce timestamp = false := by
  revert below
  unfold acceptsAgedOutPrefix observeFrameClock
  -- four cases: each kind of frame moves its own mark only
  by_cases terminal : nonce = nonceTerminal
  · by_cases terminal' : nonce' = nonceTerminal
    · cases marked : state.maxTerminalTimestamp with
      | none => simp [terminal]
      | some mark =>
        simp only [terminal, terminal', if_pos, Option.elim_some, decide_eq_false_iff_not]
        omega
    · simp only [terminal, terminal', if_pos, if_neg, not_false_eq_true, imp_self]
  · by_cases terminal' : nonce' = nonceTerminal
    · simp only [terminal, terminal', if_pos, if_neg, not_false_eq_true, imp_self]
    · simp only [terminal, terminal', if_neg, not_false_eq_true, decide_eq_false_iff_not]
      omega

theorem acceptsAgedOutPrefix_observe_self (state : SenderState) (nonce timestamp : Nat) :
    (state.observeFrameClock nonce timestamp).acceptsAgedOutPrefix nonce timestamp = false := by
  unfold acceptsAgedOutPrefix observeFrameClock
  by_cases terminal : nonce = nonceTerminal
  · cases marked : state.maxTerminalTimestamp with
    | none => simp [terminal]
    | some mark =>
      simp only [terminal, if_pos, Option.elim_some, decide_eq_false_iff_not]
      omega
  · simp only [terminal, if_neg, not_false_eq_true, decide_eq_false_iff_not]
    omega

section Seen

variable (state : SenderState) (d : Sealed) (now nowNs : Nat)

theorem seen_ivRandom : (state.seen d now nowNs).ivRandom = state.ivRandom := by
  unfold seen observeFrameClock
  split <;> rfl

theorem seen_lastCounter : (state.seen d now nowNs).lastCounter = state.lastCounter := by
  unfold seen observeFrameClock
  split <;> rfl

theorem seen_prevIvRandom : (state.seen d now nowNs).prevIvRandom = state.prevIvRandom := by
  unfold seen observeFrameClock
  split <;> rfl

theorem seen_prevLastCounter :
    (state.seen d now nowNs).prevLastCounter = state.prevLastCounter := by
  unfold seen observeFrameClock
  split <;> rfl

end Seen

end SenderState

namespace Covered

variable {state state' : SenderState} {d e : Sealed} {gap now nowNs : Nat}

/-- An initial state covers the frame it was made from. -/
theorem of_new (d : Sealed) (now nowNs : Nat) : Covered (SenderState.new d now nowNs) d := by
  have fields : (SenderState.new d now nowNs).ivRandom = d.ivRandom ∧
      (SenderState.new d now nowNs).lastCounter = d.counter := by
    unfold SenderState.new SenderState.observeFrameClock
    split <;> exact ⟨rfl, rfl⟩
  refine ⟨SenderState.acceptsAgedOutPrefix_observe_self _ _ _, fun _ => ?_, fun other => ?_⟩
  · -- the counter of the prefix is the counter of this frame
    exact fields.2 ▸ Nat.le_refl _
  · exact absurd fields.1 other

/-- The bookkeeping of a frame keeps what the history covers. -/
theorem seen (covered : Covered state d) (e : Sealed) (now nowNs : Nat) :
    Covered (state.seen e now nowNs) d := by
  have clock := SenderState.acceptsAgedOutPrefix_observe e.frame.nonce e.frame.timestamp
    covered.clock
  refine ⟨clock, fun same => ?_, fun other same => ?_⟩
  · rw [SenderState.seen_ivRandom] at same
    rw [SenderState.seen_lastCounter]
    exact covered.current same
  · rw [SenderState.seen_ivRandom] at other
    rw [SenderState.seen_prevIvRandom] at same
    rw [SenderState.seen_prevLastCounter]
    exact covered.previous other same

/-- An advance covers the frame it accepts. -/
theorem of_advances (advance : SenderState.Advances state d now nowNs state') :
    Covered state' d := by
  have clock : ∀ state : SenderState, (state.seen d now nowNs).acceptsAgedOutPrefix
      d.frame.nonce d.frame.timestamp = false := fun state =>
    SenderState.acceptsAgedOutPrefix_observe_self state _ _
  cases advance with
  | current same newer =>
    refine ⟨clock _, fun _ => ?_, fun other => absurd ?_ other⟩
    · rw [SenderState.seen_lastCounter]
    · rw [SenderState.seen_ivRandom]
      exact same
  | previous other same newer =>
    refine ⟨clock _, fun same' => absurd ?_ other, fun _ _ => ?_⟩
    · rw [SenderState.seen_ivRandom] at same'
      exact same'
    · rw [SenderState.seen_prevLastCounter]
  -- after a rotation the accepted prefix is the current one
  | rotate other older newer =>
    refine ⟨clock _, fun _ => ?_, fun other' => absurd ?_ other'⟩
    · rw [SenderState.seen_lastCounter]
    · rw [SenderState.seen_ivRandom]

/-- An advance by `e` keeps `d` covered. Only a prefix that returns needs an argument: there
`e` must be the later frame of the prefix. -/
theorem advances (covered : Covered state d)
    (later : state.acceptsAgedOutPrefix e.frame.nonce e.frame.timestamp = true →
      d.ivRandom = e.ivRandom → d.counter ≤ e.counter)
    (advance : SenderState.Advances state e now nowNs state') : Covered state' d := by
  cases advance with
  | current same newer =>
    have raised : Covered { state with lastCounter := e.counter } d :=
      ⟨covered.clock, fun own => (covered.current own).trans newer.le, covered.previous⟩
    exact raised.seen e now nowNs
  | previous other same newer =>
    have raised : Covered { state with prevLastCounter := e.counter } d :=
      ⟨covered.clock, covered.current, fun ne own => (covered.previous ne own).trans newer.le⟩
    exact raised.seen e now nowNs
  | rotate other older newer =>
    -- the current prefix moves down one place with its counter
    have rotated : Covered { state with
        prevIvRandom := state.ivRandom
        prevLastCounter := state.lastCounter
        ivRandom := e.ivRandom
        lastCounter := e.counter } d :=
      ⟨covered.clock, fun own => later newer own.symm, fun _ own => covered.current own⟩
    exact rotated.seen e now nowNs

/-- A covered frame is accepted by a restart only. -/
theorem refused (covered : Covered state d) (steady : state.restarts gap nowNs d = false) :
    state.record gap now nowNs d = none := by
  cases verdict : state.record gap now nowNs d with
  | none => rfl
  | some state' =>
    rcases SenderState.record_cases verdict with ⟨restart, _⟩ | ⟨_, advance⟩
    · rw [steady] at restart
      cases restart
    · cases advance with
      -- each arm that accepts contradicts one field of the cover
      | current same newer => exact absurd (covered.current same) newer.not_ge
      | previous other same newer => exact absurd (covered.previous other same) newer.not_ge
      | rotate other older newer =>
        rw [covered.clock] at newer
        cases newer

end Covered

/-! ### The honest sender -/

/-- `a` was sent before `b`: counters rise inside a prefix, nonces over the regular frames
and timestamps over the terminal ones. -/
structure SentBefore (a b : Sealed) : Prop where
  counter : a.ivRandom = b.ivRandom → a.counter < b.counter
  nonce : a.frame.nonce ≠ nonceTerminal → b.frame.nonce ≠ nonceTerminal →
    a.frame.nonce < b.frame.nonce
  timestamp : a.frame.nonce = nonceTerminal → b.frame.nonce = nonceTerminal →
    a.frame.timestamp < b.frame.timestamp

/-- The datagrams of one process, in the order it sent them. A regular prefix need not be
used in one interval: nothing below depends on it. -/
structure HonestSender (pid : UInt32) (sent : List Sealed) : Prop where
  own : ∀ d ∈ sent, d.frame.pid = pid
  kinds : ∀ a ∈ sent, ∀ b ∈ sent, a.ivRandom = b.ivRandom →
    (a.frame.nonce = nonceTerminal ↔ b.frame.nonce = nonceTerminal)
  ordered : sent.Pairwise SentBefore

variable {pid : UInt32} {sent : List Sealed}

/-- A frame of `d`'s prefix that passes the marks `d` does not pass was sent after `d`. -/
theorem HonestSender.counter_le {state : SenderState} {d e : Sealed}
    (honest : HonestSender pid sent) (sent_d : d ∈ sent) (sent_e : e ∈ sent)
    (below : state.acceptsAgedOutPrefix d.frame.nonce d.frame.timestamp = false)
    (above : state.acceptsAgedOutPrefix e.frame.nonce e.frame.timestamp = true)
    (same : d.ivRandom = e.ivRandom) : d.counter ≤ e.counter := by
  -- one of them passes the marks and the other does not
  have distinct : d ≠ e := by
    rintro rfl
    rw [below] at above
    cases above
  have : Std.Symm fun a b : Sealed => SentBefore a b ∨ SentBefore b a := ⟨fun _ _ => Or.symm⟩
  have either := (honest.ordered.imp (S := fun a b => SentBefore a b ∨ SentBefore b a)
    Or.inl).forall sent_d sent_e distinct
  have kind := honest.kinds d sent_d e sent_e same
  -- sent in one order or the other
  rcases either with before | after
  · exact (before.counter same).le
  · -- `e` before `d` contradicts the marks, for either kind of frame
    exfalso
    unfold SenderState.acceptsAgedOutPrefix at below above
    by_cases terminal : e.frame.nonce = nonceTerminal
    · have order := after.timestamp terminal (kind.mpr terminal)
      rw [if_pos (kind.mpr terminal)] at below
      rw [if_pos terminal] at above
      cases marked : state.maxTerminalTimestamp with
      | none => simp [marked] at below
      | some mark =>
        simp only [marked, decide_eq_true_eq, decide_eq_false_iff_not] at below above
        omega
    · have order := after.nonce terminal fun h => terminal (kind.mp h)
      rw [if_neg fun h => terminal (kind.mp h)] at below
      rw [if_neg terminal] at above
      simp only [decide_eq_true_eq, decide_eq_false_iff_not] at below above
      omega

/-! ### Runs -/

/-- The operations on the sender store. -/
inductive SenderOp where
  | record (now nowNs : Nat) (d : Sealed)
  | evict (now : Nat)
  deriving DecidableEq, Repr

def applySenderOp (l : SecureUdpListener) : SenderOp → SecureUdpListener
  | .record now nowNs d => (l.tryRecordReplayStateAt now nowNs d).2
  | .evict now => l.evictStaleSendersAt now

/-- The operation accepts the datagram. -/
def delivers (d : Sealed) (l : SecureUdpListener) : SenderOp → Bool
  | .record now nowNs e => decide (e = d) && (l.tryRecordReplayStateAt now nowNs e).1
  | .evict _ => false

/-- The operation (re)initialises the sender's state: first contact, a session restart, or
its eviction. -/
def initialises (pid : UInt32) (l : SecureUdpListener) : SenderOp → Bool
  | .record now nowNs d =>
    decide (d.frame.pid = pid) && (l.tryRecordReplayStateAt now nowNs d).1 &&
      match l.stateOf pid with
      | none => true
      | some state => state.restarts l.sessionRestartGap nowNs d
  | .evict now => (l.stateOf pid).isSome && ((l.evictStaleSendersAt now).stateOf pid).isNone

/-- The network delivers only what the sender sent, however often and in whatever order. -/
def scheduled (pid : UInt32) (sent : List Sealed) : SenderOp → Bool
  | .record _ _ d => decide (d.frame.pid = pid → d ∈ sent)
  | .evict _ => true

theorem applySenderOp_wf (l : SecureUdpListener) (op : SenderOp) (wf : l.StoreWf) :
    (applySenderOp l op).StoreWf := by
  cases op with
  | record now nowNs d => exact SecureUdpListener.tryRecordReplayStateAt_wf now nowNs d wf
  | evict now => exact (SecureUdpListener.evictStaleSendersAt_swept wf now).wf

/-- The sender's state covers the datagram. -/
def Spent (d : Sealed) (l : SecureUdpListener) : Prop :=
  ∃ state, l.stateOf d.frame.pid = some state ∧ Covered state d

theorem spent_of_delivers (d : Sealed) (l : SecureUdpListener) (op : SenderOp)
    (wf : l.StoreWf) (delivered : delivers d l op = true) : Spent d (applySenderOp l op) := by
  cases op with
  | evict now => cases delivered
  | record now nowNs e =>
    simp only [delivers, Bool.and_eq_true, decide_eq_true_eq] at delivered
    obtain ⟨rfl, accepted⟩ := delivered
    cases known : l.stateOf e.frame.pid with
    | none =>
      have after := (SecureUdpListener.tryRecordReplayStateAt_unknown now nowNs e wf known).2
        e.frame.pid
      rw [if_pos ⟨rfl, accepted⟩] at after
      exact ⟨_, after, Covered.of_new e now nowNs⟩
    | some state =>
      obtain ⟨_, verdict, after⟩ :=
        SecureUdpListener.tryRecordReplayStateAt_known now nowNs e wf known
      rw [accepted, eq_comm, Option.isSome_iff_exists] at verdict
      obtain ⟨state', verdict⟩ := verdict
      have after := after e.frame.pid
      rw [if_pos rfl, verdict] at after
      refine ⟨state', after, ?_⟩
      -- a restart and an advance both leave a state that covers the frame
      rcases SenderState.record_cases verdict with ⟨_, rfl⟩ | ⟨_, advance⟩
      · exact Covered.of_new e now nowNs
      · exact Covered.of_advances advance

/-- A datagram of the sender itself, under a state that has the spent one: it is another one,
or refused. -/
theorem spent_record_own {d e : Sealed} (honest : HonestSender pid sent) (member : d ∈ sent)
    (sent_e : e ∈ sent) {l : SecureUdpListener} {now nowNs : Nat} (wf : l.StoreWf)
    (here : e.frame.pid = pid) {state : SenderState} (known : l.stateOf pid = some state)
    (covered : Covered state d) (steady : initialises pid l (.record now nowNs e) = false) :
    delivers d l (.record now nowNs e) = false ∧ Spent d (applySenderOp l (.record now nowNs e)) := by
  have own := honest.own d member
  obtain ⟨_, verdict, after⟩ := SecureUdpListener.tryRecordReplayStateAt_known now nowNs e wf
    (here ▸ known)
  have after := after pid
  rw [if_pos here.symm] at after
  cases recorded : state.record l.sessionRestartGap now nowNs e with
  -- refused: the state is what it was
  | none =>
    rw [recorded] at verdict after
    refine ⟨?_, state, own ▸ after, covered⟩
    simp only [delivers, verdict, Option.isSome_none, Bool.and_false]
  | some state' =>
    rw [recorded] at verdict after
    simp only [initialises, here, decide_true, verdict, Option.isSome_some, Bool.true_and,
      known] at steady
    rcases SenderState.record_cases recorded with ⟨restart, _⟩ | ⟨_, advance⟩
    · rw [steady] at restart
      cases restart
    · constructor
      · -- the spent datagram itself would have been refused
        have other : e ≠ d := by
          rintro rfl
          rw [covered.refused steady] at recorded
          cases recorded
        simp only [delivers, other, decide_false, Bool.false_and]
      · exact ⟨state', own ▸ after, covered.advances
          (honest.counter_le member sent_e covered.clock) advance⟩

/-- Step lemma: a scheduled operation that does not initialise the sender neither accepts a
spent datagram nor makes it fresh. -/
theorem spent_step {d : Sealed} (honest : HonestSender pid sent) (member : d ∈ sent)
    (l : SecureUdpListener) (op : SenderOp) (wf : l.StoreWf) (spent : Spent d l)
    (calm : scheduled pid sent op = true ∧ initialises pid l op = false) :
    delivers d l op = false ∧ Spent d (applySenderOp l op) := by
  obtain ⟨state, known, covered⟩ := spent
  obtain ⟨fair, steady⟩ := calm
  have own := honest.own d member
  rw [own] at known
  cases op with
  | evict now =>
    -- losing the state counts as an initialisation
    refine ⟨rfl, state, ?_, covered⟩
    rcases (SecureUdpListener.evictStaleSendersAt_swept wf now).states pid with same | gone
    · rw [own]
      exact same.trans known
    · simp [initialises, known, gone.1] at steady
  | record now nowNs e =>
    by_cases here : e.frame.pid = pid
    · simp only [scheduled, decide_eq_true_eq] at fair
      exact spent_record_own honest member (fair here) wf here known covered steady
    · have other : e ≠ d := by
        rintro rfl
        exact here own
      refine ⟨by simp only [delivers, other, decide_false, Bool.false_and], state, ?_, covered⟩
      rw [own]
      exact (SecureUdpListener.stateOf_tryRecord_of_ne now nowNs e wf (Ne.symm here)).trans known

/-- Between two initialisations of the sender's state, every datagram is accepted at most
once: after any history `before`, in any schedule that starts with one step of any kind and
goes on without initialising the sender. -/
theorem delivers_at_most_once (hash32 : UInt32 → UInt32) (trust : TransportTrust)
    (gap bound : Nat) {pid : UInt32} {sent : List Sealed} (honest : HonestSender pid sent)
    {d : Sealed} (member : d ∈ sent) (before : List SenderOp) (first : SenderOp)
    (rest : List SenderOp)
    (calm : Steps.Guarded applySenderOp
      (fun l op => scheduled pid sent op = true ∧ initialises pid l op = false)
      (applySenderOp
        (Steps.run applySenderOp (SecureUdpListener.new hash32 trust gap bound) before) first)
      rest) :
    Steps.count applySenderOp (delivers d)
      (Steps.run applySenderOp (SecureUdpListener.new hash32 trust gap bound) before)
      (first :: rest) ≤ 1 := by
  have ready := Steps.run_invariant applySenderOp_wf before
    (SecureUdpListener.storeWf_new hash32 trust gap bound)
  exact calm.count_cons_le_one applySenderOp_wf (spent_of_delivers d) (spent_step honest member)
    ready

/-- Two beats of process 42, on one prefix. -/
def twoBeats : List Sealed :=
  [⟨7, 1, ⟨.ok, 42, 100, 1, 0⟩⟩, ⟨7, 2, ⟨.ok, 42, 200, 2, 0⟩⟩]

theorem honest_twoBeats : HonestSender 42 twoBeats := by
  refine ⟨by decide, by decide, List.pairwise_pair.mpr ⟨by decide, by decide, by decide⟩⟩

/-- The network delivers both beats and then the first once more. -/
def duplicatedBeat : List SenderOp :=
  [.record 1 1 ⟨7, 2, ⟨.ok, 42, 200, 2, 0⟩⟩, .record 2 2 ⟨7, 1, ⟨.ok, 42, 100, 1, 0⟩⟩]

set_option maxRecDepth 20000 in
theorem delivers_at_most_once_duplicatedBeat :
    Steps.count applySenderOp (delivers ⟨7, 1, ⟨.ok, 42, 100, 1, 0⟩⟩)
      (SecureUdpListener.new mix32 .operator 5 0)
      (.record 0 0 ⟨7, 1, ⟨.ok, 42, 100, 1, 0⟩⟩ :: duplicatedBeat) ≤ 1 :=
  delivers_at_most_once mix32 .operator 5 0 honest_twoBeats (List.mem_cons_self ..) []
    (.record 0 0 ⟨7, 1, ⟨.ok, 42, 100, 1, 0⟩⟩) duplicatedBeat (by decide +kernel)

end Varta.Watch
