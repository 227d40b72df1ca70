import Varta.Client.Beat
import Varta.Lib.Steps

/-!
# The stream of a client

A handle lives in one process after the other: a fork gives the child a copy of it. What the
transport accepts from one process are frames with consecutive nonces. They start at 1 in the
process that has connected, and in a child whose first beat finds the fork; a child that calls
`reconnect` first continues with the nonces of its parent.
-/
namespace Varta.Vlp

namespace Bytes32

/-- The nonce of a buffer, whether or not it decodes. -/
def wireNonce (b : Bytes32) : Nat := (b.slice 16 24).fromLe

def wireTimestamp (b : Bytes32) : Nat := (b.slice 8 16).fromLe

end Bytes32

namespace WireFrame

theorem toNat_ofNat_slice (b : Bytes32) {first : Nat} (inside : first + 8 ≤ 32) :
    (UInt64.ofNat (b.slice first (first + 8)).fromLe).toNat = (b.slice first (first + 8)).fromLe := by
  have bound := Bytes.fromLe_lt (b.slice first (first + 8))
  rw [length_slice b (Nat.le_add_right _ _) inside, Nat.add_sub_cancel_left] at bound
  exact UInt64.toNat_ofNat_of_lt' bound

theorem wireNonce_encode (f : WireFrame) : f.encode.wireNonce = f.nonce.toNat := by
  have reads : Reads f.encode f := reads_iff.mpr rfl
  rw [reads.nonce]
  exact (toNat_ofNat_slice f.encode (by decide : 16 + 8 ≤ 32)).symm

theorem wireTimestamp_encode (f : WireFrame) : f.encode.wireTimestamp = f.timestamp.toNat := by
  have reads : Reads f.encode f := reads_iff.mpr rfl
  rw [reads.timestamp]
  exact (toNat_ofNat_slice f.encode (by decide : 8 + 8 ≤ 32)).symm

end WireFrame

end Varta.Vlp

namespace Varta.Client

open Machine Vlp

/-! ### Nonces in a row -/

/-- The nonce after `n`; the sentinel is left out. -/
def nextNonce (n : Nat) : Nat := if n < nonceTerminal - 1 then n + 1 else 0

/-- The `n` nonces after `base`. -/
def noncesAfter (base n : Nat) : List Nat := (List.range n).map fun i => nextNonce^[i + 1] base

theorem nextNonce_ne_terminal (n : Nat) : nextNonce n ≠ nonceTerminal := by
  unfold nextNonce nonceTerminal u64Bound
  split <;> omega

theorem noncesAfter_succ (base n : Nat) :
    noncesAfter base (n + 1) = noncesAfter base n ++ [nextNonce (nextNonce^[n] base)] := by
  rw [noncesAfter, List.range_succ, List.map_append, List.map_singleton,
    Function.iterate_succ_apply']
  rfl

theorem regular_of_mem_noncesAfter {base n nonce : Nat} (there : nonce ∈ noncesAfter base n) :
    nonce ≠ nonceTerminal := by
  obtain ⟨i, _, rfl⟩ := List.mem_map.mp there
  rw [Function.iterate_succ_apply']
  exact nextNonce_ne_terminal _

section

variable {T : Type} (v : Handle T) (process : Process) (clock : Nat) (status : Status)
  (payload : UInt32)

theorem Handle.candidate_nonce :
    (v.candidate process clock status payload).nonce.toNat = nextNonce v.nonce.toNat := by
  unfold Handle.candidate WireFrame.new Handle.nextRegularNonce nextNonce
  dsimp only
  split
  next room =>
    rw [UInt64.toNat_add]
    exact Nat.mod_eq_of_lt (by unfold nonceTerminal u64Bound at room; simp; omega)
  next => rfl

theorem Handle.candidate_timestamp :
    (v.candidate process clock status payload).timestamp.toNat =
      max v.lastTimestamp.toNat (elapsed v.start clock) := by
  have fits : elapsed v.start clock < 2 ^ 64 := by
    unfold elapsed u64Bound
    omega
  unfold Handle.candidate WireFrame.new Handle.rawElapsed
  rw [UInt64.toNat_max, UInt64.toNat_ofNat_of_lt' fits]

end

/-! ### Processes and their handles -/

/-- A buffer that the transport took, with what was submitted. -/
structure Accepted where
  bytes : Bytes32
  status : Status
  payload : UInt32
  pid : UInt32
  deriving DecidableEq

/-- A process with its copy of the handle, and its history. -/
structure Agent (T : Type) where
  process : Process
  handle : Handle T
  /-- What the transport has taken from this process, oldest first. -/
  accepted : List Accepted
  /-- The nonce of the handle when the process began. -/
  inherited : Nat
  /-- The process has called `reconnect` on a handle that it had from its parent. -/
  resumed : Bool

inductive Event where
  | beat (status : Status) (payload : UInt32) (now clock : Nat)
  | reconnect
  | setReconnectAfter (n : Nat)
  | fork (childPid : UInt32)

namespace Agent

variable {T : Type}

def initial (process : Process) (handle : Handle T) : Agent T := ⟨process, handle, [], 0, false⟩

/-- The nonce that the stream of the process follows on. -/
def base (a : Agent T) : Nat := if a.resumed then a.inherited else 0

section

variable [BeatTransport T]

def beat (a : Agent T) (status : Status) (payload : UInt32) (now clock : Nat) : Agent T :=
  let r := a.handle.beat a.process now clock status payload
  { a with
    handle := r.handle
    accepted := a.accepted ++ r.accepted.map (⟨·, status, payload, a.process.pid⟩) }

def reconnect (a : Agent T) : Agent T :=
  let (result, handle) := a.handle.reconnect a.process
  { a with handle, resumed := a.resumed || a.handle.stale a.process && result.isOk }

/-- The child takes the parent's place. -/
def fork (a : Agent T) (childPid : UInt32) : Agent T :=
  ⟨a.process.fork childPid, a.handle, [], a.handle.nonce.toNat, false⟩

def apply (a : Agent T) : Event → Agent T
  | .beat status payload now clock => a.beat status payload now clock
  | .reconnect => a.reconnect
  | .setReconnectAfter n => { a with handle := a.handle.setReconnectAfter n }
  | .fork childPid => a.fork childPid

/-- A child does not have both the pid and the epoch of the process that the handle is of. It
takes 2^64 forks to come back to an epoch. -/
def Distinct (a : Agent T) : Event → Prop
  | .fork childPid => a.handle.stale (a.process.fork childPid) = true
  | _ => True

instance (a : Agent T) : DecidablePred a.Distinct
  | .fork _ => inferInstanceAs (Decidable (_ = true))
  | .beat .. => isTrue trivial
  | .reconnect => isTrue trivial
  | .setReconnectAfter _ => isTrue trivial

/-- A beat comes before the timestamps run out. -/
def Timely (a : Agent T) : Event → Prop
  | .beat _ _ now clock =>
    elapsed (if a.handle.stale a.process then now else a.handle.start) clock < u64Bound - 1
  | _ => True

end

end Agent

/-! ### The invariant -/

/-- The handle stands at the end of the frames accepted so far. -/
structure Positioned {T : Type} (base : Nat) (accepted : List Accepted) (v : Handle T) : Prop where
  nonces : accepted.map (·.bytes.wireNonce) = noncesAfter base accepted.length
  nonce : v.nonce.toNat = nextNonce^[accepted.length] base
  sorted : (accepted.map (·.bytes.wireTimestamp)).Pairwise (· ≤ ·)
  latest : ∀ f ∈ accepted, f.bytes.wireTimestamp ≤ v.lastTimestamp.toNat

variable {process : Process}

section

variable {T : Type} {base : Nat} {accepted : List Accepted} {v w : Handle T}

theorem positioned_nil (start : v.nonce.toNat = base) : Positioned base [] v :=
  ⟨rfl, start, List.Pairwise.nil, fun _ there => (by cases there)⟩

theorem Positioned.congr (positioned : Positioned base accepted v) (nonce : w.nonce = v.nonce)
    (lastTimestamp : w.lastTimestamp = v.lastTimestamp) : Positioned base accepted w := by
  refine ⟨positioned.nonces, ?_, positioned.sorted, ?_⟩
  · rw [nonce]
    exact positioned.nonce
  · rw [lastTimestamp]
    exact positioned.latest

/-- One more frame, or none. -/
theorem Positioned.emitted {clock : Nat} {status : Status} {payload pid : UInt32} {r : Beaten T}
    (positioned : Positioned base accepted v)
    (emitted : Handle.Emitted (v.candidate process clock status payload) v r) :
    Positioned base (accepted ++ r.accepted.map (⟨·, status, payload, pid⟩)) r.handle := by
  cases emitted with
  | unsent outcome nothing same =>
    rw [nothing, List.map_nil, List.append_nil]
    exact positioned.congr same.nonce same.lastTimestamp
  | sent outcome one advanced =>
    have nonce := v.candidate_nonce process clock status payload
    have timestamp := v.candidate_timestamp process clock status payload
    generalize v.candidate process clock status payload = frame at *
    -- a clock that goes back does not take the timestamps with it
    have later : v.lastTimestamp.toNat ≤ frame.timestamp.toNat := by
      rw [timestamp]
      exact Nat.le_max_left _ _
    rw [one, List.map_singleton]
    constructor
    · rw [List.map_append, positioned.nonces, List.length_append, List.length_singleton,
        noncesAfter_succ, ← positioned.nonce, ← nonce]
      exact congrArg (noncesAfter base accepted.length ++ [·]) frame.wireNonce_encode
    · rw [advanced.nonce, nonce, positioned.nonce, List.length_append, List.length_singleton,
        Function.iterate_succ_apply']
    · rw [List.map_append, List.pairwise_append]
      refine ⟨positioned.sorted, List.pairwise_singleton _ _, fun earlier there now last => ?_⟩
      obtain ⟨f, member, rfl⟩ := List.mem_map.mp there
      rw [List.mem_singleton.mp last]
      change f.bytes.wireTimestamp ≤ frame.encode.wireTimestamp
      rw [WireFrame.wireTimestamp_encode]
      exact Nat.le_trans (positioned.latest f member) later
    · intro f there
      rw [advanced.lastTimestamp]
      rcases List.mem_append.mp there with before | now
      · exact Nat.le_trans (positioned.latest f before) later
      · rw [List.mem_singleton.mp now, WireFrame.wireTimestamp_encode]

theorem Handle.stale_congr (connectPid : w.connectPid = v.connectPid)
    (connectForkEpoch : w.connectForkEpoch = v.connectForkEpoch) :
    w.stale process = v.stale process := by
  unfold Handle.stale
  rw [connectPid, connectForkEpoch]

theorem Handle.own_of_not_stale (fresh : v.stale process = false) :
    v.connectPid = process.pid ∧ v.connectForkEpoch = process.forkEpoch := by
  simp only [Handle.stale, Bool.or_eq_false_iff, decide_eq_false_iff_not, not_not] at fresh
  exact ⟨fresh.1.symm, fresh.2.symm⟩

theorem Handle.Emitted.identity {frame : WireFrame} {r : Beaten T} (emitted : Handle.Emitted frame v r) :
    r.handle.connectPid = v.connectPid ∧ r.handle.connectForkEpoch = v.connectForkEpoch := by
  cases emitted with
  | sent outcome accepted advanced => exact ⟨advanced.connectPid, advanced.connectForkEpoch⟩
  | unsent outcome accepted same => exact ⟨same.connectPid, same.connectForkEpoch⟩

theorem Handle.stale_own (connectPid : v.connectPid = process.pid)
    (connectForkEpoch : v.connectForkEpoch = process.forkEpoch) : v.stale process = false := by
  unfold Handle.stale
  rw [connectPid, connectForkEpoch]
  simp

end

namespace Agent

variable {T : Type}

/-- A handle from the parent has not been used yet; any other stands at the end of its stream. -/
structure Streams (a : Agent T) : Prop where
  waiting : a.handle.stale a.process = true →
    a.accepted = [] ∧ a.resumed = false ∧ a.handle.nonce.toNat = a.inherited
  positioned : a.handle.stale a.process = false → Positioned a.base a.accepted a.handle

variable {a : Agent T} {process : Process} {payload : UInt32} {status : Status} {v : Handle T}
  {clock : Nat}

theorem Streams.same {handle : Handle T} (streams : Streams a) (same : Handle.Same a.handle handle) :
    Streams { a with handle } := by
  have stale : handle.stale a.process = a.handle.stale a.process :=
    Handle.stale_congr same.connectPid same.connectForkEpoch
  constructor
  · rw [stale, same.nonce]
    exact streams.waiting
  · rw [stale]
    exact fun own => (streams.positioned own).congr same.nonce same.lastTimestamp

/-- A stream that the process's own handle stands at. -/
theorem streams_own (connectPid : a.handle.connectPid = a.process.pid)
    (connectForkEpoch : a.handle.connectForkEpoch = a.process.forkEpoch)
    (positioned : Positioned a.base a.accepted a.handle) : Streams a := by
  refine ⟨fun absurd => ?_, fun _ => positioned⟩
  rw [Handle.stale_own connectPid connectForkEpoch] at absurd
  cases absurd

/-- A child has not used its handle. -/
theorem streams_fork {childPid : UInt32} (stale : a.handle.stale (a.process.fork childPid) = true) :
    Streams (a.fork childPid) :=
  ⟨fun _ => ⟨rfl, rfl, rfl⟩, fun fresh => absurd (stale.symm.trans fresh) (by decide)⟩

section

variable [BeatTransport T]

theorem Streams.beat (streams : Streams a) (status : Status) (payload : UInt32) (now clock : Nat) :
    Streams (a.beat status payload now clock) := by
  have beats := a.handle.beat_beats a.process now clock status payload
  unfold Agent.beat
  dsimp only
  generalize a.handle.beat a.process now clock status payload = r at beats
  cases beats with
  | refused outcome nothing same =>
    rw [nothing, List.map_nil, List.append_nil]
    exact streams.same same
  | current regular fresh emitted =>
    obtain ⟨pid, epoch⟩ := Handle.own_of_not_stale fresh
    obtain ⟨samePid, sameEpoch⟩ := emitted.identity
    exact streams_own (samePid.trans pid) (sameEpoch.trans epoch)
      ((streams.positioned fresh).emitted emitted)
  | recovered regular stale w opened emitted =>
    -- nothing has been sent from this process, and the new session starts at zero
    obtain ⟨nothing, idle, _⟩ := streams.waiting stale
    obtain ⟨samePid, sameEpoch⟩ := emitted.identity
    have start : Positioned a.base a.accepted w := by
      rw [nothing]
      refine positioned_nil ?_
      rw [opened.nonce, base, idle]
      rfl
    exact streams_own (samePid.trans opened.connectPid) (sameEpoch.trans opened.connectForkEpoch)
      (start.emitted emitted)

theorem Streams.reconnect (streams : Streams a) : Streams a.reconnect := by
  obtain ⟨nonce, lastTimestamp, start, outcome⟩ := a.handle.reconnect_cases a.process
  unfold Agent.reconnect
  generalize a.handle.reconnect a.process = result at nonce lastTimestamp start outcome
  obtain ⟨result, handle⟩ := result
  dsimp only at nonce lastTimestamp start outcome ⊢
  rcases outcome with ⟨rfl, pid, epoch⟩ | ⟨failed, same⟩
  · refine streams_own pid epoch ?_
    cases stale : a.handle.stale a.process with
    | true =>
      -- the child goes on where its parent was
      obtain ⟨nothing, idle, inherited⟩ := streams.waiting stale
      dsimp only
      rw [nothing]
      refine positioned_nil ?_
      rw [nonce, inherited, base, idle]
      rfl
    | false =>
      have positioned := (streams.positioned stale).congr nonce lastTimestamp
      rw [base, Bool.false_and, Bool.or_false]
      exact positioned
  · cases result with
    | ok done => exact absurd rfl failed
    | error e =>
      have kept := streams.same same
      rw [show (Except.error e : Except IoError Unit).isOk = false from rfl, Bool.and_false,
        Bool.or_false]
      exact kept

/-- Step lemma. -/
theorem Streams.apply (a : Agent T) (event : Event) (streams : Streams a)
    (distinct : a.Distinct event) : Streams (a.apply event) := by
  cases event with
  | beat status payload now clock => exact streams.beat status payload now clock
  | reconnect => exact streams.reconnect
  | setReconnectAfter n => exact streams.same ⟨rfl, rfl, rfl, rfl, rfl⟩
  | fork childPid => exact streams_fork distinct

/-! ### Decoding -/

/-- What was submitted is what the observer reads. -/
structure Decodable (a : Agent T) : Prop where
  below : a.handle.lastTimestamp.toNat < u64Bound - 1
  decodes : 2 ≤ a.process.pid → ∀ f ∈ a.accepted, ∃ frame, WireFrame.decode f.bytes = .ok frame ∧
    frame.status = f.status ∧ frame.payload = f.payload ∧ frame.pid = a.process.pid

omit [BeatTransport T] in
theorem candidate_valid (regular : status ≠ .stall) (agent : 2 ≤ process.pid)
    (below : v.lastTimestamp.toNat < u64Bound - 1) (timely : elapsed v.start clock < u64Bound - 1) :
    (v.candidate process clock status payload).Valid where
  magic := rfl
  version := rfl
  status := regular
  pid := agent
  timestamp := by
    rw [v.candidate_timestamp]
    exact Nat.max_lt.mpr ⟨below, timely⟩
  nonce terminal := by
    rw [v.candidate_nonce] at terminal
    exact absurd terminal (nextNonce_ne_terminal _)

omit [BeatTransport T] in
theorem Decodable.emitted {r : Beaten T} (decodable : Decodable a) (regular : status ≠ .stall)
    (below : v.lastTimestamp.toNat < u64Bound - 1) (timely : elapsed v.start clock < u64Bound - 1)
    (emitted : Handle.Emitted (v.candidate a.process clock status payload) v r) :
    Decodable { a with
      handle := r.handle
      accepted := a.accepted ++ r.accepted.map (⟨·, status, payload, a.process.pid⟩) } := by
  cases emitted with
  | unsent outcome nothing same =>
    rw [nothing, List.map_nil, List.append_nil]
    refine ⟨?_, decodable.decodes⟩
    rw [same.lastTimestamp]
    exact below
  | sent outcome one advanced =>
    rw [one, List.map_singleton]
    refine ⟨?_, fun agent f there => ?_⟩
    · rw [advanced.lastTimestamp, v.candidate_timestamp]
      exact Nat.max_lt.mpr ⟨below, timely⟩
    · rcases List.mem_append.mp there with before | now
      · exact decodable.decodes agent f before
      · rw [List.mem_singleton.mp now]
        refine ⟨v.candidate a.process clock status payload, ?_, rfl, rfl, rfl⟩
        exact WireFrame.decode_eq_ok_iff_encode.mpr
          ⟨candidate_valid regular agent below timely, rfl⟩

theorem Decodable.beat (decodable : Decodable a) {now : Nat}
    (timely : a.Timely (.beat status payload now clock)) :
    Decodable (a.beat status payload now clock) := by
  have beats := a.handle.beat_beats a.process now clock status payload
  unfold Agent.beat
  unfold Timely at timely
  dsimp only at timely ⊢
  generalize a.handle.beat a.process now clock status payload = r at beats
  cases beats with
  | refused outcome nothing same =>
    rw [nothing, List.map_nil, List.append_nil]
    exact ⟨same.lastTimestamp ▸ decodable.below, decodable.decodes⟩
  | current regular fresh emitted =>
    rw [fresh] at timely
    exact decodable.emitted regular decodable.below timely emitted
  | recovered regular stale w opened emitted =>
    rw [if_pos stale, ← opened.start] at timely
    refine decodable.emitted regular ?_ timely emitted
    rw [opened.lastTimestamp]
    decide

/-- Step lemma. -/
theorem Decodable.apply (a : Agent T) (event : Event) (decodable : Decodable a)
    (timely : a.Timely event) : Decodable (a.apply event) := by
  cases event with
  | beat status payload now clock => exact decodable.beat timely
  | reconnect =>
    have kept := (a.handle.reconnect_cases a.process).2.1
    exact ⟨kept ▸ decodable.below, decodable.decodes⟩
  | setReconnectAfter n => exact ⟨decodable.below, decodable.decodes⟩
  | fork childPid => exact ⟨decodable.below, fun _ f there => (by cases there)⟩

/-! ### Every run -/

/-- A beat has at most one frame accepted. Without `Sent` there is none, and the stream stands where
it stood, or at the start of the session that a fork has made necessary. -/
structure Commits (v : Handle T) (process : Process) (r : Beaten T) : Prop where
  once : r.accepted.length ≤ 1
  unsent : r.outcome ≠ .sent → r.accepted = [] ∧
    (r.handle.nonce = v.nonce ∧ r.handle.lastTimestamp = v.lastTimestamp ∨
      v.stale process = true ∧ r.handle.nonce = 0 ∧ r.handle.lastTimestamp = 0)

omit [BeatTransport T] in
theorem emitted_commits {frame : WireFrame} {w : Handle T} {r : Beaten T}
    (emitted : Handle.Emitted frame w r)
    (before : w.nonce = v.nonce ∧ w.lastTimestamp = v.lastTimestamp ∨
      v.stale process = true ∧ w.nonce = 0 ∧ w.lastTimestamp = 0) :
    Commits v process r := by
  cases emitted with
  | sent outcome one advanced => exact ⟨by rw [one]; simp, fun unsent => absurd outcome unsent⟩
  | unsent outcome nothing same =>
    refine ⟨by rw [nothing]; simp, fun _ => ⟨nothing, ?_⟩⟩
    rw [same.nonce, same.lastTimestamp]
    exact before

theorem beat_commits (v : Handle T) (process : Process) (now clock : Nat) (status : Status)
    (payload : UInt32) : Commits v process (v.beat process now clock status payload) := by
  cases v.beat_beats process now clock status payload with
  | refused outcome nothing same =>
    exact ⟨by rw [nothing]; simp, fun _ => ⟨nothing, Or.inl ⟨same.nonce, same.lastTimestamp⟩⟩⟩
  | current regular fresh emitted => exact emitted_commits emitted (Or.inl ⟨rfl, rfl⟩)
  | recovered regular stale w opened emitted =>
    exact emitted_commits emitted (Or.inr ⟨stale, opened.nonce, opened.lastTimestamp⟩)

/-- The frames of one process, and what its next beat does. -/
structure Stream (a : Agent T) : Prop where
  nonces : a.accepted.map (·.bytes.wireNonce) = noncesAfter a.base a.accepted.length
  regular : ∀ f ∈ a.accepted, f.bytes.wireNonce ≠ nonceTerminal
  timestamps : (a.accepted.map (·.bytes.wireTimestamp)).Pairwise (· ≤ ·)
  commits : ∀ status payload now clock,
    Commits a.handle a.process (a.handle.beat a.process now clock status payload)

theorem Streams.stream (streams : Streams a) : Stream a := by
  have ordered : a.accepted.map (·.bytes.wireNonce) = noncesAfter a.base a.accepted.length ∧
      (a.accepted.map (·.bytes.wireTimestamp)).Pairwise (· ≤ ·) := by
    cases stale : a.handle.stale a.process with
    | true =>
      rw [(streams.waiting stale).1]
      exact ⟨rfl, List.Pairwise.nil⟩
    | false => exact ⟨(streams.positioned stale).nonces, (streams.positioned stale).sorted⟩
  refine ⟨ordered.1, fun f there => ?_, ordered.2, fun status payload now clock => ?_⟩
  · refine @regular_of_mem_noncesAfter a.base a.accepted.length _ ?_
    rw [← ordered.1]
    exact List.mem_map_of_mem there
  · exact beat_commits _ _ _ _ _ _

omit [BeatTransport T] in
theorem connect_opened {start : Nat} {registered : Except IoError Unit} {opened : Except IoError T}
    (connected : Handle.connect process start registered opened = .ok v) :
    Handle.Opened process start v := by
  unfold Handle.connect at connected
  cases registered with
  | error e => cases connected
  | ok done =>
    cases opened with
    | error e => cases connected
    | ok transport =>
      cases connected
      exact ⟨rfl, rfl, rfl, rfl, rfl⟩

/-- In every run of beats, reconnects and forks the transport accepts from each process frames with
consecutive nonces, which start at 1 unless the process has called `reconnect` on its parent's
handle. Their timestamps do not go back. If no timestamp runs out, they decode to what was
submitted. -/
theorem beat_stream {process : Process} {start : Nat} {registered : Except IoError Unit}
    {opened : Except IoError T} {v : Handle T}
    (connected : Handle.connect process start registered opened = .ok v) (events : List Event)
    (distinct : Steps.Guarded apply Distinct (initial process v) events) :
    Stream (Steps.run apply (initial process v) events) ∧
      (Steps.Guarded apply Timely (initial process v) events →
        2 ≤ (Steps.run apply (initial process v) events).process.pid →
        ∀ f ∈ (Steps.run apply (initial process v) events).accepted,
          ∃ frame, WireFrame.decode f.bytes = .ok frame ∧ frame.status = f.status ∧
            frame.payload = f.payload ∧
            frame.pid = (Steps.run apply (initial process v) events).process.pid) := by
  have new := connect_opened connected
  have streams : Streams (initial process v) := by
    refine streams_own new.connectPid new.connectForkEpoch (positioned_nil ?_)
    change v.nonce.toNat = 0
    rw [new.nonce]
    rfl
  have decodable : Decodable (initial process v) := by
    refine ⟨?_, fun _ f there => (by cases there)⟩
    change v.lastTimestamp.toNat < u64Bound - 1
    rw [new.lastTimestamp]
    decide
  refine ⟨(distinct.invariant Streams.apply streams).stream, fun timely => ?_⟩
  exact (timely.invariant Decodable.apply decodable).decodes

end

end Agent

/-! ### A beat sent again -/

/-- A transport that gives these answers to `send`, and takes everything after that. -/
structure Scripted where
  answers : List (Except IoError Nat)

instance : BeatTransport Scripted where
  send
    | ⟨[]⟩, _ => (.ok 32, ⟨[]⟩)
    | ⟨answer :: answers⟩, _ => (answer, ⟨answers⟩)
  expectedSendLen _ := 32
  reconnect t := (.ok (), t)

def firstProcess : Process := ⟨10, 0⟩

/-- Process 10 connects over this transport, and the events follow. -/
def agentAfter (answers : List (Except IoError Nat)) (events : List Event) :
    Option (Agent Scripted) :=
  match Handle.connect firstProcess 0 (.ok ()) (.ok (⟨answers⟩ : Scripted)) with
  | .ok v => some (Steps.run Agent.apply (Agent.initial firstProcess v) events)
  | .error _ => none

def okBeat (clock : Nat) : Event := .beat .ok 7 clock clock

def retriedAndForked : List Event :=
  [.setReconnectAfter 1, okBeat 5, okBeat 6, .fork 11, okBeat 7]

set_option maxRecDepth 20000 in
/-- A dropped beat is sent again over a new connection, and a beat of the child finds the fork. -/
theorem beat_stream_retried :
    (agentAfter [.error ⟨none, .wouldBlock⟩] retriedAndForked).map
        (fun a => (a.process.pid, a.accepted.map (·.bytes.wireNonce))) = some (11, [1]) ∧
      ∃ v, Handle.connect firstProcess 0 (.ok ()) (.ok (⟨[.error ⟨none, .wouldBlock⟩]⟩ : Scripted)) =
          .ok v ∧
        Agent.Stream (Steps.run Agent.apply (Agent.initial firstProcess v) retriedAndForked) := by
  have connected : Handle.connect firstProcess 0 (.ok ())
      (.ok (⟨[.error ⟨none, .wouldBlock⟩]⟩ : Scripted)) = .ok _ := rfl
  refine ⟨by decide +kernel, _, connected, (Agent.beat_stream connected retriedAndForked ?_).1⟩
  decide +kernel

/-! ### Children that go on -/

/-- Each fork counts the epoch up; the handle stays. -/
theorem Agent.run_forks {T : Type} [BeatTransport T] (a : Agent T) (childPid : UInt32) (n : Nat) :
    Steps.run Agent.apply a (List.replicate (n + 1) (.fork childPid)) =
      ⟨⟨childPid, a.process.forkEpoch + UInt64.ofNat (n + 1)⟩, a.handle, [], a.handle.nonce.toNat,
        false⟩ := by
  induction n generalizing a with
  | zero => rfl
  | succ n ih =>
    rw [List.replicate_succ, Steps.run_cons, ih]
    have counted : a.process.forkEpoch + 1 + UInt64.ofNat (n + 1) =
        a.process.forkEpoch + UInt64.ofNat (n + 1 + 1) := by
      rw [UInt64.add_assoc, UInt64.ofNat_add (n + 1) 1, UInt64.add_comm 1]
      rfl
    rw [← counted]
    rfl

/-- After 2^64 forks a child can have the pid and the epoch of the process they began with. -/
theorem Agent.run_lap {T : Type} [BeatTransport T] (a : Agent T) :
    Steps.run Agent.apply a (List.replicate (2 ^ 64) (.fork a.process.pid)) =
      ⟨a.process, a.handle, [], a.handle.nonce.toNat, false⟩ := by
  rw [show 2 ^ 64 = 2 ^ 64 - 1 + 1 from rfl, Agent.run_forks]
  have lap : a.process.forkEpoch + UInt64.ofNat (2 ^ 64 - 1 + 1) = a.process.forkEpoch :=
    UInt64.add_zero a.process.forkEpoch
  rw [lap]

theorem agentAfter_append (answers : List (Except IoError Nat)) (events later : List Event) :
    agentAfter answers (events ++ later) =
      (agentAfter answers events).map (Steps.run Agent.apply · later) := by
  unfold agentAfter
  split
  · rw [Steps.run_append, Option.map_some]
  · rfl

theorem agentAfter_lap :
    agentAfter [] (okBeat 5 :: List.replicate (2 ^ 64) (.fork 10)) =
      (agentAfter [] [okBeat 5]).map fun a => ⟨a.process, a.handle, [], a.handle.nonce.toNat, false⟩ := by
  have pid : (agentAfter [] [okBeat 5]).map (·.process.pid) = some 10 := by decide +kernel
  rw [← List.singleton_append, agentAfter_append]
  cases first : agentAfter [] [okBeat 5] with
  | none =>
    rw [first] at pid
    cases pid
  | some a =>
    rw [first] at pid
    have own : a.process.pid = 10 := Option.some.inj pid
    rw [Option.map_some, Option.map_some, ← own, a.run_lap]

set_option maxRecDepth 20000 in
/-- The first frame of a child carries nonce 2: of one that reconnects before it beats, and of one
that cannot be told from the process that has connected. -/
theorem child_continues :
    (agentAfter [] [okBeat 5, .fork 11, .reconnect, okBeat 6]).map
        (fun a => (a.process.pid, a.accepted.map (·.bytes.wireNonce))) = some (11, [2]) ∧
      (agentAfter [] (okBeat 5 :: List.replicate (2 ^ 64) (.fork 10) ++ [okBeat 6])).map
        (fun a => (a.process.pid, a.accepted.map (·.bytes.wireNonce))) = some (10, [2]) := by
  refine ⟨by decide +kernel, ?_⟩
  rw [agentAfter_append, agentAfter_lap]
  decide +kernel

end Varta.Client
