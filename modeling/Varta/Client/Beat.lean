import Varta.Client.Panic
import Varta.Vlp.Codec

/-!
# The client handle

`Varta` of `varta-client/src/client.rs` over any transport. A transport is a type with the
operations of the trait `BeatTransport`, whatever they answer; the process and the clock are
inputs of each call. A call reports the buffers that the transport took in full.
-/
namespace Varta.Client

open Machine Vlp

/-! ### Errors and outcomes -/

/-- The kinds of `io::ErrorKind` that the client tells apart. -/
inductive ErrorKind where
  | wouldBlock
  | connectionRefused
  | notFound
  | connectionReset
  | notConnected
  | brokenPipe
  | invalidInput
  | writeZero
  | other
  deriving DecidableEq, Repr

structure IoError where
  rawOsError : Option Nat
  kind : ErrorKind
  deriving DecidableEq, Repr

/-- The number on Linux. -/
def enobufs : Nat := 105

def enospc : Nat := 28

inductive DropReason where
  | kernelQueueFull
  | noObserver
  | peerGone
  | storageFull
  deriving DecidableEq, Repr

structure BeatError where
  errno : Nat
  kind : ErrorKind
  deriving DecidableEq, Repr

def BeatError.unknownErrno : Nat := 0

def BeatError.invalidStatus : BeatError := ⟨unknownErrno, .invalidInput⟩

def BeatError.shortSend : BeatError := ⟨unknownErrno, .writeZero⟩

def BeatError.fromIo (e : IoError) : BeatError := ⟨e.rawOsError.getD unknownErrno, e.kind⟩

inductive BeatOutcome where
  | sent
  | dropped (reason : DropReason)
  | failed (error : BeatError)
  deriving DecidableEq, Repr

def classifySendError (e : IoError) : BeatOutcome :=
  if e.rawOsError = some enobufs then .dropped .kernelQueueFull
  else if e.rawOsError = some enospc then .dropped .storageFull
  else
    match e.kind with
    | .wouldBlock => .dropped .kernelQueueFull
    | .connectionRefused | .notFound => .dropped .noObserver
    | .connectionReset | .notConnected | .brokenPipe => .dropped .peerGone
    | _ => .failed (.fromIo e)

theorem classifySendError_ne_sent (e : IoError) : classifySendError e ≠ .sent := by
  unfold classifySendError
  split
  · simp
  split
  · simp
  split <;> simp

/-! ### The handle -/

class BeatTransport (T : Type) where
  send : T → Bytes32 → Except IoError Nat × T
  expectedSendLen : T → Nat
  reconnect : T → Except IoError Unit × T

/-- `Varta<T>`. -/
structure Handle (T : Type) where
  transport : T
  buf : Bytes32
  start : Nat
  nonce : UInt64
  consecutiveDropped : Nat
  reconnectAfter : Nat
  lastTimestamp : UInt64
  clockRegressions : Nat
  connectPid : UInt32
  connectForkEpoch : UInt64
  forkRecoveries : Nat

/-- What a beat leaves behind. -/
structure Beaten (T : Type) where
  outcome : BeatOutcome
  handle : Handle T
  accepted : List Bytes32

namespace Handle

variable {T : Type}

/-- `connect` and its siblings, which differ in the transport they open. -/
def connect (process : Process) (start : Nat) (registered : Except IoError Unit)
    (opened : Except IoError T) : Except IoError (Handle T) := do
  registered
  let transport ← opened
  return {
    transport
    buf := Bytes32.zero
    start
    nonce := 0
    consecutiveDropped := 0
    reconnectAfter := 0
    lastTimestamp := 0
    clockRegressions := 0
    connectPid := process.pid
    connectForkEpoch := process.forkEpoch
    forkRecoveries := 0 }

/-- The next nonce, and whether the counter has wrapped. -/
def nextRegularNonce (v : Handle T) : UInt64 × Bool :=
  if v.nonce.toNat < nonceTerminal - 1 then (v.nonce + 1, false) else (0, true)

def commitSentFrame (v : Handle T) (nonce timestamp : UInt64) : Handle T :=
  { v with nonce, lastTimestamp := timestamp }

/-- The pid or the epoch is not that of the process which connected. -/
def stale (v : Handle T) (process : Process) : Bool :=
  process.pid ≠ v.connectPid || process.forkEpoch ≠ v.connectForkEpoch

def rawElapsed (v : Handle T) (clock : Nat) : UInt64 := UInt64.ofNat (elapsed v.start clock)

/-- The frame that a beat builds. -/
def candidate (v : Handle T) (process : Process) (clock : Nat) (status : Status)
    (payload : UInt32) : WireFrame :=
  .new status process.pid (max v.lastTimestamp (v.rawElapsed clock)) v.nextRegularNonce.1 payload

section

variable [BeatTransport T]

def sendFrame (v : Handle T) : Beaten T :=
  let expectedLen := BeatTransport.expectedSendLen v.transport
  match BeatTransport.send v.transport v.buf with
  | (.ok n, transport) =>
    if n = expectedLen then ⟨.sent, { v with transport }, [v.buf]⟩
    else ⟨.failed .shortSend, { v with transport }, []⟩
  | (.error e, transport) => ⟨classifySendError e, { v with transport }, []⟩

/-- The fork branch of `beat`: on success a new session starts. -/
def recover (v : Handle T) (process : Process) (now : Nat) : Except BeatError Unit × Handle T :=
  match BeatTransport.reconnect v.transport with
  | (.error e, transport) => (.error (.fromIo e), { v with transport })
  | (.ok (), transport) => (.ok (), { v with
      transport
      connectPid := process.pid
      connectForkEpoch := process.forkEpoch
      forkRecoveries := u64SaturatingAdd v.forkRecoveries 1
      nonce := 0
      start := now
      lastTimestamp := 0
      consecutiveDropped := 0 })

/-- The retry of a dropped frame over a new connection. -/
def retry (v : Handle T) (frame : WireFrame) (dropped : Beaten T) : Beaten T :=
  match BeatTransport.reconnect v.transport with
  | (.error _, transport) => { dropped with handle := { v with transport } }
  | (.ok (), transport) =>
    let again := sendFrame { v with transport }
    { again with
      handle := if again.outcome = .sent then again.handle.commitSentFrame frame.nonce frame.timestamp
        else again.handle
      accepted := dropped.accepted ++ again.accepted }

/-- The part of `beat` after the fork check. -/
def emit (v : Handle T) (process : Process) (clock : Nat) (status : Status) (payload : UInt32) :
    Beaten T :=
  let frame := v.candidate process clock status payload
  let clockRegressions :=
    if v.rawElapsed clock < v.lastTimestamp then u64SaturatingAdd v.clockRegressions 1
    else v.clockRegressions
  let first := sendFrame { v with clockRegressions, buf := frame.encode }
  match first.outcome with
  | .sent => { first with handle :=
      { first.handle.commitSentFrame frame.nonce frame.timestamp with consecutiveDropped := 0 } }
  | .dropped _ =>
    let v := { first.handle with
      consecutiveDropped := u32SaturatingAdd first.handle.consecutiveDropped 1 }
    if v.reconnectAfter > 0 ∧ v.consecutiveDropped ≥ v.reconnectAfter then
      -- reset before the reconnect, so that a failed one does not rebuild a socket every beat
      retry { v with consecutiveDropped := 0 } frame first
    else { first with handle := v }
  | .failed _ => { first with handle := { first.handle with consecutiveDropped := 0 } }

/-- `now` is the instant of a session that starts in this call, `clock` that of the timestamp. -/
def beat (v : Handle T) (process : Process) (now clock : Nat) (status : Status) (payload : UInt32) :
    Beaten T :=
  if status = .stall then ⟨.failed .invalidStatus, { v with consecutiveDropped := 0 }, []⟩
  else if v.stale process then
    match v.recover process now with
    | (.error e, v) => ⟨.failed e, v, []⟩
    | (.ok (), v) => v.emit process clock status payload
  else v.emit process clock status payload

/-- Nonce and clock are kept. -/
def reconnect (v : Handle T) (process : Process) : Except IoError Unit × Handle T :=
  match BeatTransport.reconnect v.transport with
  | (.error e, transport) => (.error e, { v with transport })
  | (.ok (), transport) => (.ok (), { v with
      transport
      connectPid := process.pid
      connectForkEpoch := process.forkEpoch
      consecutiveDropped := 0 })

end

def setReconnectAfter (v : Handle T) (n : Nat) : Handle T :=
  { v with reconnectAfter := n, consecutiveDropped := 0 }

/-! ### What a call does -/

/-- The stream of frames stands where it stood, in the same session. -/
structure Same (v w : Handle T) : Prop where
  nonce : w.nonce = v.nonce
  lastTimestamp : w.lastTimestamp = v.lastTimestamp
  start : w.start = v.start
  connectPid : w.connectPid = v.connectPid
  connectForkEpoch : w.connectForkEpoch = v.connectForkEpoch

theorem Same.trans {u v w : Handle T} (first : Same u v) (second : Same v w) : Same u w where
  nonce := second.nonce.trans first.nonce
  lastTimestamp := second.lastTimestamp.trans first.lastTimestamp
  start := second.start.trans first.start
  connectPid := second.connectPid.trans first.connectPid
  connectForkEpoch := second.connectForkEpoch.trans first.connectForkEpoch

/-- The stream stands one frame further. -/
structure Advanced (frame : WireFrame) (v w : Handle T) : Prop where
  nonce : w.nonce = frame.nonce
  lastTimestamp : w.lastTimestamp = frame.timestamp
  start : w.start = v.start
  connectPid : w.connectPid = v.connectPid
  connectForkEpoch : w.connectForkEpoch = v.connectForkEpoch

/-- One frame was accepted and committed, or nothing was. -/
inductive Emitted (frame : WireFrame) (v : Handle T) (r : Beaten T) : Prop
  | sent (outcome : r.outcome = .sent) (accepted : r.accepted = [frame.encode])
    (advanced : Advanced frame v r.handle)
  | unsent (outcome : r.outcome ≠ .sent) (accepted : r.accepted = []) (same : Same v r.handle)

theorem Emitted.from_same {frame : WireFrame} {u v : Handle T} {r : Beaten T}
    (emitted : Emitted frame v r) (same : Same u v) : Emitted frame u r := by
  cases emitted with
  | sent outcome accepted advanced =>
    refine .sent outcome accepted ⟨advanced.nonce, advanced.lastTimestamp, ?_, ?_, ?_⟩
    · exact advanced.start.trans same.start
    · exact advanced.connectPid.trans same.connectPid
    · exact advanced.connectForkEpoch.trans same.connectForkEpoch
  | unsent outcome accepted kept => exact .unsent outcome accepted (same.trans kept)

/-- A session of this process that has not sent anything. -/
structure Opened (process : Process) (now : Nat) (v : Handle T) : Prop where
  nonce : v.nonce = 0
  lastTimestamp : v.lastTimestamp = 0
  start : v.start = now
  connectPid : v.connectPid = process.pid
  connectForkEpoch : v.connectForkEpoch = process.forkEpoch

variable (v : Handle T) (process : Process)

section

variable [BeatTransport T]

theorem sendFrame_buf : v.sendFrame.handle.buf = v.buf := by
  unfold sendFrame
  dsimp only
  split
  · split <;> rfl
  · rfl

theorem sendFrame_cases :
    Same v v.sendFrame.handle ∧
      (v.sendFrame.outcome = .sent ∧ v.sendFrame.accepted = [v.buf] ∨
        v.sendFrame.outcome ≠ .sent ∧ v.sendFrame.accepted = []) := by
  unfold sendFrame
  dsimp only
  split
  · split
    · exact ⟨⟨rfl, rfl, rfl, rfl, rfl⟩, Or.inl ⟨rfl, rfl⟩⟩
    · exact ⟨⟨rfl, rfl, rfl, rfl, rfl⟩, Or.inr ⟨by simp, rfl⟩⟩
  · exact ⟨⟨rfl, rfl, rfl, rfl, rfl⟩, Or.inr ⟨classifySendError_ne_sent _, rfl⟩⟩

theorem retry_emitted {v : Handle T} {frame : WireFrame} {dropped : Beaten T}
    (encoded : v.buf = frame.encode) (outcome : dropped.outcome ≠ .sent)
    (nothing : dropped.accepted = []) : Emitted frame v (retry v frame dropped) := by
  unfold retry
  split
  next e transport failed => exact .unsent outcome nothing ⟨rfl, rfl, rfl, rfl, rfl⟩
  next transport renewed =>
    obtain ⟨same, outcome⟩ := sendFrame_cases { v with transport }
    have kept : Same v (sendFrame { v with transport }).handle :=
      { same with }
    dsimp only at outcome ⊢
    generalize sendFrame { v with transport } = again at kept outcome
    rcases outcome with ⟨sent, accepted⟩ | ⟨unsent, accepted⟩
    · -- the buffer still holds the frame whose first sending was dropped
      refine .sent sent ?_ ?_
      · rw [nothing, accepted, encoded]
        rfl
      · dsimp only
        rw [if_pos sent]
        exact ⟨rfl, rfl, kept.start, kept.connectPid, kept.connectForkEpoch⟩
    · refine .unsent unsent ?_ ?_
      · rw [nothing, accepted]
        rfl
      · dsimp only
        rw [if_neg unsent]
        exact kept

theorem emit_emitted (clock : Nat) (status : Status) (payload : UInt32) :
    Emitted (v.candidate process clock status payload) v (v.emit process clock status payload) := by
  unfold emit
  generalize v.candidate process clock status payload = frame
  generalize (if v.rawElapsed clock < v.lastTimestamp then u64SaturatingAdd v.clockRegressions 1
    else v.clockRegressions) = clockRegressions
  obtain ⟨same, outcome⟩ := sendFrame_cases { v with clockRegressions, buf := frame.encode }
  have kept : Same v (sendFrame { v with clockRegressions, buf := frame.encode }).handle :=
    { same with }
  have buffered : (sendFrame { v with clockRegressions, buf := frame.encode }).handle.buf =
      frame.encode := sendFrame_buf _
  dsimp only
  generalize sendFrame { v with clockRegressions, buf := frame.encode } = first at *
  split
  next sent =>
    rcases outcome with ⟨_, accepted⟩ | ⟨unsent, _⟩
    · exact .sent sent accepted ⟨rfl, rfl, kept.start, kept.connectPid, kept.connectForkEpoch⟩
    · exact absurd sent unsent
  next reason dropped =>
    have unsent : first.outcome ≠ .sent := by rw [dropped]; simp
    have nothing : first.accepted = [] := by
      rcases outcome with ⟨sent, _⟩ | ⟨_, nothing⟩
      · exact absurd sent unsent
      · exact nothing
    split
    · have reset : Same v { first.handle with consecutiveDropped := 0 } :=
        { kept with }
      exact Emitted.from_same (retry_emitted buffered unsent nothing) reset
    · exact .unsent unsent nothing
        { kept with }
  next error failed =>
    have unsent : first.outcome ≠ .sent := by rw [failed]; simp
    rcases outcome with ⟨sent, _⟩ | ⟨_, nothing⟩
    · exact absurd sent unsent
    · exact .unsent unsent nothing
        { kept with }

/-- What a beat does: nothing, or it emits a frame, which a fork makes the first of a session. -/
inductive Beats (v : Handle T) (process : Process) (now clock : Nat) (status : Status)
    (payload : UInt32) (r : Beaten T) : Prop
  | refused (outcome : r.outcome ≠ .sent) (accepted : r.accepted = []) (same : Same v r.handle)
  | current (regular : status ≠ .stall) (fresh : v.stale process = false)
    (emitted : Emitted (v.candidate process clock status payload) v r)
  | recovered (regular : status ≠ .stall) (stale : v.stale process = true) (w : Handle T)
    (opened : Opened process now w) (emitted : Emitted (w.candidate process clock status payload) w r)

theorem beat_beats (now clock : Nat) (status : Status) (payload : UInt32) :
    Beats v process now clock status payload (v.beat process now clock status payload) := by
  unfold beat
  split
  · exact .refused (by simp) rfl ⟨rfl, rfl, rfl, rfl, rfl⟩
  next regular =>
    split
    next stale =>
      unfold recover
      cases BeatTransport.reconnect v.transport with
      | mk result transport =>
        cases result with
        -- the old identity is kept, so that the next beat tries again
        | error e => exact .refused (by simp) rfl ⟨rfl, rfl, rfl, rfl, rfl⟩
        | ok done => exact .recovered regular stale _ ⟨rfl, rfl, rfl, rfl, rfl⟩ (emit_emitted ..)
    next fresh =>
      exact .current regular (Bool.not_eq_true _ ▸ fresh) (emit_emitted ..)

/-- An explicit `reconnect` keeps the stream, and makes the handle the process's own if it
succeeds. -/
theorem reconnect_cases :
    (v.reconnect process).2.nonce = v.nonce ∧
      (v.reconnect process).2.lastTimestamp = v.lastTimestamp ∧
      (v.reconnect process).2.start = v.start ∧
      ((v.reconnect process).1 = .ok () ∧ (v.reconnect process).2.connectPid = process.pid ∧
          (v.reconnect process).2.connectForkEpoch = process.forkEpoch ∨
        (v.reconnect process).1 ≠ .ok () ∧ Same v (v.reconnect process).2) := by
  unfold reconnect
  split
  · exact ⟨rfl, rfl, rfl, Or.inr ⟨by simp, rfl, rfl, rfl, rfl, rfl⟩⟩
  · exact ⟨rfl, rfl, rfl, Or.inl ⟨rfl, rfl, rfl⟩⟩

end

end Handle

end Varta.Client
