import Varta.Ports.BeatMachine
import Varta.Ports.Wire

/-!
# The Go agent

`clients/go/client.go` with its outcomes, over any transport, and that it is the beat state
machine when the transport follows a script.
-/
namespace Varta.Ports.Go

open Vlp

/-! ### Errors -/

/-- An `error` as `errors.Is` and `errors.As` see it. -/
structure GoError where
  /-- It wraps `io.ErrShortWrite`. -/
  shortWrite : Bool
  /-- The `syscall.Errno` in it, or 0. -/
  errno : Nat
  /-- What the errno says of itself. -/
  text : String
  deriving DecidableEq, Repr

/-- `errnoclass.Classify`, with the numbers of Linux; `EAGAIN` and `EWOULDBLOCK` are one. -/
def classify (err : GoError) : Option Client.DropReason :=
  if err.errno = 0 then none
  else if err.errno = 105 ∨ err.errno = 11 then some .kernelQueueFull
  else if err.errno = 111 ∨ err.errno = 2 then some .noObserver
  else if err.errno = 104 ∨ err.errno = 107 ∨ err.errno = 32 then some .peerGone
  else if err.errno = 28 then some .storageFull
  else none

/-- `errnoclass.Name`. -/
def name (err : GoError) : String :=
  if err.errno = 0 then "Other"
  else if err.errno = 11 then "EAGAIN"
  else if err.errno = 105 then "ENOBUFS"
  else if err.errno = 111 then "ECONNREFUSED"
  else if err.errno = 104 then "ECONNRESET"
  else if err.errno = 107 then "ENOTCONN"
  else if err.errno = 32 then "EPIPE"
  else if err.errno = 2 then "ENOENT"
  else if err.errno = 28 then "ENOSPC"
  else if err.errno = 1 then "EPERM"
  else if err.errno = 13 then "EACCES"
  else if err.errno = 22 then "EINVAL"
  else err.text

def classifySendError (err : GoError) : BeatOutcome :=
  if err.shortWrite then .failed writeZero
  else
    match classify err with
    | some reason => .dropped reason
    | none => .failed ⟨err.errno, name err⟩

/-! ### The handle -/

/-- `Varta`. -/
structure Handle (T : Type) where
  transport : T
  buf : Bytes32
  startMono : Int
  closed : Bool
  nonce : UInt64
  consecutiveDropped : UInt32
  reconnectAfter : UInt32
  lastTimestamp : UInt64
  clockRegressions : UInt64
  connectPID : Int
  forkRecoveries : UInt64

def saturatingAdd (x delta : UInt64) : UInt64 :=
  .ofBitVec (Machine.saturatingAdd x.toBitVec delta.toBitVec)

def saturatingAdd32 (x delta : UInt32) : UInt32 :=
  .ofBitVec (Machine.saturatingAdd x.toBitVec delta.toBitVec)

/-- `time.Since(start).Nanoseconds()`, a `Duration` that saturates. -/
def since (start clock : Int) : Int := max (-2 ^ 63) (min (clock - start) (2 ^ 63 - 1))

namespace Handle

variable {T : Type}

/-- `newVarta`. -/
def new (transport : T) (now pid : Int) : Handle T where
  transport
  buf := Bytes32.zero
  startMono := now
  closed := false
  nonce := 0
  consecutiveDropped := 0
  reconnectAfter := 0
  lastTimestamp := 0
  clockRegressions := 0
  connectPID := pid
  forkRecoveries := 0

def commitSentFrame (v : Handle T) (nonce timestamp : UInt64) : Handle T :=
  { v with nonce, lastTimestamp := timestamp }

def candidateNonce (v : Handle T) : UInt64 :=
  if v.nonce < 0xFFFFFFFFFFFFFFFF - 1 then v.nonce + 1 else 0

/-- A negative reading counts as none. -/
def rawElapsed (v : Handle T) (clock : Int) : UInt64 :=
  UInt64.ofNat (since v.startMono clock).toNat

def candidateTimestamp (v : Handle T) (raw : UInt64) : UInt64 :=
  if raw > v.lastTimestamp then raw else v.lastTimestamp

variable [Transport GoError T]

def sendBuffered (v : Handle T) : BeatOutcome × Handle T :=
  match Transport.send v.transport v.buf with
  | (.error err, transport) => (classifySendError err, { v with transport })
  | (.ok n, transport) => (if n ≠ 32 then .failed writeZero else .sent, { v with transport })

/-- The retry over a new connection. -/
def retry (v : Handle T) (nonce timestamp : UInt64) (dropped : BeatOutcome) :
    BeatOutcome × Handle T :=
  match Transport.reconnect v.transport with
  | (.error _, transport) => (dropped, { v with transport })
  | (.ok (), transport) =>
    match sendBuffered { v with transport } with
    | (.sent, v) => (.sent, v.commitSentFrame nonce timestamp)
    | (outcome, v) => (outcome, v)

/-- `Beat` after the fork check. -/
def emit (v : Handle T) (pid clock : Int) (status : UInt8) (payload : UInt32) :
    BeatOutcome × Handle T :=
  let nonce := v.candidateNonce
  let raw := v.rawElapsed clock
  let clockRegressions :=
    if raw < v.lastTimestamp then saturatingAdd v.clockRegressions 1 else v.clockRegressions
  let timestamp := v.candidateTimestamp raw
  let buf := encodeInto status (UInt32.ofInt pid) timestamp nonce payload
  match sendBuffered { v with clockRegressions, buf } with
  | (.sent, v) => (.sent, { v.commitSentFrame nonce timestamp with consecutiveDropped := 0 })
  | (.dropped reason, v) =>
    let v := { v with consecutiveDropped := saturatingAdd32 v.consecutiveDropped 1 }
    if v.reconnectAfter > 0 ∧ v.consecutiveDropped ≥ v.reconnectAfter then
      retry { v with consecutiveDropped := 0 } nonce timestamp (.dropped reason)
    else (.dropped reason, v)
  | (.failed error, v) => (.failed error, { v with consecutiveDropped := 0 })

/-- `now` is the instant of a session that starts in this call, `clock` that of the timestamp. -/
def beat (v : Handle T) (pid now clock : Int) (status : UInt8) (payload : UInt32) :
    BeatOutcome × Handle T :=
  if ¬ isAgentStatus status then (.failed invalidInput, { v with consecutiveDropped := 0 })
  else if v.closed then (.failed Ports.closed, { v with consecutiveDropped := 0 })
  else if pid ≠ v.connectPID then
    match Transport.reconnect v.transport with
    | (.error _, transport) => (.failed ⟨0, "ReconnectFailed"⟩, { v with transport })
    | (.ok (), transport) =>
      emit { v with
        transport
        connectPID := pid
        forkRecoveries := saturatingAdd v.forkRecoveries 1
        nonce := 0
        startMono := now
        lastTimestamp := 0
        consecutiveDropped := 0 } pid clock status payload
  else v.emit pid clock status payload

def errClosed : GoError := ⟨false, 0, ""⟩

def reconnect (v : Handle T) (pid : Int) : Except GoError Unit × Handle T :=
  if v.closed then (.error errClosed, v)
  else
    match Transport.reconnect v.transport with
    | (.error err, transport) => (.error err, { v with transport })
    | (.ok (), transport) =>
      (.ok (), { v with transport, connectPID := pid, consecutiveDropped := 0 })

omit [Transport GoError T] in
def setReconnectAfter (v : Handle T) (n : UInt32) : Handle T :=
  { v with reconnectAfter := n, consecutiveDropped := 0 }

end Handle

/-! ### The machine -/

theorem toNat_saturatingAdd (x : UInt64) :
    (saturatingAdd x 1).toNat = min (x.toNat + 1) (2 ^ 64 - 1) :=
  Machine.toNat_saturatingAdd ..

theorem toNat_saturatingAdd32 (x : UInt32) :
    (saturatingAdd32 x 1).toNat = min (x.toNat + 1) (2 ^ 32 - 1) :=
  Machine.toNat_saturatingAdd ..

/-- What `sendBuffered` makes of an answer. -/
def outcome : Except GoError Nat → BeatOutcome
  | .error err => classifySendError err
  | .ok n => if n ≠ 32 then .failed writeZero else .sent

/-- The answers of the tape are of the classes that the script says. -/
def Plays (script : Script) (tape : Tape GoError) : Prop :=
  tape.Plays (fun answer => some (outcome answer).verdict)
    (fun answer => some answer.toBool) script

variable {script : Script} {v : Handle (Tape GoError)} {m : BeatMachine}

/-- The handle is open and in the state of the machine. -/
structure Mirrors (script : Script) (v : Handle (Tape GoError)) (m : BeatMachine) : Prop where
  plays : Plays script v.transport
  calls : v.transport.calls = m.calls
  isOpen : v.closed = false
  nonce : v.nonce = m.nonce
  lastTimestamp : v.lastTimestamp = m.lastTimestamp
  connectPID : v.connectPID = m.connectPid.toNat
  drops : v.consecutiveDropped.toNat = min m.drops (2 ^ 32 - 1)
  reconnectAfter : v.reconnectAfter.toNat = m.reconnectAfter
  clockRegressions : v.clockRegressions.toNat = min m.clockRegressions (2 ^ 64 - 1)
  forkRecoveries : v.forkRecoveries.toNat = min m.forkRecoveries (2 ^ 64 - 1)

section

variable (mirrors : Mirrors script v m)

include mirrors

theorem Mirrors.not_closed : ¬ v.closed = true :=
  Bool.not_eq_true _ ▸ mirrors.isOpen

theorem Mirrors.log (call : TransportCall) :
    Mirrors script { v with transport := v.transport.log call } (m.log call) :=
  { mirrors with
    plays := mirrors.plays.log call
    calls := congrArg (· ++ [call]) mirrors.calls }

theorem Mirrors.commit (frame : WireFrame) :
    Mirrors script (v.commitSentFrame frame.nonce frame.timestamp) (m.commit frame) :=
  { mirrors with nonce := rfl, lastTimestamp := rfl }

theorem Mirrors.reset : Mirrors script { v with consecutiveDropped := 0 } { m with drops := 0 } :=
  { mirrors with drops := (Nat.zero_min _).symm }

theorem Mirrors.count :
    Mirrors script { v with consecutiveDropped := saturatingAdd32 v.consecutiveDropped 1 }
      { m with drops := m.drops + 1 } :=
  { mirrors with
    drops := by
      dsimp only
      rw [toNat_saturatingAdd32, mirrors.drops]
      omega }

theorem Mirrors.due :
    (v.reconnectAfter > 0 ∧ saturatingAdd32 v.consecutiveDropped 1 ≥ v.reconnectAfter) ↔ m.due := by
  have reachable := v.reconnectAfter.toNat_lt
  rw [gt_iff_lt, ge_iff_le, UInt32.lt_iff_toNat_lt, UInt32.le_iff_toNat_le, toNat_saturatingAdd32,
    mirrors.drops, BeatMachine.due, ← mirrors.reconnectAfter]
  change 0 < _ ∧ _ ↔ _
  omega

theorem sendBuffered_mirrors {frame : Bytes32} (encoded : v.buf = frame) :
    v.sendBuffered.1.verdict = script.sends m.calls.length ∧
      Mirrors script v.sendBuffered.2 (m.log (.send frame)) ∧ v.sendBuffered.2.buf = frame := by
  subst encoded
  have class_ := Option.some.inj (mirrors.plays.sends v.transport.calls.length)
  have logged := mirrors.log (.send v.buf)
  rw [← mirrors.calls, ← class_]
  unfold Handle.sendBuffered
  dsimp only [Transport.send]
  cases v.transport.sends v.transport.calls.length with
  | ok | error => exact ⟨rfl, logged, rfl⟩

theorem retry_mirrors {frame : WireFrame} {reason : Client.DropReason}
    (encoded : v.buf = frame.encode) :
    (v.retry frame.nonce frame.timestamp (.dropped reason)).1.verdict = (m.retry script frame).1 ∧
      Mirrors script (v.retry frame.nonce frame.timestamp (.dropped reason)).2
        (m.retry script frame).2 := by
  have class_ := Option.some.inj (mirrors.plays.reconnects v.transport.calls.length)
  unfold Handle.retry BeatMachine.retry
  dsimp only [Transport.reconnect]
  rw [← mirrors.calls, ← class_]
  cases v.transport.reconnects v.transport.calls.length with
  | error e => exact ⟨rfl, mirrors.log .reconnect⟩
  | ok done =>
    obtain ⟨sent, after, -⟩ := sendBuffered_mirrors (mirrors.log .reconnect) encoded
    dsimp only [Except.toBool]
    rw [← sent]
    generalize Handle.sendBuffered { v with transport := v.transport.log .reconnect } = again at after
    obtain ⟨outcome, w⟩ := again
    cases outcome with
    | sent => exact ⟨rfl, after.commit frame⟩
    | dropped | failed => exact ⟨rfl, after⟩

theorem Mirrors.candidateNonce : v.candidateNonce = m.nextNonce := by
  unfold Handle.candidateNonce BeatMachine.nextNonce
  rw [mirrors.nonce]
  simp only [UInt64.lt_iff_toNat_lt]
  rfl

theorem Mirrors.candidateTimestamp (raw : UInt64) :
    v.candidateTimestamp raw = max m.lastTimestamp raw := by
  have max_eq : max m.lastTimestamp raw = if m.lastTimestamp ≤ raw then raw else m.lastTimestamp :=
    rfl
  unfold Handle.candidateTimestamp
  rw [mirrors.lastTimestamp, max_eq]
  split
  next later => rw [if_pos (UInt64.le_of_lt later)]
  next earlier =>
    split
    next equal => exact UInt64.le_antisymm equal (UInt64.not_lt.mp earlier)
    · rfl

/-- The clock is read, and the frame is written. -/
theorem Mirrors.clocked (raw : UInt64) (buf : Bytes32) :
    Mirrors script
      { v with
        clockRegressions :=
          if raw < v.lastTimestamp then saturatingAdd v.clockRegressions 1
          else v.clockRegressions
        buf }
      (m.clocked raw) :=
  { mirrors with
    clockRegressions := by
      have counted := mirrors.clockRegressions
      dsimp only [BeatMachine.clocked]
      rw [mirrors.lastTimestamp]
      split
      · rw [toNat_saturatingAdd]
        omega
      · exact counted }

theorem emit_mirrors (pid : UInt32) (clock : Int) (status : Status) (payload : UInt32) :
    (v.emit pid.toNat clock status.toU8 payload).1.verdict =
        (m.emit script status payload pid (v.rawElapsed clock)).1 ∧
      Mirrors script (v.emit pid.toNat clock status.toU8 payload).2
        (m.emit script status payload pid (v.rawElapsed clock)).2 := by
  have frame_eq : encodeInto status.toU8 (UInt32.ofInt pid.toNat)
      (v.candidateTimestamp (v.rawElapsed clock)) v.candidateNonce payload =
      (m.frame status payload pid (v.rawElapsed clock)).encode := by
    rw [mirrors.candidateNonce, mirrors.candidateTimestamp, encodeInto_eq, ofInt_toNat,
      BeatMachine.frame]
  have nonce_eq : v.candidateNonce = (m.frame status payload pid (v.rawElapsed clock)).nonce :=
    mirrors.candidateNonce
  have timestamp_eq : v.candidateTimestamp (v.rawElapsed clock) =
      (m.frame status payload pid (v.rawElapsed clock)).timestamp := mirrors.candidateTimestamp _
  have clocked := mirrors.clocked (v.rawElapsed clock)
    (m.frame status payload pid (v.rawElapsed clock)).encode
  unfold Handle.emit BeatMachine.emit
  dsimp only
  rw [frame_eq, nonce_eq, timestamp_eq]
  generalize m.frame status payload pid (v.rawElapsed clock) = frame at clocked
  obtain ⟨sent, after, buffered⟩ := sendBuffered_mirrors clocked rfl
  unfold BeatMachine.transmit
  generalize Handle.sendBuffered { v with
    clockRegressions :=
      if v.rawElapsed clock < v.lastTimestamp then saturatingAdd v.clockRegressions 1
      else v.clockRegressions
    buf := frame.encode } = first at sent after buffered ⊢
  rw [← sent]
  obtain ⟨outcome, w⟩ := first
  cases outcome with
  | sent => exact ⟨rfl, (after.commit frame).reset⟩
  | failed error => exact ⟨rfl, after.reset⟩
  | dropped reason =>
    dsimp only [BeatOutcome.verdict]
    by_cases due : (m.clocked (v.rawElapsed clock)).due
    · rw [if_pos (after.due.mpr due), if_pos due]
      exact retry_mirrors after.reset buffered
    · rw [if_neg (after.due.not.mpr due), if_neg due]
      exact ⟨rfl, after.count⟩

end

/-- The time that a beat reads: that of the new session if it opens one. -/
def reading (v : Handle (Tape GoError)) (pid now clock : Int) : UInt64 :=
  UInt64.ofNat (since (if pid ≠ v.connectPID then now else v.startMono) clock).toNat

theorem beat_mirrors (mirrors : Mirrors script v m) (pid : UInt32) (now clock : Int)
    (status : Status) (payload : UInt32) :
    (v.beat pid.toNat now clock status.toU8 payload).1.verdict =
        (m.beat script status payload pid (reading v pid.toNat now clock)).1 ∧
      Mirrors script (v.beat pid.toNat now clock status.toU8 payload).2
        (m.beat script status payload pid (reading v pid.toNat now clock)).2 := by
  have new_pid : (pid.toNat : Int) ≠ v.connectPID ↔ pid ≠ m.connectPid := by
    rw [mirrors.connectPID, Ne, Int.natCast_inj, UInt32.toNat_inj]
  unfold Handle.beat BeatMachine.beat reading
  by_cases stall : status = .stall
  · rw [if_pos ((isAgentStatus_iff status).not.mpr (not_not.mpr stall)), if_pos stall]
    exact ⟨rfl, mirrors.reset⟩
  rw [if_neg (not_not.mpr ((isAgentStatus_iff status).mpr stall)), if_neg stall,
    if_neg mirrors.not_closed]
  by_cases other : pid ≠ m.connectPid
  · rw [if_pos (new_pid.mpr other), if_pos (new_pid.mpr other), if_pos other]
    have class_ := Option.some.inj (mirrors.plays.reconnects v.transport.calls.length)
    dsimp only [Transport.reconnect]
    rw [← mirrors.calls, ← class_]
    have logged := mirrors.log .reconnect
    cases v.transport.reconnects v.transport.calls.length with
    | error e => exact ⟨rfl, logged⟩
    | ok done =>
      refine emit_mirrors (m := (m.log .reconnect).opened pid) ?_ pid clock status payload
      exact {
        logged with
        nonce := rfl
        lastTimestamp := rfl
        connectPID := rfl
        drops := (Nat.zero_min _).symm
        forkRecoveries := by
          have counted := mirrors.forkRecoveries
          dsimp only [BeatMachine.opened, BeatMachine.log]
          rw [toNat_saturatingAdd]
          omega }
  · rw [if_neg (new_pid.not.mpr other), if_neg (new_pid.not.mpr other), if_neg other]
    exact emit_mirrors mirrors pid clock status payload

theorem reconnect_mirrors (mirrors : Mirrors script v m) (pid : UInt32) :
    (v.reconnect pid.toNat).1.toBool = (m.reconnect script pid).1 ∧
      Mirrors script (v.reconnect pid.toNat).2 (m.reconnect script pid).2 := by
  have class_ := Option.some.inj (mirrors.plays.reconnects v.transport.calls.length)
  unfold Handle.reconnect BeatMachine.reconnect
  dsimp only [Transport.reconnect]
  rw [if_neg mirrors.not_closed, ← mirrors.calls, ← class_]
  have logged := mirrors.log .reconnect
  cases v.transport.reconnects v.transport.calls.length with
  | error e => exact ⟨rfl, logged⟩
  | ok done => exact ⟨rfl, { logged with connectPID := rfl, drops := (Nat.zero_min _).symm }⟩

theorem setReconnectAfter_mirrors (mirrors : Mirrors script v m) (n : UInt32) :
    Mirrors script (v.setReconnectAfter n) (m.setReconnectAfter n.toNat) :=
  { mirrors with
    drops := (Nat.zero_min _).symm
    reconnectAfter := rfl }

end Varta.Ports.Go
