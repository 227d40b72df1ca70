import Varta.Ports.BeatMachine
import Varta.Ports.Wire

/-!
# The Python agent

`clients/python/src/varta/client.py` over any transport: integers have no bound, `except OSError`
lets every other exception out, and `struct` raises one of its own. Over a transport that follows
a script it is the beat state machine, and it raises nothing.
-/
namespace Varta.Ports.Python

open Vlp

/-! ### Errors -/

structure OSError where
  errno : Option Int
  /-- It is a `BlockingIOError`. -/
  blocking : Bool
  /-- The name that `_errno_name` finds for the number. -/
  symbol : String
  typeName : String
  deriving DecidableEq, Repr

inductive PyException where
  | os (error : OSError)
  | other (typeName : String)
  deriving DecidableEq, Repr

/-- `BeatError.from_oserror`: a missing number and a zero are both unknown. -/
def fromOserror (e : OSError) : BeatError :=
  match e.errno with
  | none => ⟨0, e.typeName⟩
  | some code => if code = 0 then ⟨0, e.typeName⟩ else ⟨code, e.symbol⟩

/-- With the numbers of Linux; `EAGAIN` and `EWOULDBLOCK` are one. -/
def classifySendError (e : OSError) : BeatOutcome :=
  if e.errno = some 105 then .dropped .kernelQueueFull
  else if e.blocking ∨ e.errno = some 11 then .dropped .kernelQueueFull
  else if e.errno = some 111 ∨ e.errno = some 2 then .dropped .noObserver
  else if e.errno = some 104 ∨ e.errno = some 107 ∨ e.errno = some 32 then .dropped .peerGone
  else if e.errno = some 28 then .dropped .storageFull
  else .failed (fromOserror e)

/-! ### The handle -/

/-- `Varta`. -/
structure Handle (T : Type) where
  transport : T
  buf : Bytes32
  startNs : Int
  nonce : Nat
  consecutiveDropped : Nat
  reconnectAfter : Int
  lastTimestamp : Nat
  clockRegressions : Nat
  connectPid : Int
  connectForkEpoch : Nat
  forkRecoveries : Nat
  closed : Bool

def u64Max : Nat := 0xFFFFFFFFFFFFFFFF

def saturatingAdd (value delta : Nat) : Nat :=
  if value + delta > u64Max then u64Max else value + delta

def elapsedNs (start clock : Int) : Nat :=
  let raw := (max 0 (clock - start)).toNat
  if raw > u64Max then u64Max else raw

/-- `value & 0xFFFFFFFF`, which is not negative whatever `value` is. -/
def low32 (value : Int) : Nat := (value % 2 ^ 32).toNat

/-- `os.getpid()` and the epoch of `_fork_epoch`. -/
structure PyProcess where
  pid : Int
  forkEpoch : Nat

namespace Handle

variable {T : Type}

/-- `__init__`. -/
def init (transport : T) (process : PyProcess) (now : Int) : Handle T where
  transport
  buf := Bytes32.zero
  startNs := now
  nonce := 0
  consecutiveDropped := 0
  reconnectAfter := 0
  lastTimestamp := 0
  clockRegressions := 0
  connectPid := process.pid
  connectForkEpoch := process.forkEpoch
  forkRecoveries := 0
  closed := false

def commitSentFrame (v : Handle T) (nonce timestamp : Nat) : Handle T :=
  { v with nonce, lastTimestamp := timestamp }

def candidateNonce (v : Handle T) : Nat :=
  if v.nonce < 0xFFFFFFFFFFFFFFFF - 1 then v.nonce + 1 else 0

def rawElapsed (v : Handle T) (clock : Int) : Nat := elapsedNs v.startNs clock

variable [Transport PyException T]

def sendFrame (v : Handle T) : Except PyException BeatOutcome × Handle T :=
  match Transport.send v.transport v.buf with
  | (.ok sent, transport) =>
    (.ok (if sent ≠ 32 then .failed writeZero else .sent), { v with transport })
  | (.error (.os e), transport) => (.ok (classifySendError e), { v with transport })
  | (.error (.other typeName), transport) => (.error (.other typeName), { v with transport })

/-- The retry over a new connection. -/
def retry (v : Handle T) (nonce timestamp : Nat) (dropped : BeatOutcome) :
    Except PyException BeatOutcome × Handle T :=
  match Transport.reconnect v.transport with
  | (.error (.os _), transport) => (.ok dropped, { v with transport })
  | (.error (.other typeName), transport) => (.error (.other typeName), { v with transport })
  | (.ok (), transport) =>
    match sendFrame { v with transport } with
    | (.ok .sent, v) => (.ok .sent, v.commitSentFrame nonce timestamp)
    | (outcome, v) => (outcome, v)

/-- `beat` after the fork check. -/
def emit (v : Handle T) (pid clock : Int) (status : Status) (payload : Int) :
    Except PyException BeatOutcome × Handle T :=
  let nonce := v.candidateNonce
  let raw := v.rawElapsed clock
  let v := { v with clockRegressions :=
    if raw < v.lastTimestamp then saturatingAdd v.clockRegressions 1 else v.clockRegressions }
  let timestamp := max v.lastTimestamp raw
  match encodeInto status (low32 pid) timestamp nonce (low32 payload) with
  | none => (.error (.other "struct.error"), v)
  | some buf =>
    match sendFrame { v with buf } with
    | (.ok .sent, v) =>
      (.ok .sent, { v.commitSentFrame nonce timestamp with consecutiveDropped := 0 })
    | (.ok (.dropped reason), v) =>
      let v := { v with consecutiveDropped := saturatingAdd v.consecutiveDropped 1 }
      if v.reconnectAfter > 0 ∧ (v.consecutiveDropped : Int) ≥ v.reconnectAfter then
        retry { v with consecutiveDropped := 0 } nonce timestamp (.dropped reason)
      else (.ok (.dropped reason), v)
    | (.ok (.failed error), v) => (.ok (.failed error), { v with consecutiveDropped := 0 })
    | (.error e, v) => (.error e, v)

/-- `status` is what `_coerce_status` makes of the argument, if it accepts it; `now` is the instant
of a session that starts in this call, `clock` that of the timestamp. -/
def beat (v : Handle T) (process : PyProcess) (now clock : Int) (status : Option Status)
    (payload : Int) : Except PyException BeatOutcome × Handle T :=
  match status with
  | none | some .stall => (.ok (.failed invalidInput), { v with consecutiveDropped := 0 })
  | some status =>
    if v.closed then (.ok (.failed Ports.closed), { v with consecutiveDropped := 0 })
    else if process.pid ≠ v.connectPid ∨ process.forkEpoch ≠ v.connectForkEpoch then
      match Transport.reconnect v.transport with
      | (.error (.os e), transport) => (.ok (.failed (fromOserror e)), { v with transport })
      | (.error (.other typeName), transport) => (.error (.other typeName), { v with transport })
      | (.ok (), transport) =>
        emit { v with
          transport
          connectPid := process.pid
          connectForkEpoch := process.forkEpoch
          forkRecoveries := saturatingAdd v.forkRecoveries 1
          nonce := 0
          startNs := now
          lastTimestamp := 0
          consecutiveDropped := 0 } process.pid clock status payload
    else v.emit process.pid clock status payload

def closedReconnectError : OSError := ⟨some 9, false, "EBADF", "OSError"⟩

def reconnect (v : Handle T) (process : PyProcess) : Except PyException Unit × Handle T :=
  if v.closed then (.error (.os closedReconnectError), { v with consecutiveDropped := 0 })
  else
    match Transport.reconnect v.transport with
    | (.error e, transport) => (.error e, { v with transport })
    | (.ok (), transport) => (.ok (), { v with
        transport
        connectPid := process.pid
        connectForkEpoch := process.forkEpoch
        consecutiveDropped := 0 })

omit [Transport PyException T] in
/-- `None` disables, and so does 0. -/
def setReconnectAfter (v : Handle T) (n : Option Int) : Handle T :=
  { v with reconnectAfter := n.getD 0, consecutiveDropped := 0 }

end Handle

/-! ### The machine -/

/-- What `_send_frame` makes of an answer. -/
def outcome : Except PyException Nat → Except PyException BeatOutcome
  | .ok sent => .ok (if sent ≠ 32 then .failed writeZero else .sent)
  | .error (.os e) => .ok (classifySendError e)
  | .error (.other typeName) => .error (.other typeName)

/-- Whether a reconnect succeeded, if what it raised is an I/O error. -/
def opens : Except PyException Unit → Option Bool
  | .ok () => some true
  | .error (.os _) => some false
  | .error (.other _) => none

/-- The answers of the tape are of the classes that the script says. -/
def Plays (script : Script) (tape : Tape PyException) : Prop :=
  tape.Plays (fun answer => verdict (outcome answer)) opens script

variable {script : Script} {v : Handle (Tape PyException)} {m : BeatMachine}

/-- The handle is open and in the state of the machine. -/
structure Mirrors (script : Script) (v : Handle (Tape PyException)) (m : BeatMachine) : Prop where
  plays : Plays script v.transport
  calls : v.transport.calls = m.calls
  isOpen : v.closed = false
  nonce : v.nonce = m.nonce.toNat
  lastTimestamp : v.lastTimestamp = m.lastTimestamp.toNat
  connectPid : v.connectPid = m.connectPid.toNat
  drops : v.consecutiveDropped = min m.drops u64Max
  reconnectAfter : v.reconnectAfter = m.reconnectAfter
  reachable : m.reconnectAfter ≤ u64Max
  clockRegressions : v.clockRegressions = min m.clockRegressions u64Max
  forkRecoveries : v.forkRecoveries = min m.forkRecoveries u64Max

theorem saturatingAdd_eq (value : Nat) : saturatingAdd value 1 = min (value + 1) u64Max := by
  unfold saturatingAdd
  split <;> omega

section

variable (mirrors : Mirrors script v m)

include mirrors

theorem Mirrors.not_closed : ¬ v.closed = true :=
  Bool.not_eq_true _ ▸ mirrors.isOpen

theorem Mirrors.log (call : TransportCall) :
    Mirrors script { v with transport := v.transport.log call } (m.log call) :=
  { mirrors with
    plays := mirrors.plays.log call
    calls := congrArg (· ++ [call]) mirrors.calls }

theorem Mirrors.commit (frame : WireFrame) :
    Mirrors script (v.commitSentFrame frame.nonce.toNat frame.timestamp.toNat) (m.commit frame) :=
  { mirrors with nonce := rfl, lastTimestamp := rfl }

theorem Mirrors.reset : Mirrors script { v with consecutiveDropped := 0 } { m with drops := 0 } :=
  { mirrors with drops := (Nat.zero_min _).symm }

theorem Mirrors.count :
    Mirrors script { v with consecutiveDropped := saturatingAdd v.consecutiveDropped 1 }
      { m with drops := m.drops + 1 } :=
  { mirrors with
    drops := by
      dsimp only
      rw [saturatingAdd_eq, mirrors.drops]
      omega }

theorem Mirrors.due :
    (v.reconnectAfter > 0 ∧ (saturatingAdd v.consecutiveDropped 1 : Int) ≥ v.reconnectAfter) ↔
      m.due := by
  have reachable := mirrors.reachable
  rw [mirrors.reconnectAfter, saturatingAdd_eq, mirrors.drops, BeatMachine.due]
  omega

theorem sendFrame_mirrors {frame : Bytes32} (encoded : v.buf = frame) :
    ∃ outcome : BeatOutcome, v.sendFrame.1 = .ok outcome ∧
      outcome.verdict = script.sends m.calls.length ∧
      Mirrors script v.sendFrame.2 (m.log (.send frame)) ∧ v.sendFrame.2.buf = frame := by
  subst encoded
  have class_ := mirrors.plays.sends v.transport.calls.length
  have logged := mirrors.log (.send v.buf)
  rw [← mirrors.calls]
  unfold Handle.sendFrame
  dsimp only [Transport.send]
  cases answer : v.transport.sends v.transport.calls.length with
  | ok n =>
    rw [answer] at class_
    exact ⟨_, rfl, Option.some.inj class_, logged, rfl⟩
  | error e =>
    rw [answer] at class_
    cases e with
    | os e => exact ⟨_, rfl, Option.some.inj class_, logged, rfl⟩
    | other typeName => cases class_

/-- A reconnect of the tape succeeds or raises an I/O error, as the script says. -/
theorem Mirrors.reconnect_cases :
    v.transport.reconnects v.transport.calls.length = .ok () ∧
        script.reconnects m.calls.length = true ∨
      ∃ e, v.transport.reconnects v.transport.calls.length = .error (.os e) ∧
        script.reconnects m.calls.length = false := by
  have class_ := mirrors.plays.reconnects v.transport.calls.length
  rw [← mirrors.calls]
  cases answer : v.transport.reconnects v.transport.calls.length with
  | ok done =>
    rw [answer] at class_
    exact .inl ⟨rfl, (Option.some.inj class_).symm⟩
  | error e =>
    rw [answer] at class_
    cases e with
    | os e => exact .inr ⟨e, rfl, (Option.some.inj class_).symm⟩
    | other typeName => cases class_

theorem retry_mirrors {frame : WireFrame} {reason : Client.DropReason}
    (encoded : v.buf = frame.encode) :
    verdict (v.retry frame.nonce.toNat frame.timestamp.toNat (.dropped reason)).1 =
        some (m.retry script frame).1 ∧
      Mirrors script (v.retry frame.nonce.toNat frame.timestamp.toNat (.dropped reason)).2
        (m.retry script frame).2 := by
  unfold Handle.retry BeatMachine.retry
  dsimp only [Transport.reconnect]
  obtain ⟨answer, renewed⟩ | ⟨e, answer, refused⟩ := mirrors.reconnect_cases
  · rw [answer, renewed]
    obtain ⟨outcome, returned, sent, after, -⟩ := sendFrame_mirrors (mirrors.log .reconnect) encoded
    dsimp only
    rw [← sent]
    generalize Handle.sendFrame { v with transport := v.transport.log .reconnect } = again at *
    obtain ⟨result, w⟩ := again
    cases returned
    cases outcome with
    | sent => exact ⟨rfl, after.commit frame⟩
    | dropped | failed => exact ⟨rfl, after⟩
  · rw [answer, refused]
    exact ⟨rfl, mirrors.log .reconnect⟩

theorem Mirrors.candidateNonce : v.candidateNonce = m.nextNonce.toNat := by
  unfold Handle.candidateNonce BeatMachine.nextNonce
  rw [mirrors.nonce]
  have terminal : nonceTerminal - 1 = 0xFFFFFFFFFFFFFFFF - 1 := rfl
  rw [terminal]
  split
  next below =>
    rw [UInt64.toNat_add]
    change _ = (m.nonce.toNat + 1) % 2 ^ 64
    omega
  · rfl

end

theorem toNat_max (a b : UInt64) : max a.toNat b.toNat = (max a b).toNat := by
  have max_eq : max a b = if a ≤ b then b else a := rfl
  rw [max_eq]
  split
  next le => exact max_eq_right (UInt64.le_iff_toNat_le.mp le)
  next gt => exact max_eq_left (Nat.le_of_not_le fun le => gt (UInt64.le_iff_toNat_le.mpr le))

theorem low32_toNat (value : UInt32) : low32 value.toNat = value.toNat := by
  have bound := value.toNat_lt
  unfold low32
  omega

/-- The clock is read, and the frame is written. -/
theorem Mirrors.clocked (mirrors : Mirrors script v m) (raw : UInt64) (buf : Bytes32) :
    Mirrors script
      { v with
        clockRegressions :=
          if raw.toNat < v.lastTimestamp then saturatingAdd v.clockRegressions 1
          else v.clockRegressions
        buf }
      (m.clocked raw) :=
  { mirrors with
    clockRegressions := by
      have counted := mirrors.clockRegressions
      dsimp only [BeatMachine.clocked]
      simp only [mirrors.lastTimestamp, ← UInt64.lt_iff_toNat_lt]
      split
      · rw [saturatingAdd_eq]
        omega
      · exact counted }

theorem emit_mirrors {raw : UInt64} {clock : Int} (mirrors : Mirrors script v m)
    (reads : v.rawElapsed clock = raw.toNat) (pid : UInt32) (status : Status) (payload : UInt32) :
    verdict (v.emit pid.toNat clock status payload.toNat).1 =
        some (m.emit script status payload pid raw).1 ∧
      Mirrors script (v.emit pid.toNat clock status payload.toNat).2
        (m.emit script status payload pid raw).2 := by
  have frame_eq : encodeInto status (low32 pid.toNat) (max v.lastTimestamp raw.toNat)
      v.candidateNonce (low32 payload.toNat) = some (m.frame status payload pid raw).encode := by
    rw [mirrors.candidateNonce, mirrors.lastTimestamp, toNat_max, low32_toNat, low32_toNat,
      encodeInto_eq, BeatMachine.frame]
  have nonce_eq : v.candidateNonce = (m.frame status payload pid raw).nonce.toNat :=
    mirrors.candidateNonce
  have timestamp_eq : max v.lastTimestamp raw.toNat =
      (m.frame status payload pid raw).timestamp.toNat := by
    rw [mirrors.lastTimestamp, toNat_max]
    rfl
  have clocked := mirrors.clocked raw (m.frame status payload pid raw).encode
  unfold Handle.emit BeatMachine.emit
  dsimp only
  rw [reads, frame_eq, nonce_eq, timestamp_eq]
  generalize m.frame status payload pid raw = frame at clocked
  obtain ⟨outcome, returned, sent, after, buffered⟩ := sendFrame_mirrors clocked rfl
  unfold BeatMachine.transmit
  dsimp only at *
  generalize Handle.sendFrame { v with
    clockRegressions :=
      if raw.toNat < v.lastTimestamp then saturatingAdd v.clockRegressions 1
      else v.clockRegressions
    buf := frame.encode } = first at *
  rw [← sent]
  obtain ⟨result, w⟩ := first
  cases returned
  cases outcome with
  | sent => exact ⟨rfl, (after.commit frame).reset⟩
  | failed error => exact ⟨rfl, after.reset⟩
  | dropped reason =>
    dsimp only [BeatOutcome.verdict]
    by_cases due : (m.clocked raw).due
    · rw [if_pos (after.due.mpr due), if_pos due]
      exact retry_mirrors after.reset buffered
    · rw [if_neg (after.due.not.mpr due), if_neg due]
      exact ⟨rfl, after.count⟩

/-- A fork shows in the pid. -/
def Visible (v : Handle (Tape PyException)) (process : PyProcess) : Prop :=
  process.pid = v.connectPid → process.forkEpoch = v.connectForkEpoch

instance (v : Handle (Tape PyException)) (process : PyProcess) : Decidable (Visible v process) :=
  inferInstanceAs (Decidable (_ → _))

variable {process : PyProcess} {pid : UInt32}

theorem stale_iff (mirrors : Mirrors script v m) (current : process.pid = pid.toNat)
    (visible : Visible v process) :
    process.pid ≠ v.connectPid ∨ process.forkEpoch ≠ v.connectForkEpoch ↔ pid ≠ m.connectPid := by
  have same_pid : process.pid = v.connectPid ↔ pid = m.connectPid := by
    rw [current, mirrors.connectPid, Int.natCast_inj, UInt32.toNat_inj]
  by_cases same : process.pid = v.connectPid
  · simp [same, visible same, same_pid.mp same]
  · simp [same, same_pid.not.mp same]

/-- The time that a beat reads: that of the new session if it opens one. -/
def reading (v : Handle (Tape PyException)) (pid now clock : Int) : Nat :=
  elapsedNs (if pid ≠ v.connectPid then now else v.startNs) clock

theorem beat_mirrors {raw : UInt64} {now clock : Int} (mirrors : Mirrors script v m)
    (current : process.pid = pid.toNat) (visible : Visible v process)
    (reads : reading v process.pid now clock = raw.toNat) (status : Status) (payload : UInt32) :
    verdict (v.beat process now clock (some status) payload.toNat).1 =
        some (m.beat script status payload pid raw).1 ∧
      Mirrors script (v.beat process now clock (some status) payload.toNat).2
        (m.beat script status payload pid raw).2 := by
  have new_pid : process.pid ≠ v.connectPid ↔ pid ≠ m.connectPid := by
    rw [current, mirrors.connectPid, Ne, Int.natCast_inj, UInt32.toNat_inj]
  have stale := stale_iff mirrors current visible
  unfold BeatMachine.beat
  by_cases stall : status = .stall
  · subst stall
    exact ⟨rfl, mirrors.reset⟩
  rw [if_neg stall, Handle.beat]
  rotate_left
  · exact stall
  rw [if_neg mirrors.not_closed]
  unfold reading at reads
  by_cases other : pid ≠ m.connectPid
  · rw [if_pos (new_pid.mpr other)] at reads
    rw [if_pos (stale.mpr other), if_pos other]
    have logged := mirrors.log .reconnect
    dsimp only [Transport.reconnect]
    obtain ⟨answer, renewed⟩ | ⟨e, answer, refused⟩ := mirrors.reconnect_cases
    · rw [answer, renewed, current]
      refine emit_mirrors (m := (m.log .reconnect).opened pid) ?_ ?_ pid status payload
      · exact {
          logged with
          nonce := rfl
          lastTimestamp := rfl
          connectPid := rfl
          drops := (Nat.zero_min _).symm
          forkRecoveries := by
            have counted := mirrors.forkRecoveries
            dsimp only [BeatMachine.opened, BeatMachine.log]
            rw [saturatingAdd_eq]
            omega }
      · exact reads
    · rw [answer, refused]
      exact ⟨rfl, logged⟩
  · rw [if_neg (new_pid.not.mpr other)] at reads
    rw [if_neg (stale.not.mpr other), if_neg other, current]
    exact emit_mirrors mirrors reads pid status payload

theorem reconnect_mirrors (mirrors : Mirrors script v m) (current : process.pid = pid.toNat) :
    opens (v.reconnect process).1 = some (m.reconnect script pid).1 ∧
      Mirrors script (v.reconnect process).2 (m.reconnect script pid).2 := by
  unfold Handle.reconnect BeatMachine.reconnect
  rw [if_neg mirrors.not_closed]
  have logged := mirrors.log .reconnect
  dsimp only [Transport.reconnect]
  obtain ⟨answer, renewed⟩ | ⟨e, answer, refused⟩ := mirrors.reconnect_cases
  · rw [answer, renewed]
    exact ⟨rfl, { logged with connectPid := current, drops := (Nat.zero_min _).symm }⟩
  · rw [answer, refused]
    exact ⟨rfl, logged⟩

theorem setReconnectAfter_mirrors (mirrors : Mirrors script v m) {n : Nat}
    (reachable : n ≤ u64Max) :
    Mirrors script (v.setReconnectAfter (some n)) (m.setReconnectAfter n) :=
  { mirrors with
    drops := (Nat.zero_min _).symm
    reconnectAfter := rfl
    reachable }

end Varta.Ports.Python
