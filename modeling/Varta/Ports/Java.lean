import Varta.Ports.BeatMachine
import Varta.Ports.Wire

/-!
# The Java agent

`Varta.java` over any transport. All its integers are signed, `nonce` is the next one to send,
and `catch (IOException e)` lets unchecked exceptions out. Over a transport that follows a script
it is the beat state machine, and it throws nothing.
-/
namespace Varta.Ports.Java

open Vlp

/-! ### Exceptions -/

/-- The classes of `IOException` that `ErrnoClassifier` tells apart. -/
inductive IOKind where
  | portUnreachable
  | closedChannel
  | socket
  | other
  deriving DecidableEq, Repr

structure IOException where
  kind : IOKind
  simpleName : String
  message : Option String
  /-- The message, or nothing, after `toLowerCase(Locale.ROOT)`. -/
  lowered : String
  /-- What `tryExtractJunixsocketErrno` finds, or 0. -/
  junixErrno : Int
  deriving DecidableEq, Repr

inductive Throwable where
  | io (e : IOException)
  | unchecked (className message : String)
  deriving DecidableEq, Repr

def contains (text part : String) : Bool := decide (part.toList <:+: text.toList)

/-- `mapErrno`: the numbers of Linux, macOS and Solaris together. -/
def mapErrno (errno : Int) : Option Client.DropReason :=
  if errno = 11 ∨ errno = 35 ∨ errno = 105 ∨ errno = 55 ∨ errno = 132 then some .kernelQueueFull
  else if errno = 111 ∨ errno = 61 ∨ errno = 2 then some .noObserver
  else if errno = 104 ∨ errno = 54 ∨ errno = 32 ∨ errno = 107 ∨ errno = 57 then some .peerGone
  else if errno = 28 then some .storageFull
  else none

/-- The four tests of a message. -/
def matchesMessage (text : String) : Option Client.DropReason :=
  if ["no buffer space", "would block", "resource temporarily unavailable",
      "operation would block"].any (contains text) then some .kernelQueueFull
  else if ["connection refused", "no such file", "no such file or directory"].any (contains text) then
    some .noObserver
  else if ["connection reset", "broken pipe", "not connected",
      "socket is not connected"].any (contains text) then some .peerGone
  else if contains text "no space left" then some .storageFull
  else none

/-- `ErrnoClassifier.classify`. -/
def classify (e : IOException) : BeatOutcome :=
  if e.message = some "WriteZero" then .failed writeZero
  else if e.kind = .portUnreachable then .dropped .noObserver
  else if e.kind = .closedChannel then .dropped .peerGone
  else
    let mapped := if e.junixErrno > 0 then mapErrno e.junixErrno else none
    -- the tests of a `SocketException` are made once more for every exception
    let heuristic := if e.kind = .socket then matchesMessage e.lowered else none
    match (mapped <|> heuristic) <|> matchesMessage e.lowered with
    | some reason => .dropped reason
    | none => .failed ⟨e.junixErrno, e.simpleName ++ ": " ++ e.message.getD ""⟩

/-! ### The handle -/

/-- `Varta`. -/
structure Handle (T : Type) where
  transport : T
  scratch : Bytes32
  startNanos : Int64
  connectPid : Int32
  nonce : Int64
  lastTimestamp : Int64
  clockRegressions : Int64
  forkRecoveries : Int64
  reconnectAfter : Int32
  consecutiveDropped : Int32
  closed : Bool

def nonceMin : Int64 := 1

/-- All bits set. -/
def nonceTerminal : Int64 := -1

def saturatingInc (v : Int64) : Int64 := .ofBitVec (Machine.saturatingInc v.toBitVec)

def saturatingIncInt (v : Int32) : Int32 := .ofBitVec (Machine.saturatingInc v.toBitVec)

namespace Handle

variable {T : Type}

/-- The constructor. -/
def new (transport : T) (pid : Int32) (nanoTime : Int64) : Handle T where
  transport
  scratch := Bytes32.zero
  startNanos := nanoTime
  connectPid := pid
  nonce := nonceMin
  lastTimestamp := 0
  clockRegressions := 0
  forkRecoveries := 0
  reconnectAfter := 0
  consecutiveDropped := 0
  closed := false

def commitSentFrame (v : Handle T) (nextNonce timestamp : Int64) : Handle T :=
  { v with nonce := nextNonce, lastTimestamp := timestamp }

/-- The nonce to send and the one after it. -/
def candidateNonce (v : Handle T) : Int64 × Int64 :=
  if v.nonce = nonceTerminal then (0, nonceMin) else (v.nonce, v.nonce + 1)

/-- The reserved timestamp is not sent. -/
def wireTimestamp (nowNs : Int64) : Int64 := if nowNs = -1 then -2 else nowNs

variable [Transport Throwable T]

def sendScratch (v : Handle T) : Except Throwable BeatOutcome × Handle T :=
  match Transport.send v.transport v.scratch with
  | (.ok written, transport) =>
    (.ok (if written = 0 then .dropped .kernelQueueFull
      else if written ≠ 32 then .failed writeZero else .sent), { v with transport })
  | (.error (.io e), transport) => (.ok (classify e), { v with transport })
  | (.error (.unchecked name message), transport) =>
    (.error (.unchecked name message), { v with transport })

/-- The retry over a new connection. -/
def retry (v : Handle T) (nextNonce timestamp : Int64) (dropped : BeatOutcome) :
    Except Throwable BeatOutcome × Handle T :=
  match Transport.reconnect v.transport with
  | (.error (.io _), transport) => (.ok dropped, { v with transport })
  | (.error (.unchecked name message), transport) =>
    (.error (.unchecked name message), { v with transport })
  | (.ok (), transport) =>
    match sendScratch { v with transport } with
    | (.ok .sent, v) => (.ok .sent, v.commitSentFrame nextNonce timestamp)
    | (outcome, v) => (outcome, v)

/-- `beat` after the fork check. -/
def emit (v : Handle T) (pid : Int32) (nanoTime : Int64) (status : AgentStatus) (payload : Int32) :
    Except Throwable BeatOutcome × Handle T :=
  let elapsed := nanoTime - v.startNanos
  let clockRegressions :=
    if elapsed < v.lastTimestamp then saturatingInc v.clockRegressions else v.clockRegressions
  let nowNs := if elapsed < v.lastTimestamp then v.lastTimestamp else elapsed
  let (candidate, nextNonce) := v.candidateNonce
  let scratch := encodeInto status pid (wireTimestamp nowNs) candidate payload
  match sendScratch { v with clockRegressions, scratch } with
  | (.ok .sent, v) =>
    (.ok .sent, { v.commitSentFrame nextNonce nowNs with consecutiveDropped := 0 })
  | (.ok (.dropped reason), v) =>
    let v := { v with consecutiveDropped := saturatingIncInt v.consecutiveDropped }
    if v.reconnectAfter > 0 ∧ v.consecutiveDropped ≥ v.reconnectAfter then
      retry { v with consecutiveDropped := 0 } nextNonce nowNs (.dropped reason)
    else (.ok (.dropped reason), v)
  | (.ok (.failed error), v) => (.ok (.failed error), { v with consecutiveDropped := 0 })
  | (.error e, v) => (.error e, v)

/-- `none` is `null`. -/
def beat (v : Handle T) (pid : Int32) (nanoTime : Int64) (status : Option AgentStatus)
    (payload : Int32) : Except Throwable BeatOutcome × Handle T :=
  match status with
  | none => (.ok (.failed invalidInput), v)
  | some status =>
    if v.closed then (.ok (.failed Ports.closed), { v with consecutiveDropped := 0 })
    else if pid ≠ v.connectPid then
      match Transport.reconnect v.transport with
      | (.error (.io _), transport) => (.ok (.failed ⟨0, "ReconnectFailed"⟩), { v with transport })
      | (.error (.unchecked name message), transport) =>
        (.error (.unchecked name message), { v with transport })
      | (.ok (), transport) =>
        emit { v with
          transport
          connectPid := pid
          nonce := nonceMin
          lastTimestamp := 0
          consecutiveDropped := 0
          forkRecoveries := saturatingInc v.forkRecoveries } pid nanoTime status payload
    else v.emit pid nanoTime status payload

def reconnect (v : Handle T) (pid : Int32) : Except Throwable Unit × Handle T :=
  if v.closed then (.error (.unchecked "IllegalStateException" "Varta.reconnect: Closed"), v)
  else
    match Transport.reconnect v.transport with
    | (.error (.io e), transport) =>
      (.error (.unchecked "IllegalStateException"
        ("Varta.reconnect: " ++ e.message.getD "null")), { v with transport })
    | (.error (.unchecked name message), transport) =>
      (.error (.unchecked name message), { v with transport })
    | (.ok (), transport) =>
      (.ok (), { v with transport, connectPid := pid, consecutiveDropped := 0 })

omit [Transport Throwable T] in
def setReconnectAfter (v : Handle T) (n : Int32) : Except Throwable Unit × Handle T :=
  if n < 0 then (.error (.unchecked "IllegalArgumentException" "n must be >= 0"), v)
  else (.ok (), { v with reconnectAfter := n, consecutiveDropped := 0 })

end Handle

/-! ### The machine -/

/-- What `sendScratch` makes of an answer. -/
def outcome : Except Throwable Nat → Except Throwable BeatOutcome
  | .ok written =>
    .ok (if written = 0 then .dropped .kernelQueueFull
      else if written ≠ 32 then .failed writeZero else .sent)
  | .error (.io e) => .ok (classify e)
  | .error (.unchecked name message) => .error (.unchecked name message)

/-- Whether a reconnect succeeded, if what it threw is an I/O exception. -/
def opens : Except Throwable Unit → Option Bool
  | .ok () => some true
  | .error (.io _) => some false
  | .error (.unchecked ..) => none

theorem toInt_saturatingInc (v : Int64) :
    (saturatingInc v).toInt = min (v.toInt + 1) (2 ^ 63 - 1) :=
  Machine.toInt_saturatingInc (by decide) _

theorem toInt_saturatingIncInt (v : Int32) :
    (saturatingIncInt v).toInt = min (v.toInt + 1) (2 ^ 31 - 1) :=
  Machine.toInt_saturatingInc (by decide) _

/-- The answers of the tape are of the classes that the script says. -/
def Plays (script : Script) (tape : Tape Throwable) : Prop :=
  tape.Plays (fun answer => verdict (outcome answer)) opens script

variable {script : Script} {v : Handle (Tape Throwable)} {m : BeatMachine}

/-- The handle is open and in the state of the machine: it has the next nonce where the machine
has the last one, and its clock has not passed the signed integers. -/
structure Mirrors (script : Script) (v : Handle (Tape Throwable)) (m : BeatMachine) : Prop where
  plays : Plays script v.transport
  calls : v.transport.calls = m.calls
  isOpen : v.closed = false
  nonce : v.nonce = (m.nonce + 1).toInt64
  lastTimestamp : v.lastTimestamp = m.lastTimestamp.toInt64
  signed : m.lastTimestamp.toNat < 2 ^ 63
  connectPid : v.connectPid = m.connectPid.toInt32
  drops : v.consecutiveDropped.toInt = min m.drops (2 ^ 31 - 1)
  reconnectAfter : v.reconnectAfter.toInt = m.reconnectAfter
  clockRegressions : v.clockRegressions.toInt = min m.clockRegressions (2 ^ 63 - 1)
  forkRecoveries : v.forkRecoveries.toInt = min m.forkRecoveries (2 ^ 63 - 1)

section

variable (mirrors : Mirrors script v m)

include mirrors

theorem Mirrors.not_closed : ¬ v.closed = true :=
  Bool.not_eq_true _ ▸ mirrors.isOpen

theorem Mirrors.log (call : TransportCall) :
    Mirrors script { v with transport := v.transport.log call } (m.log call) :=
  { mirrors with
    plays := mirrors.plays.log call
    calls := congrArg (· ++ [call]) mirrors.calls }

theorem Mirrors.commit {frame : WireFrame} (signed : frame.timestamp.toNat < 2 ^ 63) :
    Mirrors script (v.commitSentFrame (frame.nonce + 1).toInt64 frame.timestamp.toInt64)
      (m.commit frame) :=
  { mirrors with nonce := rfl, lastTimestamp := rfl, signed }

theorem Mirrors.reset : Mirrors script { v with consecutiveDropped := 0 } { m with drops := 0 } :=
  { mirrors with
    drops := by
      change (0 : Int) = min ((0 : Nat) : Int) (2 ^ 31 - 1)
      decide }

theorem Mirrors.count :
    Mirrors script { v with consecutiveDropped := saturatingIncInt v.consecutiveDropped }
      { m with drops := m.drops + 1 } :=
  { mirrors with
    drops := by
      have counted := mirrors.drops
      dsimp only
      rw [toInt_saturatingIncInt]
      omega }

theorem Mirrors.due :
    (v.reconnectAfter > 0 ∧ saturatingIncInt v.consecutiveDropped ≥ v.reconnectAfter) ↔ m.due := by
  have reachable := v.reconnectAfter.toInt_lt
  have threshold := mirrors.reconnectAfter
  have counted := mirrors.drops
  rw [gt_iff_lt, ge_iff_le, Int32.lt_iff_toInt_lt, Int32.le_iff_toInt_le,
    toInt_saturatingIncInt, BeatMachine.due]
  change 0 < _ ∧ _ ↔ _
  omega

theorem sendScratch_mirrors {frame : Bytes32} (encoded : v.scratch = frame) :
    ∃ outcome : BeatOutcome, v.sendScratch.1 = .ok outcome ∧
      outcome.verdict = script.sends m.calls.length ∧
      Mirrors script v.sendScratch.2 (m.log (.send frame)) ∧ v.sendScratch.2.scratch = frame := by
  subst encoded
  have class_ := mirrors.plays.sends v.transport.calls.length
  have logged := mirrors.log (.send v.scratch)
  rw [← mirrors.calls]
  unfold Handle.sendScratch
  dsimp only [Transport.send]
  cases answer : v.transport.sends v.transport.calls.length with
  | ok written =>
    rw [answer] at class_
    exact ⟨_, rfl, Option.some.inj class_, logged, rfl⟩
  | error e =>
    rw [answer] at class_
    cases e with
    | io e => exact ⟨_, rfl, Option.some.inj class_, logged, rfl⟩
    | unchecked name message => cases class_

/-- A reconnect of the tape succeeds or throws an I/O exception, as the script says. -/
theorem Mirrors.reconnect_cases :
    v.transport.reconnects v.transport.calls.length = .ok () ∧
        script.reconnects m.calls.length = true ∨
      ∃ e, v.transport.reconnects v.transport.calls.length = .error (.io e) ∧
        script.reconnects m.calls.length = false := by
  have class_ := mirrors.plays.reconnects v.transport.calls.length
  rw [← mirrors.calls]
  cases answer : v.transport.reconnects v.transport.calls.length with
  | ok done =>
    rw [answer] at class_
    exact .inl ⟨rfl, (Option.some.inj class_).symm⟩
  | error e =>
    rw [answer] at class_
    cases e with
    | io e => exact .inr ⟨e, rfl, (Option.some.inj class_).symm⟩
    | unchecked name message => cases class_

theorem retry_mirrors {frame : WireFrame} {reason : Client.DropReason}
    (encoded : v.scratch = frame.encode) (signed : frame.timestamp.toNat < 2 ^ 63) :
    verdict (v.retry (frame.nonce + 1).toInt64 frame.timestamp.toInt64 (.dropped reason)).1 =
        some (m.retry script frame).1 ∧
      Mirrors script
        (v.retry (frame.nonce + 1).toInt64 frame.timestamp.toInt64 (.dropped reason)).2
        (m.retry script frame).2 := by
  unfold Handle.retry BeatMachine.retry
  dsimp only [Transport.reconnect]
  obtain ⟨answer, renewed⟩ | ⟨e, answer, refused⟩ := mirrors.reconnect_cases
  · rw [answer, renewed]
    obtain ⟨outcome, returned, sent, after, -⟩ :=
      sendScratch_mirrors (mirrors.log .reconnect) encoded
    dsimp only
    rw [← sent]
    generalize Handle.sendScratch { v with transport := v.transport.log .reconnect } = again at *
    obtain ⟨result, w⟩ := again
    cases returned
    cases outcome with
    | sent => exact ⟨rfl, after.commit signed⟩
    | dropped | failed => exact ⟨rfl, after⟩
  · rw [answer, refused]
    exact ⟨rfl, mirrors.log .reconnect⟩

/-- The next nonce to send is the one after the last, and the terminal one is skipped. -/
theorem Mirrors.candidateNonce :
    v.candidateNonce = (m.nextNonce.toInt64, (m.nextNonce + 1).toInt64) := by
  have bound := m.nonce.toNat_lt
  have terminal_iff : v.nonce = nonceTerminal ↔ m.nonce.toNat = 2 ^ 64 - 2 := by
    have same : v.nonce = nonceTerminal ↔ m.nonce + 1 = -1 := by
      rw [mirrors.nonce, ← Int64.toBitVec_inj, ← UInt64.toBitVec_inj]
      rfl
    rw [same, ← UInt64.toNat_inj, UInt64.toNat_add]
    change (m.nonce.toNat + 1) % 2 ^ 64 = 2 ^ 64 - 1 ↔ _
    omega
  unfold Handle.candidateNonce BeatMachine.nextNonce
  have terminal : Vlp.nonceTerminal - 1 = 2 ^ 64 - 2 := rfl
  rw [terminal]
  by_cases last : m.nonce.toNat = 2 ^ 64 - 2
  · rw [if_pos (terminal_iff.mpr last), if_neg (by omega)]
    rfl
  rw [if_neg (terminal_iff.not.mpr last), mirrors.nonce]
  split
  · rfl
  · -- the machine never stands at the terminal nonce, but both would go on with 0
    have at_terminal : m.nonce = -1 := UInt64.toNat_inj.mp (by change _ = 2 ^ 64 - 1; omega)
    rw [at_terminal]
    decide

end

theorem toInt_toInt64 {n : UInt64} (signed : n.toNat < 2 ^ 63) : n.toInt64.toInt = n.toNat := by
  change n.toBitVec.toInt = _
  rw [BitVec.toInt_eq_toNat_cond, UInt64.toNat_toBitVec]
  omega

theorem toInt64_lt_iff {a b : UInt64} (first : a.toNat < 2 ^ 63) (second : b.toNat < 2 ^ 63) :
    a.toInt64 < b.toInt64 ↔ a < b := by
  rw [Int64.lt_iff_toInt_lt, toInt_toInt64 first, toInt_toInt64 second, Int.ofNat_lt,
    ← UInt64.lt_iff_toNat_lt]

theorem wireTimestamp_eq {n : UInt64} (signed : n.toNat < 2 ^ 63) :
    Handle.wireTimestamp n.toInt64 = n.toInt64 := by
  unfold Handle.wireTimestamp
  rw [if_neg]
  intro reserved
  have negative := congrArg Int64.toInt reserved
  rw [toInt_toInt64 signed] at negative
  change (n.toNat : Int) = -1 at negative
  omega

variable {raw : UInt64}

/-- Signed comparison is that of the unsigned times while both are small. -/
theorem Mirrors.earlier_iff (mirrors : Mirrors script v m) (signed : raw.toNat < 2 ^ 63) :
    raw.toInt64 < v.lastTimestamp ↔ raw < m.lastTimestamp := by
  rw [mirrors.lastTimestamp, toInt64_lt_iff signed mirrors.signed]

theorem frame_timestamp (m : BeatMachine) (status : Status) (payload pid : UInt32) (raw : UInt64) :
    (m.frame status payload pid raw).timestamp =
      if m.lastTimestamp ≤ raw then raw else m.lastTimestamp := rfl

section

variable (mirrors : Mirrors script v m)

include mirrors

theorem Mirrors.candidateTimestamp (signed : raw.toNat < 2 ^ 63) (status : Status)
    (payload pid : UInt32) :
    (if raw.toInt64 < v.lastTimestamp then v.lastTimestamp else raw.toInt64) =
      (m.frame status payload pid raw).timestamp.toInt64 := by
  have earlier := mirrors.earlier_iff signed
  rw [frame_timestamp]
  by_cases less : raw < m.lastTimestamp
  · rw [if_pos (earlier.mpr less), if_neg (UInt64.not_le.mpr less), mirrors.lastTimestamp]
  · rw [if_neg (earlier.not.mpr less), if_pos (UInt64.not_lt.mp less)]

theorem Mirrors.frame_signed (signed : raw.toNat < 2 ^ 63) (status : Status) (payload pid : UInt32) :
    (m.frame status payload pid raw).timestamp.toNat < 2 ^ 63 := by
  rw [frame_timestamp]
  split
  · exact signed
  · exact mirrors.signed

/-- The clock is read, and the frame is written. -/
theorem Mirrors.clocked (signed : raw.toNat < 2 ^ 63) (scratch : Bytes32) :
    Mirrors script
      { v with
        clockRegressions :=
          if raw.toInt64 < v.lastTimestamp then saturatingInc v.clockRegressions
          else v.clockRegressions
        scratch }
      (m.clocked raw) :=
  { mirrors with
    clockRegressions := by
      have counted := mirrors.clockRegressions
      dsimp only [BeatMachine.clocked]
      simp only [mirrors.earlier_iff signed]
      split
      · rw [toInt_saturatingInc]
        omega
      · exact counted }

theorem emit_mirrors {nanoTime : Int64} (reads : nanoTime - v.startNanos = raw.toInt64)
    (signed : raw.toNat < 2 ^ 63) (pid : UInt32) (status : AgentStatus) (payload : UInt32) :
    verdict (v.emit pid.toInt32 nanoTime status payload.toInt32).1 =
        some (m.emit script status.status payload pid raw).1 ∧
      Mirrors script (v.emit pid.toInt32 nanoTime status payload.toInt32).2
        (m.emit script status.status payload pid raw).2 := by
  have timestamp_eq := mirrors.candidateTimestamp signed status.status payload pid
  have bounded := mirrors.frame_signed signed status.status payload pid
  have frame_eq : encodeInto status pid.toInt32
      (Handle.wireTimestamp (m.frame status.status payload pid raw).timestamp.toInt64)
      m.nextNonce.toInt64 payload.toInt32 = (m.frame status.status payload pid raw).encode := by
    rw [wireTimestamp_eq bounded, encodeInto_eq]
    rfl
  have clocked := mirrors.clocked signed (m.frame status.status payload pid raw).encode
  have nonce_eq : m.nextNonce = (m.frame status.status payload pid raw).nonce := rfl
  unfold Handle.emit BeatMachine.emit
  dsimp only
  rw [reads, timestamp_eq, mirrors.candidateNonce, frame_eq, nonce_eq]
  generalize m.frame status.status payload pid raw = frame at clocked bounded
  obtain ⟨outcome, returned, sent, after, buffered⟩ := sendScratch_mirrors clocked rfl
  unfold BeatMachine.transmit
  dsimp only at *
  generalize Handle.sendScratch { v with
    clockRegressions :=
      if raw.toInt64 < v.lastTimestamp then saturatingInc v.clockRegressions
      else v.clockRegressions
    scratch := frame.encode } = first at *
  rw [← sent]
  obtain ⟨result, w⟩ := first
  cases returned
  cases outcome with
  | sent => exact ⟨rfl, (after.commit bounded).reset⟩
  | failed error => exact ⟨rfl, after.reset⟩
  | dropped reason =>
    dsimp only [BeatOutcome.verdict]
    by_cases due : (m.clocked raw).due
    · rw [if_pos (after.due.mpr due), if_pos due]
      exact retry_mirrors after.reset buffered bounded
    · rw [if_neg (after.due.not.mpr due), if_neg due]
      exact ⟨rfl, after.count⟩

theorem beat_mirrors {nanoTime : Int64} (reads : nanoTime - v.startNanos = raw.toInt64)
    (signed : raw.toNat < 2 ^ 63) (pid : UInt32) (status : AgentStatus) (payload : UInt32) :
    verdict (v.beat pid.toInt32 nanoTime (some status) payload.toInt32).1 =
        some (m.beat script status.status payload pid raw).1 ∧
      Mirrors script (v.beat pid.toInt32 nanoTime (some status) payload.toInt32).2
        (m.beat script status.status payload pid raw).2 := by
  have new_pid : pid.toInt32 ≠ v.connectPid ↔ pid ≠ m.connectPid := by
    rw [mirrors.connectPid, Ne, ← Int32.toBitVec_inj, Ne, ← UInt32.toBitVec_inj]
    rfl
  unfold Handle.beat BeatMachine.beat
  rw [if_neg status.status_ne_stall]
  dsimp only
  rw [if_neg mirrors.not_closed]
  by_cases other : pid ≠ m.connectPid
  · rw [if_pos (new_pid.mpr other), if_pos other]
    have logged := mirrors.log .reconnect
    dsimp only [Transport.reconnect]
    obtain ⟨answer, renewed⟩ | ⟨e, answer, refused⟩ := mirrors.reconnect_cases
    · rw [answer, renewed]
      refine emit_mirrors (m := (m.log .reconnect).opened pid) ?_ ?_ signed pid status payload
      · exact {
          logged with
          nonce := rfl
          lastTimestamp := rfl
          signed := Nat.two_pow_pos 63
          connectPid := rfl
          drops := mirrors.reset.drops
          forkRecoveries := by
            have counted := mirrors.forkRecoveries
            dsimp only [BeatMachine.opened, BeatMachine.log]
            rw [toInt_saturatingInc]
            omega }
      · exact reads
    · rw [answer, refused]
      exact ⟨rfl, logged⟩
  · rw [if_neg (new_pid.not.mpr other), if_neg other]
    exact emit_mirrors mirrors reads signed pid status payload

theorem reconnect_mirrors (pid : UInt32) :
    (v.reconnect pid.toInt32).1.toBool = (m.reconnect script pid).1 ∧
      Mirrors script (v.reconnect pid.toInt32).2 (m.reconnect script pid).2 := by
  unfold Handle.reconnect BeatMachine.reconnect
  rw [if_neg mirrors.not_closed]
  have logged := mirrors.log .reconnect
  dsimp only [Transport.reconnect]
  obtain ⟨answer, renewed⟩ | ⟨e, answer, refused⟩ := mirrors.reconnect_cases
  · rw [answer, renewed]
    exact ⟨rfl, { logged with connectPid := rfl, drops := mirrors.reset.drops }⟩
  · rw [answer, refused]
    exact ⟨rfl, logged⟩

theorem setReconnectAfter_mirrors {n : Int32} (positive : 0 ≤ n.toInt) :
    (v.setReconnectAfter n).1 = .ok () ∧
      Mirrors script (v.setReconnectAfter n).2 (m.setReconnectAfter n.toInt.toNat) := by
  have nonnegative : ¬ n < 0 := by
    rw [Int32.lt_iff_toInt_lt]
    change ¬ n.toInt < 0
    omega
  rw [Handle.setReconnectAfter, if_neg nonnegative]
  exact ⟨rfl, {
    mirrors with
    drops := mirrors.reset.drops
    reconnectAfter := by
      change n.toInt = (n.toInt.toNat : Int)
      omega }⟩

end

end Varta.Ports.Java
