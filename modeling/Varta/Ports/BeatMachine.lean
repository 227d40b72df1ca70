import Varta.Client.Beat
import Varta.Lib.Transducer

/-!
# The beat state machine

What every agent does, apart from its language: a beat with a new pid opens a session, a frame
goes out under the next nonce and is committed when the transport takes it, and after enough
drops in a row the transport is opened again and the frame sent once more. The machine counts
without a bound. The transport is a script: what becomes of each call, by its number.
-/
namespace Varta.Ports

open Vlp

/-- What became of a frame, in the classes of `BeatOutcome`. -/
inductive Verdict where
  | sent
  | dropped
  | failed
  deriving DecidableEq, Repr

/-- The bytes that an agent may be asked to send, in Go and .NET. -/
def isAgentStatus (status : UInt8) : Prop := status = 0 ∨ status = 1 ∨ status = 2

instance (status : UInt8) : Decidable (isAgentStatus status) :=
  inferInstanceAs (Decidable (_ ∨ _ ∨ _))

theorem isAgentStatus_iff (status : Status) : isAgentStatus status.toU8 ↔ status ≠ .stall := by
  cases status <;> decide

/-- A call of the transport. -/
inductive TransportCall where
  | send (frame : Bytes32)
  | reconnect
  deriving DecidableEq

structure Script where
  sends : Nat → Verdict
  reconnects : Nat → Bool

structure BeatMachine where
  nonce : UInt64
  lastTimestamp : UInt64
  connectPid : UInt32
  /-- The dropped beats in a row. -/
  drops : Nat
  reconnectAfter : Nat
  clockRegressions : Nat
  forkRecoveries : Nat
  calls : List TransportCall

/-- What an agent is asked to do. `raw` is the time since the session began. -/
inductive Request where
  | beat (status : Status) (payload : UInt32) (pid : UInt32) (raw : UInt64)
  | reconnect (pid : UInt32)
  | setReconnectAfter (n : Nat)

inductive Reply where
  | beat (verdict : Verdict)
  | reconnect (ok : Bool)
  | set
  deriving DecidableEq, Repr

namespace BeatMachine

/-- An agent that has connected. -/
def connected (pid : UInt32) : BeatMachine := ⟨0, 0, pid, 0, 0, 0, 0, []⟩

def log (m : BeatMachine) (call : TransportCall) : BeatMachine :=
  { m with calls := m.calls ++ [call] }

def commit (m : BeatMachine) (frame : WireFrame) : BeatMachine :=
  { m with nonce := frame.nonce, lastTimestamp := frame.timestamp }

/-- The terminal nonce is skipped. -/
def nextNonce (m : BeatMachine) : UInt64 :=
  if m.nonce.toNat < nonceTerminal - 1 then m.nonce + 1 else 0

def frame (m : BeatMachine) (status : Status) (payload pid : UInt32) (raw : UInt64) : WireFrame :=
  .new status pid (max m.lastTimestamp raw) m.nextNonce payload

def clocked (m : BeatMachine) (raw : UInt64) : BeatMachine :=
  { m with clockRegressions :=
      if raw < m.lastTimestamp then m.clockRegressions + 1 else m.clockRegressions }

/-- The session of a new process. -/
def opened (m : BeatMachine) (pid : UInt32) : BeatMachine :=
  { m with connectPid := pid, nonce := 0, lastTimestamp := 0, drops := 0
           forkRecoveries := m.forkRecoveries + 1 }

/-- This drop completes the window. -/
def due (m : BeatMachine) : Prop := 0 < m.reconnectAfter ∧ m.reconnectAfter ≤ m.drops + 1

instance (m : BeatMachine) : Decidable m.due := inferInstanceAs (Decidable (_ ∧ _))

variable (script : Script)

/-- A dropped frame over a new connection. -/
def retry (m : BeatMachine) (frame : WireFrame) : Verdict × BeatMachine :=
  match script.reconnects m.calls.length with
  | false => (.dropped, m.log .reconnect)
  | true =>
    let m := m.log .reconnect
    match script.sends m.calls.length with
    | .sent => (.sent, (m.log (.send frame.encode)).commit frame)
    | verdict => (verdict, m.log (.send frame.encode))

/-- A frame, and what follows from its verdict. -/
def transmit (m : BeatMachine) (frame : WireFrame) : Verdict × BeatMachine :=
  match script.sends m.calls.length with
  | .sent => (.sent, { (m.log (.send frame.encode)).commit frame with drops := 0 })
  | .failed => (.failed, { m.log (.send frame.encode) with drops := 0 })
  | .dropped =>
    if m.due then retry script { m.log (.send frame.encode) with drops := 0 } frame
    else (.dropped, { m.log (.send frame.encode) with drops := m.drops + 1 })

def emit (m : BeatMachine) (status : Status) (payload pid : UInt32) (raw : UInt64) :
    Verdict × BeatMachine :=
  (m.clocked raw).transmit script (m.frame status payload pid raw)

def beat (m : BeatMachine) (status : Status) (payload pid : UInt32) (raw : UInt64) :
    Verdict × BeatMachine :=
  if status = .stall then (.failed, { m with drops := 0 })
  else if pid ≠ m.connectPid then
    match script.reconnects m.calls.length with
    | false => (.failed, m.log .reconnect)
    | true => ((m.log .reconnect).opened pid).emit script status payload pid raw
  else m.emit script status payload pid raw

def reconnect (m : BeatMachine) (pid : UInt32) : Bool × BeatMachine :=
  match script.reconnects m.calls.length with
  | false => (false, m.log .reconnect)
  | true => (true, { m.log .reconnect with connectPid := pid, drops := 0 })

def setReconnectAfter (m : BeatMachine) (n : Nat) : BeatMachine :=
  { m with reconnectAfter := n, drops := 0 }

def step (m : BeatMachine) : Request → Reply × BeatMachine
  | .beat status payload pid raw => (m.beat script status payload pid raw).map .beat id
  | .reconnect pid => (m.reconnect script pid).map .reconnect id
  | .setReconnectAfter n => (.set, m.setReconnectAfter n)

end BeatMachine

/-! ### Outcomes in the ports -/

/-- The number of the error and a word for it. -/
structure BeatError where
  errno : Int
  kind : String
  deriving DecidableEq, Repr

inductive BeatOutcome where
  | sent
  | dropped (reason : Client.DropReason)
  | failed (error : BeatError)
  deriving DecidableEq, Repr

def BeatOutcome.verdict : BeatOutcome → Verdict
  | .sent => .sent
  | .dropped _ => .dropped
  | .failed _ => .failed

/-- The class of what a call returns, if it does not throw. -/
def verdict {ε : Type} (result : Except ε BeatOutcome) : Option Verdict :=
  result.toOption.map BeatOutcome.verdict

def invalidInput : BeatError := ⟨0, "InvalidInput"⟩

def closed : BeatError := ⟨0, "Closed"⟩

def writeZero : BeatError := ⟨0, "WriteZero"⟩

/-! ### Transports that follow a script -/

/-- The operations of `BeatTransport` in a port, with the errors of its language. -/
class Transport (ε : outParam Type) (T : Type) where
  send : T → Bytes32 → Except ε Nat × T
  reconnect : T → Except ε Unit × T

/-- A transport that answers by the number of the call and keeps the calls. -/
structure Tape (ε : Type) where
  sends : Nat → Except ε Nat
  reconnects : Nat → Except ε Unit
  calls : List TransportCall

namespace Tape

variable {ε : Type}

def log (tape : Tape ε) (call : TransportCall) : Tape ε :=
  { tape with calls := tape.calls ++ [call] }

instance : Transport ε (Tape ε) where
  send tape frame := (tape.sends tape.calls.length, tape.log (.send frame))
  reconnect tape := (tape.reconnects tape.calls.length, tape.log .reconnect)

/-- Each answer is of the class that the script says, as the agent classifies it. -/
structure Plays (verdict : Except ε Nat → Option Verdict) (opens : Except ε Unit → Option Bool)
    (script : Script) (tape : Tape ε) : Prop where
  sends (call : Nat) : verdict (tape.sends call) = some (script.sends call)
  reconnects (call : Nat) : opens (tape.reconnects call) = some (script.reconnects call)

theorem Plays.log {verdict : Except ε Nat → Option Verdict} {opens : Except ε Unit → Option Bool}
    {script : Script} {tape : Tape ε} (plays : tape.Plays verdict opens script)
    (call : TransportCall) : (tape.log call).Plays verdict opens script :=
  ⟨plays.sends, plays.reconnects⟩

end Tape

end Varta.Ports
