import Varta.Ports.BeatMachine
import Varta.Ports.Wire

/-!
# The .NET agent

`Varta.cs` over any transport. The retry after a reconnect is a second call of the function that
counts drops, and a fork opens a session without forgetting them.
-/
namespace Varta.Ports.DotNet

open Vlp

/-! ### Exceptions -/

/-- The members of `SocketError` that `ErrnoClassifier` tells apart. -/
inductive SocketError where
  | wouldBlock
  | noBufferSpaceAvailable
  | connectionRefused
  | addressNotAvailable
  | hostUnreachable
  | connectionReset
  | notConnected
  | shutdown
  | disconnecting
  | other (name : String)
  deriving DecidableEq, Repr

/-- `code.ToString()`. -/
def SocketError.name : SocketError → String
  | .wouldBlock => "WouldBlock"
  | .noBufferSpaceAvailable => "NoBufferSpaceAvailable"
  | .connectionRefused => "ConnectionRefused"
  | .addressNotAvailable => "AddressNotAvailable"
  | .hostUnreachable => "HostUnreachable"
  | .connectionReset => "ConnectionReset"
  | .notConnected => "NotConnected"
  | .shutdown => "Shutdown"
  | .disconnecting => "Disconnecting"
  | .other name => name

structure SocketException where
  socketErrorCode : SocketError
  nativeErrorCode : Int
  deriving DecidableEq, Repr

/-- `IsNonFatalTransportException` is true of all but the last. -/
inductive NetException where
  | socket (ex : SocketException)
  | other (typeName : String)
  | fatal (typeName : String)
  deriving DecidableEq, Repr

/-- `ErrnoClassifier.Classify`. -/
def classify (ex : SocketException) : BeatOutcome :=
  let code := ex.socketErrorCode
  let errno := ex.nativeErrorCode
  if code = .wouldBlock ∨ code = .noBufferSpaceAvailable then
    if errno = 28 then .dropped .storageFull else .dropped .kernelQueueFull
  else if code = .connectionRefused ∨ code = .addressNotAvailable ∨ code = .hostUnreachable ∨
      errno = 2 then .dropped .noObserver
  else if code = .connectionReset ∨ code = .notConnected ∨ code = .shutdown ∨
      code = .disconnecting then .dropped .peerGone
  else if errno = 28 then .dropped .storageFull
  else .failed ⟨errno, code.name⟩

/-- `BeatErrorFromTransportException`. -/
def beatError : NetException → BeatError
  | .socket ex => ⟨ex.nativeErrorCode, ex.socketErrorCode.name⟩
  | .other typeName | .fatal typeName => ⟨0, typeName⟩

/-! ### The handle -/

/-- `Varta`. -/
structure Handle (T : Type) where
  transport : T
  scratch : Bytes32
  connectPid : Int
  /-- The next one to send. -/
  nonce : UInt64
  lastTimestamp : UInt64
  clockRegressions : UInt64
  forkRecoveries : UInt64
  consecutiveDropped : UInt32
  reconnectAfter : UInt32
  disposed : Bool

def saturatingIncrement (v : UInt64) : UInt64 := .ofBitVec (Machine.saturatingIncrement v.toBitVec)

def saturatingIncrementU32 (v : UInt32) : UInt32 :=
  .ofBitVec (Machine.saturatingIncrement v.toBitVec)

/-- Ticks of 100 nanoseconds. -/
def saturatingNanosFromTicks (ticks : Int64) : UInt64 :=
  if ticks > Int64.maxValue / 100 then Int64.maxValue.toUInt64 else (ticks * 100).toUInt64

namespace Handle

variable {T : Type}

/-- The constructor. -/
def new (transport : T) (pid : Int) : Handle T where
  transport
  scratch := Bytes32.zero
  connectPid := pid
  nonce := 1
  lastTimestamp := 0
  clockRegressions := 0
  forkRecoveries := 0
  consecutiveDropped := 0
  reconnectAfter := 0
  disposed := false

def commitSentFrame (v : Handle T) (nextNonce timestamp : UInt64) : Handle T :=
  { v with nonce := nextNonce, lastTimestamp := timestamp }

variable [Transport NetException T]

/-- `allowRetry: true` is one retry, `allowRetry: false` is none. -/
def trySendWithReconnectAfter (pid : Int) (nextNonce timestamp : UInt64) :
    Nat → Handle T → Except NetException BeatOutcome × Handle T
  | retries, v =>
    match Transport.send v.transport v.scratch with
    | (.ok sent, transport) =>
      if sent ≠ 32 then (.ok (.failed writeZero), { v with transport, consecutiveDropped := 0 })
      else (.ok .sent, { commitSentFrame v nextNonce timestamp with
        transport, consecutiveDropped := 0 })
    | (.error (.socket ex), transport) =>
      match classify ex with
      | .dropped reason =>
        let v := { v with
          transport, consecutiveDropped := saturatingIncrementU32 v.consecutiveDropped }
        match retries with
        | 0 => (.ok (.dropped reason), v)
        | retries + 1 =>
          if v.reconnectAfter > 0 ∧ v.consecutiveDropped ≥ v.reconnectAfter then
            let v := { v with consecutiveDropped := 0 }
            match Transport.reconnect v.transport with
            | (.error _, transport) => (.ok (.dropped reason), { v with transport })
            | (.ok (), transport) =>
              trySendWithReconnectAfter pid nextNonce timestamp retries
                { v with transport, connectPid := pid }
          else (.ok (.dropped reason), v)
      | outcome => (.ok outcome, { v with transport, consecutiveDropped := 0 })
    | (.error (.other typeName), transport) =>
      (.ok (.failed (beatError (.other typeName))), { v with transport, consecutiveDropped := 0 })
    | (.error (.fatal typeName), transport) => (.error (.fatal typeName), { v with transport })

/-- `Beat` after the fork check. `ticks` is what the stopwatch shows. -/
def emit (v : Handle T) (pid : Int) (ticks : Int64) (status : UInt8) (payload : UInt32) :
    Except NetException BeatOutcome × Handle T :=
  let elapsed := saturatingNanosFromTicks ticks
  let clockRegressions :=
    if elapsed < v.lastTimestamp then saturatingIncrement v.clockRegressions
    else v.clockRegressions
  let nowNs := if elapsed < v.lastTimestamp then v.lastTimestamp else elapsed
  let nextNonce := if v.nonce < 0xFFFFFFFFFFFFFFFF - 1 then v.nonce + 1 else 0
  let scratch := encodeInto status (UInt32.ofInt pid) nowNs v.nonce payload
  trySendWithReconnectAfter pid nextNonce nowNs 1 { v with clockRegressions, scratch }

def beat (v : Handle T) (pid : Int) (ticks : Int64) (status : UInt8) (payload : UInt32) :
    Except NetException BeatOutcome × Handle T :=
  if ¬ isAgentStatus status then (.ok (.failed invalidInput), { v with consecutiveDropped := 0 })
  else if v.disposed then (.ok (.failed closed), { v with consecutiveDropped := 0 })
  else if pid ≠ v.connectPid then
    match Transport.reconnect v.transport with
    | (.error (.fatal typeName), transport) => (.error (.fatal typeName), { v with transport })
    | (.error ex, transport) => (.ok (.failed (beatError ex)), { v with transport })
    | (.ok (), transport) =>
      emit { v with
        transport
        connectPid := pid
        nonce := 1
        lastTimestamp := 0
        forkRecoveries := saturatingIncrement v.forkRecoveries } pid ticks status payload
  else v.emit pid ticks status payload

def reconnect (v : Handle T) (pid : Int) : Except NetException Unit × Handle T :=
  if v.disposed then (.error (.other "ObjectDisposedException"), { v with consecutiveDropped := 0 })
  else
    match Transport.reconnect v.transport with
    | (.error ex, transport) => (.error ex, { v with transport })
    | (.ok (), transport) =>
      (.ok (), { v with transport, connectPid := pid, consecutiveDropped := 0 })

omit [Transport NetException T] in
def setReconnectAfter (v : Handle T) (n : UInt32) : Handle T :=
  { v with reconnectAfter := n, consecutiveDropped := 0 }

end Handle

/-- What a send makes of an answer. -/
def outcome : Except NetException Nat → Except NetException BeatOutcome
  | .ok sent => .ok (if sent ≠ 32 then .failed writeZero else .sent)
  | .error (.socket ex) => .ok (classify ex)
  | .error (.other typeName) => .ok (.failed (beatError (.other typeName)))
  | .error (.fatal typeName) => .error (.fatal typeName)

/-- Whether a reconnect succeeded, if what it threw is not fatal. -/
def opens : Except NetException Unit → Option Bool
  | .ok () => some true
  | .error (.fatal _) => none
  | .error _ => some false

/-- The answers of the tape are of the classes that the script says. -/
def Plays (script : Script) (tape : Tape NetException) : Prop :=
  tape.Plays (fun answer => verdict (outcome answer)) opens script

theorem toNat_saturatingIncrementU32 (v : UInt32) :
    (saturatingIncrementU32 v).toNat = min (v.toNat + 1) (2 ^ 32 - 1) :=
  Machine.toNat_saturatingIncrement ..

theorem classify_ne_sent (ex : SocketException) : classify ex ≠ .sent := by
  unfold classify
  dsimp only
  repeat' split
  all_goals simp

end Varta.Ports.DotNet
