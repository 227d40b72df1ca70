import Varta.Vlp.Frame
import Varta.Client.SecureTransport

/-!
# Panic hooks

The hooks of `varta-client`'s `panic.rs`. Each installation captures its own clock; the
timestamps of all hooks of a process go through one high-water mark. A secure hook seals its
frame under a prefix derived from the pid, the timestamp and its own counter. The clock is a
natural number of nanoseconds.
-/
namespace Varta.Client

open Machine Vlp

variable {Salt Iv Key : Type}

def maxValidTerminalTimestamp : Nat := u64Bound - 2

/-- `claim_terminal_timestamp`: what is claimed is also the new high-water mark. The retries
of its compare-and-swap loop end with the value of a mark nobody else changed meanwhile. -/
def claimTerminalTimestamp (rawTimestamp highWater : Nat) : Option Nat :=
  let raw := min rawTimestamp maxValidTerminalTimestamp
  if highWater ≥ maxValidTerminalTimestamp then none
  else some (max raw (highWater + 1))

/-- `start.elapsed()` in nanoseconds, as far as it fits. -/
def elapsed (start clock : Nat) : Nat := min (clock - start) (u64Bound - 1)

def nextTerminalTimestamp (start clock highWater : Nat) : Option Nat :=
  claimTerminalTimestamp (elapsed start clock) highWater

/-- `fetch_add` on the counter, and the value before it if the wire format has room for it. -/
def claimSecurePanicCounter (counter : Nat) : Option UInt32 × Nat :=
  (if counter < 2 ^ 32 then some (UInt32.ofNat counter) else none, (counter + 1) % u64Bound)

/-- What a secure hook puts on the wire: the nonce, and the frame it seals under it. -/
structure SecurePanicFrame (Iv Key : Type) where
  key : Key
  noncePrefix : Iv
  ivCounter : UInt32
  frame : Frame
  deriving DecidableEq, Repr

/-- `aeadSeal` answers for `crypto::seal`. -/
def buildSecurePanicFrame (key : Key) (noncePrefix : Iv) (ivCounter panicPid : UInt32)
    (timestamp : Nat) (aeadSeal : Bool) : Option (SecurePanicFrame Iv Key) :=
  if aeadSeal then
    some ⟨key, noncePrefix, ivCounter, ⟨.critical, panicPid, timestamp, nonceTerminal, 0⟩⟩
  else none

/-- What a hook's closure has captured. A plain hook has no salt and no key. -/
structure Hook (Salt Key : Type) where
  start : Nat
  secure : Option (Salt × Key)
  deriving DecidableEq, Repr

inductive PanicInstallError where
  | entropyUnavailable (errno : Nat)
  | socketBind (e : ClientError)

/-- `install` and `install_panic_handler_udp`. -/
def install (start : Nat) (b : Binding) : Except ClientError (Hook Salt Key) := do
  b.result
  return ⟨start, none⟩

def installWithEntropyProvider (start : Nat) (key : Key) (provider : Except Nat Salt)
    (b : Binding) : Except PanicInstallError (Hook Salt Key) := do
  let forkSalt ← provider.mapError .entropyUnavailable
  b.result.mapError .socketBind
  return ⟨start, some (forkSalt, key)⟩

/-- What a call of a hook leaves behind. -/
structure HookRun (Iv Key : Type) where
  lastTerminalTimestamp : Nat
  ivCounter : Nat
  sealed : Option (SecurePanicFrame Iv Key)

section

variable (derivePanicIvPrefix : Salt → UInt32 → Nat → UInt32 → Option Iv)

/-- The body of a secure hook's closure. -/
def Hook.runSecure (start : Nat) (forkSalt : Salt) (key : Key) (clock : Nat) (panicPid : UInt32)
    (lastTerminalTimestamp ivCounter : Nat) (aeadSeal : Bool) : HookRun Iv Key :=
  match nextTerminalTimestamp start clock lastTerminalTimestamp with
  | none => ⟨lastTerminalTimestamp, ivCounter, none⟩
  | some timestamp =>
    match claimSecurePanicCounter ivCounter with
    -- from here on the timestamp is claimed, whether or not a frame is sent
    | (none, ivCounter) => ⟨timestamp, ivCounter, none⟩
    | (some claimed, ivCounter) =>
      match derivePanicIvPrefix forkSalt panicPid timestamp claimed with
      | none => ⟨timestamp, ivCounter, none⟩
      | some noncePrefix =>
        ⟨timestamp, ivCounter,
          buildSecurePanicFrame key noncePrefix claimed panicPid timestamp aeadSeal⟩

def Hook.run (hook : Hook Salt Key) (clock : Nat) (panicPid : UInt32)
    (lastTerminalTimestamp ivCounter : Nat) (aeadSeal : Bool) : HookRun Iv Key :=
  match hook.secure with
  | none =>
    let claimed := nextTerminalTimestamp hook.start clock lastTerminalTimestamp
    ⟨claimed.getD lastTerminalTimestamp, ivCounter, none⟩
  | some (forkSalt, key) =>
    Hook.runSecure derivePanicIvPrefix hook.start forkSalt key clock panicPid
      lastTerminalTimestamp ivCounter aeadSeal

/-! ### What a call does -/

theorem claimTerminalTimestamp_eq {raw highWater timestamp : Nat}
    (claimed : claimTerminalTimestamp raw highWater = some timestamp) :
    timestamp = max (min raw maxValidTerminalTimestamp) (highWater + 1) := by
  unfold claimTerminalTimestamp at claimed
  split at claimed
  · simp at claimed
  · simpa using claimed.symm

variable {derivePanicIvPrefix} {hook : Hook Salt Key} {clock mark ivCounter : Nat}
  {panicPid : UInt32} {aeadSeal : Bool}

/-- The timestamps of a process only go up. -/
theorem Hook.run_mark_le :
    mark ≤ (hook.run derivePanicIvPrefix clock panicPid mark ivCounter aeadSeal :
      HookRun Iv Key).lastTerminalTimestamp := by
  unfold run runSecure
  cases claim : nextTerminalTimestamp hook.start clock mark with
  | none => cases hook.secure <;> simp
  | some timestamp =>
    have stamped := claimTerminalTimestamp_eq claim
    cases hook.secure with
    | none =>
      simp only [Option.getD_some]
      omega
    | some captured =>
      dsimp only
      split
      · dsimp only
        omega
      · split <;> dsimp only <;> omega

/-- A sealed frame carries what was claimed for it. -/
structure Hook.Seals (derivePanicIvPrefix : Salt → UInt32 → Nat → UInt32 → Option Iv)
    (hook : Hook Salt Key) (clock : Nat) (panicPid : UInt32) (mark ivCounter : Nat)
    (sealed : SecurePanicFrame Iv Key) : Prop where
  timestamp : sealed.frame.timestamp =
    max (min (elapsed hook.start clock) maxValidTerminalTimestamp) (mark + 1)
  counter : sealed.ivCounter.toNat = ivCounter
  pid : sealed.frame.pid = panicPid
  derived : ∃ salt, hook.secure = some (salt, sealed.key) ∧
    derivePanicIvPrefix salt panicPid sealed.frame.timestamp sealed.ivCounter =
      some sealed.noncePrefix

theorem Hook.run_sealed {sealed : SecurePanicFrame Iv Key}
    (fired : (hook.run derivePanicIvPrefix clock panicPid mark ivCounter aeadSeal).sealed =
      some sealed) :
    hook.Seals derivePanicIvPrefix clock panicPid mark ivCounter sealed ∧
      (hook.run derivePanicIvPrefix clock panicPid mark ivCounter aeadSeal :
        HookRun Iv Key).lastTerminalTimestamp = sealed.frame.timestamp := by
  revert fired
  unfold run
  cases secure : hook.secure with
  | none => simp
  | some captured =>
    obtain ⟨salt, key⟩ := captured
    unfold runSecure
    cases claim : nextTerminalTimestamp hook.start clock mark with
    | none => simp
    | some timestamp =>
      have stamped := claimTerminalTimestamp_eq claim
      by_cases room : ivCounter < 2 ^ 32
      · simp only [claimSecurePanicCounter, room, if_true]
        cases derived : derivePanicIvPrefix salt panicPid timestamp (UInt32.ofNat ivCounter) with
        | none => simp
        | some noncePrefix =>
          unfold buildSecurePanicFrame
          cases aeadSeal with
          | false => simp
          | true =>
            rintro ⟨⟩
            refine ⟨⟨stamped, ?_, rfl, salt, secure, derived⟩, rfl⟩
            simpa using Nat.mod_eq_of_lt room
      · -- the counter is used up: nothing is sealed
        simp only [claimSecurePanicCounter, if_neg room]
        intro fired
        cases fired

end

end Varta.Client
