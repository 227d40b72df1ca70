import Varta.Lib.Machine

/-!
# VLP frames

`Frame` of `varta-vlp` as the observer sees it after `Frame::decode`. The magic and the
version are constants of every decoded frame and are left out; 64-bit fields are natural
numbers.
-/
namespace Varta.Vlp

open Machine

inductive Status where
  | ok
  | degraded
  | critical
  | stall
  deriving DecidableEq, Repr

/-- The reserved nonce of a panic hook's last frame. -/
def nonceTerminal : Nat := u64Bound - 1

structure Frame where
  status : Status
  pid : UInt32
  timestamp : Nat
  nonce : Nat
  payload : UInt32
  deriving DecidableEq, Repr

inductive DecodeError where
  | badMagic
  | badVersion
  | badCrc (expected actual : UInt32)
  | badStatus (byte : UInt8)
  | stallOnWire
  | badPid (pid : UInt32)
  | badTimestamp (timestamp : Nat)
  | badNonce (nonce : Nat) (status : Status)
  deriving DecidableEq, Repr

def Frame.isTerminal (frame : Frame) : Bool := frame.nonce = nonceTerminal

end Varta.Vlp
