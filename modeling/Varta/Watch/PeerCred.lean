import Varta.Vlp.Frame

/-!
# Origins

Where a beat came from and how far it can be trusted: `peer_cred/types.rs` and
`peer_cred/recv.rs`, with what a listener hands to the observer.
-/
namespace Varta.Watch

open Vlp (Frame DecodeError)

inductive BeatOrigin where
  | kernelAttested
  | operatorAttestedTransport
  | networkUnverified
  | socketModeOnly
  deriving DecidableEq, Repr

def BeatOrigin.trustRank : BeatOrigin → Nat
  | .networkUnverified => 0
  | .socketModeOnly => 1
  | .operatorAttestedTransport => 2
  | .kernelAttested => 3

def BeatOrigin.canReplace (origin pinned : BeatOrigin) : Bool :=
  decide (origin.trustRank > pinned.trustRank)

/-- The two origins of UDP-class transports. -/
def BeatOrigin.isNetwork : BeatOrigin → Bool
  | .operatorAttestedTransport => true
  | .networkUnverified => true
  | _ => false

inductive TransportTrust where
  | operator
  | untrusted
  deriving DecidableEq, Repr

def TransportTrust.origin : TransportTrust → BeatOrigin
  | .operator => .operatorAttestedTransport
  | .untrusted => .networkUnverified

theorem TransportTrust.origin_isNetwork (trust : TransportTrust) : trust.origin.isNetwork = true := by
  cases trust <;> rfl

/-- `origin_for_peer_pid`: a datagram is attested if the kernel names its sender. -/
def originForPeerPid (peerPid : UInt32) : BeatOrigin :=
  if peerPid ≠ 0 then .kernelAttested else .socketModeOnly

/-- What a listener returns; the frame is what `Frame::decode` makes of the bytes. -/
inductive RecvResult where
  | authenticated (peerPid : UInt32) (origin : BeatOrigin) (data : Except DecodeError Frame)
  | wouldBlock
  | shortRead
  | ctrlTruncated
  | ioError (consumed : Bool)

def RecvResult.consumedDatagram : RecvResult → Bool
  | .authenticated _ _ _ => true
  | .shortRead => true
  | .ctrlTruncated => true
  -- an error may come after the datagram was taken from the queue
  | .ioError consumed => consumed
  | .wouldBlock => false

end Varta.Watch
