import Varta.Watch.PeerCred
import Varta.Watch.ProbeTable

/-!
# Secure UDP listener

Replay protection of `secure_listener/mod.rs`. Decryption is an oracle: a datagram either
opens under one of the keys or it does not. Instants and durations are in nanoseconds.
-/
namespace Varta.Watch

open Machine
open Vlp (Frame DecodeError nonceTerminal)

/-! ### One sender -/

/-- An authenticated datagram: the IV prefix and counter, and the frame inside. -/
structure Sealed where
  ivRandom : UInt64
  counter : Nat
  frame : Frame
  deriving DecidableEq, Repr

structure SenderState where
  identity : UInt32
  ivRandom : UInt64
  lastCounter : Nat
  prevIvRandom : UInt64
  prevLastCounter : Nat
  maxRegularNonce : Nat
  maxTerminalTimestamp : Option Nat
  lastSeen : Nat
  lastSeenNs : Nat
  deriving DecidableEq, Repr

namespace SenderState

def observeFrameClock (state : SenderState) (frameNonce frameTimestamp : Nat) : SenderState :=
  if frameNonce = nonceTerminal then
    -- two marks: timestamps of terminal frames, nonces of regular ones
    let newest := state.maxTerminalTimestamp.elim frameTimestamp (max · frameTimestamp)
    { state with maxTerminalTimestamp := some newest }
  else { state with maxRegularNonce := max state.maxRegularNonce frameNonce }

/-- `SenderState::new`. -/
def new (d : Sealed) (now nowNs : Nat) : SenderState :=
  let state : SenderState := {
    identity := d.frame.pid
    ivRandom := d.ivRandom
    lastCounter := d.counter
    -- a fresh session has no prefix behind the current one
    prevIvRandom := 0
    prevLastCounter := 0
    maxRegularNonce := 0
    maxTerminalTimestamp := none
    lastSeen := now
    lastSeenNs := nowNs }
  state.observeFrameClock d.frame.nonce d.frame.timestamp

def acceptsAgedOutPrefix (state : SenderState) (frameNonce frameTimestamp : Nat) : Bool :=
  if frameNonce = nonceTerminal then
    match state.maxTerminalTimestamp with
    | some max => decide (frameTimestamp > max)
    | none => true
  else decide (frameNonce > state.maxRegularNonce)

/-- The bookkeeping every accepted frame of a known prefix or a rotation shares. -/
def seen (state : SenderState) (d : Sealed) (now nowNs : Nat) : SenderState :=
  { state.observeFrameClock d.frame.nonce d.frame.timestamp with
    lastSeen := now, lastSeenNs := nowNs }

/-- The prefix is in the one-deep history. -/
def knows (state : SenderState) (ivRandom : UInt64) : Bool :=
  decide (state.ivRandom = ivRandom ∨ state.prevIvRandom = ivRandom)

/-- A frame that the high-water marks refuse opens a new session: never a terminal frame,
and only after the sender has been quiet for the gap. -/
def restarts (state : SenderState) (gap nowNs : Nat) (d : Sealed) : Bool :=
  !state.knows d.ivRandom && !state.acceptsAgedOutPrefix d.frame.nonce d.frame.timestamp &&
    decide (d.frame.nonce ≠ nonceTerminal ∧ nowNs - state.lastSeenNs ≥ gap)

/-- The arms of `try_record_replay_state_at` for a known sender; `none` refuses. -/
def record (state : SenderState) (gap now nowNs : Nat) (d : Sealed) : Option SenderState :=
  if state.ivRandom = d.ivRandom then
    if d.counter > state.lastCounter then
      some ({ state with lastCounter := d.counter }.seen d now nowNs)
    else none
  else if state.prevIvRandom = d.ivRandom then
    -- a late datagram of the previous prefix; the prefixes keep their places
    if d.counter > state.prevLastCounter then
      some ({ state with prevLastCounter := d.counter }.seen d now nowNs)
    else none
  else if state.acceptsAgedOutPrefix d.frame.nonce d.frame.timestamp then
    -- a new prefix takes the place of the current one
    some ({ state with
      prevIvRandom := state.ivRandom
      prevLastCounter := state.lastCounter
      ivRandom := d.ivRandom
      lastCounter := d.counter }.seen d now nowNs)
  else if d.frame.nonce = nonceTerminal ∨ nowNs - state.lastSeenNs < gap then none
  -- the session restart: everything known of the old session is forgotten
  else some (SenderState.new d now nowNs)

end SenderState

/-! ### The sender store -/

def maxSenderStates : Nat := 1024

/-- Ten minutes. -/
def evictionTtl : Nat := 600000000000

/-- One minute. -/
def evictionInterval : Nat := 60000000000

structure SecureUdpListener where
  slab : List (Option SenderState)
  /-- Free slots, the next one to use first. -/
  freeList : List Nat
  index : BoundedIndex UInt32
  nextEvictionCheck : Nat
  lastRecvConsumed : Bool
  decryptFailures : Nat
  truncatedCount : Nat
  senderStateFull : Nat
  replayRefused : Nat
  recoveryTrust : TransportTrust
  sessionRestartGap : Nat

namespace SecureUdpListener

/-- `bind`, with the trust and the gap of the builders. -/
def new (hash32 : UInt32 → UInt32) (trust : TransportTrust) (gap now : Nat) :
    SecureUdpListener where
  slab := List.replicate maxSenderStates none
  freeList := List.range maxSenderStates
  index := BoundedIndex.new hash32 maxSenderStates
  nextEvictionCheck := now + evictionInterval
  lastRecvConsumed := false
  decryptFailures := 0
  truncatedCount := 0
  senderStateFull := 0
  replayRefused := 0
  recoveryTrust := trust
  sessionRestartGap := gap

def allocateSenderSlot (l : SecureUdpListener) (identity : UInt32) (state : SenderState) :
    Bool × SecureUdpListener :=
  match l.freeList with
  | [] => (false, l)
  | slot :: rest =>
    match l.index.insert identity slot with
    | (index, false) => (false, { l with index := index })
    | (index, true) =>
      if slot < l.slab.length then
        (true, { l with slab := l.slab.set slot (some state), freeList := rest, index := index })
      -- a free slot past the slab is dropped, and the index rolled back
      else (false, { l with freeList := rest, index := (index.remove identity).1 })

def tryRecordReplayStateAt (l : SecureUdpListener) (now nowNs : Nat) (d : Sealed) :
    Bool × SecureUdpListener :=
  match l.index.get d.frame.pid with
  | some slot =>
    -- the index led to an empty slot: refused rather than replaced
    match l.slab[slot]?.join with
    | none => (false, l)
    | some state =>
      match state.record l.sessionRestartGap now nowNs d with
      | none => (false, l)
      | some state => (true, { l with slab := l.slab.set slot (some state) })
  | none => l.allocateSenderSlot d.frame.pid (SenderState.new d now nowNs)

/-- One slot of the sweep. -/
def evictSlotAt (now : Nat) (l : SecureUdpListener) (slot : Nat) : SecureUdpListener :=
  match l.slab[slot]?.join with
  | none => l
  | some state =>
    if now - state.lastSeen ≥ evictionTtl then
      { l with
        slab := l.slab.set slot none
        index := (l.index.remove state.identity).1
        freeList := slot :: l.freeList }
    else l

def evictStaleSendersAt (l : SecureUdpListener) (now : Nat) : SecureUdpListener :=
  -- every slot in turn
  (List.range l.slab.length).foldl (evictSlotAt now) l

end SecureUdpListener

/-! ### Receiving -/

/-- What arrives at a socket: the sender's pid as the kernel reports it on a Unix socket,
the envelope of the secure wire format and whether it opens, and the decoded content. -/
structure Datagram where
  peerPid : UInt32
  ivRandom : UInt64
  counter : Nat
  opens : Bool
  data : Except DecodeError Frame

/-- What the socket has for one `recv`. -/
inductive Ingress where
  | wouldBlock
  | shortRead
  | ctrlTruncated
  | ioError (consumed : Bool)
  | datagram (d : Datagram)

/-- The readings of the system clock in one secure `recv`: at its start, in the periodic
sweep, and in the sweep for a full table. -/
structure Instants where
  now : Nat
  sweep : Nat
  full : Nat

namespace SecureUdpListener

def periodicSweep (l : SecureUdpListener) (at_ : Instants) : SecureUdpListener :=
  if at_.now ≥ l.nextEvictionCheck then
    { l.evictStaleSendersAt at_.sweep with nextEvictionCheck := at_.now + evictionInterval }
  else l

/-- A decoded frame on its way through the capacity guard and the replay check. -/
def admitFrame (l : SecureUdpListener) (at_ : Instants) (nowNs : Nat) (d : Sealed) :
    Bool × SecureUdpListener :=
  let known := (l.index.get d.frame.pid).isSome
  let l :=
    -- only a new sender needs room
    if known = false ∧ l.index.len ≥ maxSenderStates then l.evictStaleSendersAt at_.full else l
  if known = false ∧ l.index.len ≥ maxSenderStates then
    (false, { l with senderStateFull := u64SaturatingAdd l.senderStateFull 1 })
  else
    match l.tryRecordReplayStateAt at_.now nowNs d with
    | (true, l) => (true, l)
    | (false, l) =>
      -- a known sender is refused by the guard, a new one for lack of room
      if known then (false, { l with replayRefused := u64SaturatingAdd l.replayRefused 1 })
      else (false, { l with senderStateFull := u64SaturatingAdd l.senderStateFull 1 })

def recv (l : SecureUdpListener) (at_ : Instants) (nowNs : Nat) (ingress : Ingress) :
    RecvResult × SecureUdpListener :=
  -- the sweep comes first, whatever the socket has
  let l := { l with lastRecvConsumed := false }.periodicSweep at_
  match ingress with
  | .wouldBlock => (.wouldBlock, l)
  | .ctrlTruncated => (.wouldBlock, l)
  | .ioError _ => (.ioError false, l)
  | .shortRead =>
    (.shortRead, { l with
      lastRecvConsumed := true, truncatedCount := u64SaturatingAdd l.truncatedCount 1 })
  | .datagram d =>
    let l := { l with lastRecvConsumed := true }
    if d.opens = false then
      -- a datagram that does not open is consumed and not reported
      (.wouldBlock, { l with decryptFailures := u64SaturatingAdd l.decryptFailures 1 })
    else
      let origin := l.recoveryTrust.origin
      match d.data with
      | .error e => (.authenticated 0 origin (.error e), l)
      | .ok frame =>
        match l.admitFrame at_ nowNs ⟨d.ivRandom, d.counter, frame⟩ with
        | (true, l) => (.authenticated 0 origin (.ok frame), l)
        | (false, l) => (.wouldBlock, l)

end SecureUdpListener

end Varta.Watch
