import Varta.Watch.SecureListener
import Varta.Watch.Tracker

/-!
# Observer

`Observer::poll` of `observer/mod.rs` in a Linux build, with the queue of stalls it feeds.
What the operating system answers is an input of each call: the raw clock, what the socket
has, and the identity read under `/proc`.
-/
namespace Varta.Watch

open Machine
open Vlp (Frame Status DecodeError nonceTerminal)

/-! ### Classifying a beat -/

def linuxEffectiveOriginForIdentity (origin : BeatOrigin) (peerPidNsInode peerGeneration : Option Nat)
    (slotPidNsInodeBefore slotGenerationBefore : Option (Option Nat)) : BeatOrigin :=
  let incomingIdentityComplete := peerPidNsInode.isSome && peerGeneration.isSome
  -- the identity of whatever the slot holds now, of the same process or not
  let pinnedIdentityComplete := slotPidNsInodeBefore.join.isSome && slotGenerationBefore.join.isSome
  if origin = .kernelAttested && !incomingIdentityComplete && !pinnedIdentityComplete then
    .socketModeOnly
  else origin

def originRepairBypassesPerPid (incoming pinned : BeatOrigin) : Bool :=
  if incoming.canReplace pinned = false then false
  -- a slot that was downgraded for its identity is not repaired by credentials alone
  else if incoming = .kernelAttested ∧ pinned = .socketModeOnly then false
  else true

def crossNamespaceRefused (observerNsInode peerPidNsInode : Option Nat) : Bool :=
  match peerPidNsInode with
  | some peer => decide (observerNsInode ≠ some peer)
  | none => false

/-! ### The global limiter -/

structure GlobalRateLimit where
  tokensMilli : Nat
  capacityMilli : Nat
  refillMilliPerSec : Nat
  refillRemainder : Nat
  lastRefillNs : Nat
  deriving DecidableEq, Repr

namespace GlobalRateLimit

def new (ratePerSec burst : Nat) : GlobalRateLimit :=
  if ratePerSec = 0 ∨ burst = 0 then ⟨0, 0, 0, 0, 0⟩
  else
    let capacityMilli := u64SaturatingMul burst 1000
    ⟨capacityMilli, capacityMilli, u64SaturatingMul ratePerSec 1000, 0, 0⟩

def isDisabled (limit : GlobalRateLimit) : Bool := limit.capacityMilli = 0

def refill (limit : GlobalRateLimit) (nowNs : Nat) : GlobalRateLimit :=
  let elapsedNs := nowNs - limit.lastRefillNs
  if elapsedNs > 0 then
    let refillUnits := elapsedNs * limit.refillMilliPerSec + limit.refillRemainder
    -- whole milli-tokens; the rest is carried to the next refill
    let addedMilli := min (refillUnits / 1000000000) limit.capacityMilli
    let tokensMilli := min (u64SaturatingAdd limit.tokensMilli addedMilli) limit.capacityMilli
    { limit with
      tokensMilli := tokensMilli
      refillRemainder :=
        if tokensMilli = limit.capacityMilli then 0 else refillUnits % 1000000000
      lastRefillNs := nowNs }
  else limit

def tryConsume (limit : GlobalRateLimit) (nowNs : Nat) : Bool × GlobalRateLimit :=
  if limit.isDisabled then (true, limit)
  else
    let limit := limit.refill nowNs
    if limit.tokensMilli ≥ 1000 then (true, { limit with tokensMilli := limit.tokensMilli - 1000 })
    else (false, limit)

end GlobalRateLimit

/-! ### State -/

structure BeatEvent where
  pid : UInt32
  status : Status
  payload : UInt32
  nonce : Nat
  origin : BeatOrigin
  pidNsInode : Option Nat
  observerNs : Nat
  deriving DecidableEq, Repr

/-- The events `poll` returns; stalls are queued. -/
inductive Event where
  | beat (beat : BeatEvent)
  | decode (error : DecodeError) (observerNs : Nat)
  | authFailure (claimedPid : UInt32) (observerNs : Nat)
  | originConflict (claimedPid : UInt32) (observedOrigin slotOrigin : BeatOrigin)
    (observerNs : Nat)
  | namespaceConflict (claimedPid : UInt32) (observedNsInode observerNsInode : Option Nat)
    (observerNs : Nat)
  | io (observerNs : Nat)
  | ctrlTruncated (observerNs : Nat)
  deriving DecidableEq, Repr

/-- The transports: a Unix socket, plaintext UDP and secure UDP. -/
inductive Listener where
  | uds
  | udp (trust : TransportTrust)
  | secure (listener : SecureUdpListener)

namespace Listener

def recv (listener : Listener) (at_ : Instants) (nowNs : Nat) (ingress : Ingress) :
    RecvResult × Listener :=
  match listener with
  | .uds =>
    match ingress with
    | .wouldBlock => (.wouldBlock, .uds)
    | .shortRead => (.shortRead, .uds)
    | .ctrlTruncated => (.ctrlTruncated, .uds)
    | .ioError consumed => (.ioError consumed, .uds)
    | .datagram d => (.authenticated d.peerPid (originForPeerPid d.peerPid) d.data, .uds)
  | .udp trust =>
    match ingress with
    | .wouldBlock => (.wouldBlock, .udp trust)
    | .shortRead => (.shortRead, .udp trust)
    -- a UDP socket has no ancillary data to truncate
    | .ctrlTruncated => (.wouldBlock, .udp trust)
    | .ioError _ => (.ioError false, .udp trust)
    -- plaintext UDP names no sender, and its origin is the configured trust
    | .datagram d => (.authenticated 0 trust.origin d.data, .udp trust)
  | .secure l => Prod.map id .secure (l.recv at_ nowNs ingress)

def lastRecvConsumed : Listener → Bool
  | .secure l => l.lastRecvConsumed
  | _ => false

end Listener

structure Observer where
  listeners : List Listener
  tracker : Tracker
  thresholdNs : Nat
  /-- A stall is taken out of its place when it is delivered. -/
  stallQueue : List (Option Tracker.StallEvent)
  stallCursor : Nat
  stallDeferredFrom : Nat
  nextListenerStart : Nat
  lastPollConsumed : Bool
  rateLimitIntervalNs : Option Nat
  rateLimitedPerPid : Nat
  rateLimitedGlobal : Nat
  globalRl : GlobalRateLimit
  lastNowNs : Nat
  clockRegressions : Nat
  clockJumpsForward : Nat
  allowCrossNamespace : Bool
  crossNamespaceDrops : Nat
  pidMax : UInt32
  pidAboveMaxDrops : Nat
  lastPidMaxRefreshNs : Nat
  /-- The observer's own namespace, read once. -/
  observerNsInode : Option Nat

structure ObserverConfig where
  hash32 : UInt32 → UInt32
  threshold : Nat
  trackerCapacity : Nat
  evictionPolicy : EvictionPolicy
  evictionScanWindow : Nat
  maxBeatRate : Option Nat
  globalBeatRate : Nat
  globalBeatBurst : Nat
  allowCrossNamespace : Bool
  pidMax : UInt32
  observerNsInode : Option Nat
  listeners : List Listener

/-- `MIN_THRESHOLD_MS` in nanoseconds. -/
def minThreshold : Nat := 10000000

def clockJumpForwardThresholdNs : Nat := 5000000000

def pidMaxRefreshIntervalNs : Nat := 60000000000

def usizeMax : Nat := u64Bound - 1

def thresholdNsFromDuration (threshold : Nat) : Option Nat :=
  if threshold < minThreshold then none else some (min threshold (u64Bound - 1))

namespace Observer

/-- `new`, with the builders and the listeners added after it. -/
def new (cfg : ObserverConfig) : Option Observer :=
  (thresholdNsFromDuration cfg.threshold).map fun thresholdNs => {
    listeners := cfg.listeners
    tracker := Tracker.new cfg.hash32 (normalizeCapacity cfg.trackerCapacity) cfg.evictionPolicy
      cfg.evictionScanWindow
    thresholdNs := thresholdNs
    stallQueue := []
    stallCursor := 0
    -- no stall has been held back by a budget
    stallDeferredFrom := usizeMax
    nextListenerStart := 0
    lastPollConsumed := false
    rateLimitIntervalNs := cfg.maxBeatRate.bind fun rps =>
      if rps = 0 then none else some (max (1000000000 / rps) 1)
    rateLimitedPerPid := 0
    rateLimitedGlobal := 0
    globalRl := GlobalRateLimit.new cfg.globalBeatRate cfg.globalBeatBurst
    lastNowNs := 0
    clockRegressions := 0
    clockJumpsForward := 0
    allowCrossNamespace := cfg.allowCrossNamespace
    crossNamespaceDrops := 0
    pidMax := cfg.pidMax
    pidAboveMaxDrops := 0
    lastPidMaxRefreshNs := 0
    observerNsInode := cfg.observerNsInode }

/-- `now_ns` on a reading of the clock. -/
def applyRawClock (o : Observer) (raw : Nat) : Nat × Observer :=
  let o :=
    if raw < o.lastNowNs then
      { o with clockRegressions := u64SaturatingAdd o.clockRegressions 1 }
    else if o.lastNowNs > 0 ∧ raw - o.lastNowNs > clockJumpForwardThresholdNs then
      { o with clockJumpsForward := u64SaturatingAdd o.clockJumpsForward 1 }
    else o
  -- the observer's clock never goes back
  let nowNs := max o.lastNowNs raw
  (nowNs, { o with lastNowNs := nowNs })

def tryAdmitGlobal (o : Observer) (nowNs : Nat) : Bool × Observer :=
  match o.globalRl.tryConsume nowNs with
  | (true, limit) => (true, { o with globalRl := limit })
  | (false, limit) =>
    (false, { o with
      globalRl := limit, rateLimitedGlobal := u64SaturatingAdd o.rateLimitedGlobal 1 })

/-- Pay a token unless the frame is exempt or has paid. -/
def admitUnless (o : Observer) (exempt : Bool) (nowNs : Nat) : Bool × Observer :=
  if exempt then (true, o) else o.tryAdmitGlobal nowNs

/-! ### One frame -/

/-- The first terminal frame after a regular beat. -/
def terminalAfterRegular (o : Observer) (frame : Frame) : Bool :=
  frame.isTerminal && o.tracker.terminalTimestampWouldAdvance frame.pid frame.timestamp &&
    (o.tracker.lastObservedNonceOf frame.pid).any (decide <| · ≠ nonceTerminal)

def perPidLimited (o : Observer) (nowNs : Nat) (origin : BeatOrigin) (frame : Frame) : Bool :=
  let originUpgrade := (o.tracker.originOf frame.pid).any (originRepairBypassesPerPid origin)
  -- a better origin and a last frame pass the limiter of their pid
  !originUpgrade && !o.terminalAfterRegular frame &&
    o.rateLimitIntervalNs.any fun intervalNs =>
      (o.tracker.lastNsOf frame.pid).any fun lastNs => decide (nowNs - lastNs < intervalNs)

/-- What the tracker is asked to record. Only a datagram whose sender the kernel names has an
identity to read. -/
def arrival (o : Observer) (nowNs : Nat) (peerPid : UInt32) (origin : BeatOrigin)
    (identity : Option Nat × Option Nat) (frame : Frame) : Arrival :=
  let identity := if peerPid ≠ 0 then identity else (none, none)
  { frame := frame
    nowNs := nowNs
    thresholdNs := o.thresholdNs
    origin := linuxEffectiveOriginForIdentity origin identity.1 identity.2
      (o.tracker.pidNsInodeOf frame.pid) (o.tracker.generationOf frame.pid)
    pidNsInode := identity.1
    generation := identity.2 }

def beatOf (b : Arrival) : BeatEvent where
  pid := b.frame.pid
  status := b.frame.status
  payload := b.frame.payload
  nonce := b.frame.nonce
  origin := b.origin
  pidNsInode := b.pidNsInode
  observerNs := b.nowNs

/-- The rest of the frame's way, after the limiters: namespace gate and tracker. -/
def classifyFrame (o : Observer) (b : Arrival) (globalAdmitted : Bool) : Option Event × Observer :=
  let pid := b.frame.pid
  if crossNamespaceRefused o.observerNsInode b.pidNsInode && !o.allowCrossNamespace then
    match o.admitUnless globalAdmitted b.nowNs with
    | (false, o) => (none, o)
    | (true, o) =>
      (some (.namespaceConflict pid b.pidNsInode o.observerNsInode b.nowNs),
        { o with crossNamespaceDrops := u64SaturatingAdd o.crossNamespaceDrops 1 })
  else
    -- read before the tracker changes the slot
    let slotOriginBefore := o.tracker.originOf pid
    let (update, tracker) := o.tracker.recordWithGeneration b
    let o := { o with tracker := tracker }
    match update with
    | .inserted => (some (.beat (beatOf b)), o)
    | .refreshed => (some (.beat (beatOf b)), o)
    | .originConflict =>
      match o.admitUnless globalAdmitted b.nowNs with
      | (false, o) => (none, o)
      | (true, o) =>
        (some (.originConflict pid b.origin (slotOriginBefore.getD b.origin) b.nowNs), o)
    | .namespaceConflict =>
      match o.admitUnless globalAdmitted b.nowNs with
      | (false, o) => (none, o)
      | (true, o) => (some (.namespaceConflict pid b.pidNsInode o.observerNsInode b.nowNs), o)
    -- dropped without an event
    | .outOfOrder => (none, o)
    | .capacityExceeded => (none, o)

def ingestFrame (o : Observer) (nowNs : Nat) (peerPid : UInt32) (origin : BeatOrigin)
    (identity : Option Nat × Option Nat) (frame : Frame) : Option Event × Observer :=
  let terminalGlobalBypass :=
    o.terminalAfterRegular frame && decide (peerPid ≠ 0 ∧ frame.pid = peerPid)
  -- the kernel names another sender
  if peerPid ≠ 0 ∧ frame.pid ≠ peerPid then
    match o.tryAdmitGlobal nowNs with
    | (false, o) => (none, o)
    | (true, o) => (some (.authFailure frame.pid nowNs), o)
  -- a pid the kernel vouches for is in range
  else if peerPid = 0 ∧ frame.pid > o.pidMax then
    match o.admitUnless terminalGlobalBypass nowNs with
    | (false, o) => (none, o)
    | (true, o) => (none, { o with pidAboveMaxDrops := u64SaturatingAdd o.pidAboveMaxDrops 1 })
  -- what the limiter of the pid drops pays no token
  else if o.perPidLimited nowNs origin frame then
    (none, { o with rateLimitedPerPid := u64SaturatingAdd o.rateLimitedPerPid 1 })
  else
    match o.admitUnless terminalGlobalBypass nowNs with
    | (false, o) => (none, o)
    | (true, o) =>
      -- an exempt frame pays later, and only if it is rejected
      o.classifyFrame (o.arrival nowNs peerPid origin identity frame) !terminalGlobalBypass

/-! ### One listener -/

/-- The answers of the operating system while one listener is tried. -/
structure Round where
  rawClock : Nat
  instants : Instants
  ingress : Ingress
  /-- What `read_peer_identity` finds: namespace inode and start time. -/
  identity : Option Nat × Option Nat

/-- What the observer makes of a listener's answer. -/
def handle (o : Observer) (i nowNs : Nat) (identity : Option Nat × Option Nat)
    (result : RecvResult) : Option Event × Observer :=
  let advanced := (i + 1) % o.listeners.length
  match result with
  | .authenticated peerPid origin data =>
    let o := { o with nextListenerStart := advanced }
    match data with
    | .ok frame => o.ingestFrame nowNs peerPid origin identity frame
    | .error e =>
      match o.tryAdmitGlobal nowNs with
      | (false, o) => (none, o)
      | (true, o) => (some (.decode e nowNs), o)
  | .wouldBlock => (none, o)
  | .shortRead => (none, o)
  | .ctrlTruncated =>
    match o.tryAdmitGlobal nowNs with
    | (false, o) => (none, o)
    | (true, o) => (some (.ctrlTruncated nowNs), { o with nextListenerStart := advanced })
  | .ioError consumed =>
    -- an error that took no datagram costs nothing
    match o.admitUnless (!consumed) nowNs with
    | (false, o) => (none, o)
    | (true, o) => (some (.io nowNs), { o with nextListenerStart := advanced })

/-- One round of the loop of `poll`; the flag says whether a datagram was consumed. -/
def pollListener (o : Observer) (i : Nat) (round : Round) : (Option Event × Bool) × Observer :=
  let (nowNs, o) := o.applyRawClock round.rawClock
  match o.listeners[i]? with
  | none => ((none, false), o)
  | some listener =>
    let (result, listener) := listener.recv round.instants nowNs round.ingress
    let o := { o with listeners := o.listeners.set i listener }
    let (event, o) := o.handle i nowNs round.identity result
    ((event, result.consumedDatagram || listener.lastRecvConsumed), o)

/-! ### Polling -/

/-- The answers of the operating system during one `poll`. -/
structure PollInput where
  rounds : Nat → Round
  drainClock : Nat
  generationRecycled : UInt32 → Nat → Bool

/-- The loop over the listeners. It ends with the first event, so that no event is pending
at the head of a round. -/
def pollListeners (rounds : Nat → Round) :
    List Nat → Bool → Observer → (Option Event × Bool) × Observer
  | [], consumed, o => ((none, consumed), o)
  | i :: rest, consumed, o =>
    match o.pollListener i (rounds i) with
    | ((some event, took), o) => ((some event, consumed || took), o)
    | ((none, took), o) => pollListeners rounds rest (consumed || took) o

def drainStalls (o : Observer) (rawClock : Nat) (generationRecycled : UInt32 → Nat → Bool) :
    Observer :=
  -- the queue is only filled when it is empty
  if o.stallCursor < o.stallQueue.length then o
  else
    let (nowNs, o) := o.applyRawClock rawClock
    let (stalls, tracker) := o.tracker.drainStalledSlots nowNs o.thresholdNs generationRecycled
    { o with
      tracker := tracker
      stallQueue := stalls.map some
      stallCursor := 0
      stallDeferredFrom := usizeMax }

/-- The order in which the listeners are tried. -/
def pollOrder (o : Observer) : List Nat :=
  (List.range o.listeners.length).map fun round =>
    (o.nextListenerStart + round) % o.listeners.length

def poll (o : Observer) (input : PollInput) : Option Event × Observer :=
  let ((event, consumed), o) := pollListeners input.rounds o.pollOrder false o
  (event, { o with lastPollConsumed := consumed }.drainStalls input.drainClock
    input.generationRecycled)

def pollPending (o : Observer) : Option Tracker.StallEvent × Observer :=
  if o.stallCursor < o.stallQueue.length then
    -- taken out of its place; the places before the cursor stay behind, empty
    (o.stallQueue[o.stallCursor]?.join, { o with
      stallQueue := o.stallQueue.set o.stallCursor none
      stallCursor := o.stallCursor + 1 })
  else (none, o)

/-- The next stall, and whether it must be checked again before recovery fires. -/
def pollPendingForRecovery (o : Observer) : Option (Tracker.StallEvent × Bool) × Observer :=
  let queueIndex := o.stallCursor
  match o.pollPending with
  | (none, o) => (none, o)
  | (some stall, o) => (some (stall, decide (queueIndex ≥ o.stallDeferredFrom)), o)

def deferRemainingStallsForRecovery (o : Observer) : Observer :=
  if o.stallCursor < o.stallQueue.length then
    { o with stallDeferredFrom := min o.stallDeferredFrom o.stallCursor }
  else o

def hasPendingStalls (o : Observer) : Bool := decide (o.stallCursor < o.stallQueue.length)

/-- `maybe_refresh_pid_max`, on a reading of `/proc/sys/kernel/pid_max`. -/
def maybeRefreshPidMax (o : Observer) (rawClock : Nat) (reading : UInt32) : Observer :=
  let (nowNs, o) := o.applyRawClock rawClock
  if nowNs - o.lastPidMaxRefreshNs < pidMaxRefreshIntervalNs then o
  else { o with pidMax := reading, lastPidMaxRefreshNs := nowNs }

end Observer

end Varta.Watch
