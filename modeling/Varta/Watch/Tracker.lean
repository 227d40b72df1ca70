import Varta.Lib.Indexed
import Varta.Watch.PeerCred
import Varta.Watch.ProbeTable

/-!
# Tracker

The per-pid liveness ledger of `tracker/mod.rs`: a dense slot table of fixed capacity and an
index from pids to positions. `pid_index.rs` is `BoundedIndex` at pids.
-/
namespace Varta.Watch

open Machine
open Vlp (Frame Status)

def minCapacity : Nat := 1

def maxCapacity : Nat := 4096

def normalizeCapacity (capacity : Nat) : Nat := max minCapacity (min capacity maxCapacity)

def evictionMultiplier : Nat := 10

def minEvictionScanWindow : Nat := 1

def maxEvictionScanWindow : Nat := maxCapacity

def nonceWrapThreshold : Nat := 1048576

inductive EvictionPolicy where
  | strict
  | balanced
  deriving DecidableEq, Repr

/-! ### Slots -/

/-- The arguments of `record_with_generation`. -/
structure Arrival where
  frame : Frame
  nowNs : Nat
  thresholdNs : Nat
  origin : BeatOrigin
  pidNsInode : Option Nat
  generation : Option Nat
  deriving DecidableEq, Repr

structure Slot where
  pid : UInt32
  lastNonce : Nat
  hasRegularNonce : Bool
  lastObservedNonce : Nat
  lastTerminalTimestamp : Option Nat
  lastNs : Nat
  status : Status
  origin : BeatOrigin
  pidNsInode : Option Nat
  generation : Option Nat
  used : Bool
  stallEmitted : Bool
  deriving DecidableEq, Repr

/-- What `refresh_regular` answers, with the slot it leaves. -/
inductive RegularRefresh where
  | accepted (slot : Slot)
  | wrapped (slot : Slot)
  | outOfOrder

/-- What a frame does to the slot of its pid. -/
inductive SlotUpdate where
  /-- The pid belongs to a new process. -/
  | recycle (slot : Slot)
  /-- A stronger origin takes the slot over. -/
  | replace (slot : Slot)
  | refresh (slot : Slot) (wrapped : Bool)
  | originConflict
  | namespaceConflict
  | outOfOrder

namespace Slot

def fromFrame (b : Arrival) : Slot :=
  let isTerminal := b.frame.isTerminal
  { pid := b.frame.pid
    -- the reserved nonce is no position in the sequence of regular nonces
    lastNonce := if isTerminal then 0 else b.frame.nonce
    hasRegularNonce := !isTerminal
    lastObservedNonce := b.frame.nonce
    lastTerminalTimestamp := if isTerminal then some b.frame.timestamp else none
    lastNs := b.nowNs
    status := b.frame.status
    origin := b.origin
    pidNsInode := b.pidNsInode
    generation := b.generation
    used := true
    stallEmitted := false }

def terminalWouldAdvance (slot : Slot) (timestamp : Nat) : Bool :=
  slot.lastTerminalTimestamp.all (timestamp > ·)

def refreshTerminal (slot : Slot) (b : Arrival) : Option Slot :=
  if slot.terminalWouldAdvance b.frame.timestamp then
    some { slot with
      lastTerminalTimestamp := some b.frame.timestamp
      lastObservedNonce := b.frame.nonce
      lastNs := b.nowNs
      status := b.frame.status }
  else none

/-- The assignments both accepting arms of `refresh_regular` make. -/
def acceptRegular (slot : Slot) (b : Arrival) : Slot :=
  { slot with
    lastNonce := b.frame.nonce
    hasRegularNonce := true
    lastObservedNonce := b.frame.nonce
    lastNs := b.nowNs
    status := b.frame.status }

def refreshRegular (slot : Slot) (b : Arrival) : RegularRefresh :=
  if slot.hasRegularNonce ∧ b.frame.nonce ≤ slot.lastNonce then
    -- a wrap: the last nonce is close to the top and the new one close to zero
    if slot.lastNonce ≥ u64Bound - 1 - nonceWrapThreshold ∧ b.frame.nonce ≤ nonceWrapThreshold then
      .wrapped (slot.acceptRegular b)
    else .outOfOrder
  else .accepted (slot.acceptRegular b)

/-- Both start times are known and differ. -/
def generationMismatch (slot : Slot) (generation : Option Nat) : Bool :=
  match slot.generation, generation with
  | some pinned, some current => decide (pinned ≠ current)
  | _, _ => false

/-- The recycle gate of transports that know no start time: a nonce that does not advance,
after a silence of the threshold. -/
def networkRecycles (slot : Slot) (b : Arrival) : Bool :=
  b.generation.isNone && slot.generation.isNone && decide (slot.origin = b.origin) &&
    b.origin.isNetwork && !b.frame.isTerminal && slot.hasRegularNonce &&
    decide (b.frame.nonce ≤ slot.lastNonce) && decide (b.nowNs - slot.lastNs ≥ b.thresholdNs)

/-- Whether the namespace is pinned now; `none` is a conflict. -/
def namespaceUpgrade (slot : Slot) (b : Arrival) : Option Bool :=
  match slot.pidNsInode, b.pidNsInode with
  | some pinned, some current => if pinned ≠ current then none else some false
  -- the inode of a dying process is gone: its terminal frame is not a conflict
  | some _, none => if b.frame.isTerminal then some false else none
  | none, some _ => some true
  | none, none => some false

def generationUpgrade (slot : Slot) (b : Arrival) : Bool :=
  slot.generation.isNone && b.generation.isSome

/-- After an accepted nonce: pin what became readable and clear the stall latch. -/
def settle (slot : Slot) (b : Arrival) (namespaceUpgrade generationUpgrade : Bool) : Slot :=
  { slot with
    pidNsInode := if namespaceUpgrade then b.pidNsInode else slot.pidNsInode
    generation := if generationUpgrade then b.generation else slot.generation
    stallEmitted := false }

/-- The part of `record_with_generation` for a tracked pid. -/
def record (slot : Slot) (b : Arrival) : SlotUpdate :=
  -- a process with another start time, whatever its nonce says
  if slot.generationMismatch b.generation then .recycle (fromFrame b)
  else if slot.networkRecycles b then .recycle (fromFrame b)
  else if slot.origin ≠ b.origin then
    -- a weaker origin never takes the slot over
    if b.origin.canReplace slot.origin then .replace (fromFrame b) else .originConflict
  else
    match slot.namespaceUpgrade b with
    | none => .namespaceConflict
    | some upgrade =>
      if b.frame.isTerminal then
        -- terminal frames are ordered by timestamp, regular ones by nonce
        match slot.refreshTerminal b with
        | none => .outOfOrder
        | some fresh => .refresh (fresh.settle b upgrade (slot.generationUpgrade b)) false
      else
        match slot.refreshRegular b with
        | .accepted fresh => .refresh (fresh.settle b upgrade (slot.generationUpgrade b)) false
        | .wrapped fresh => .refresh (fresh.settle b upgrade (slot.generationUpgrade b)) true
        | .outOfOrder => .outOfOrder

end Slot

/-! ### The table -/

inductive Update where
  | inserted
  | refreshed
  | outOfOrder
  | capacityExceeded
  | originConflict
  | namespaceConflict
  deriving DecidableEq, Repr

/-- The answers for which the beat is in the tracker. -/
def Update.accepted : Update → Bool
  | .inserted => true
  | .refreshed => true
  | _ => false

structure Tracker where
  entries : List Slot
  /-- The capacity of `entries` and of `removedPids`; neither grows. -/
  capacity : Nat
  len : Nat
  pidToIndex : BoundedIndex UInt32
  evictions : Nat
  capacityExceeded : Nat
  nonceWraps : Nat
  removedPids : List UInt32
  evictionPolicy : EvictionPolicy
  stallEmittedCount : Nat
  evictionScanWindow : Nat
  evictionScanCursor : Nat
  evictionScanTruncated : Nat
  originConflicts : Nat
  namespaceConflicts : Nat
  pidRecycles : Nat
  invariantViolations : Nat
  removedPidDrops : Nat

namespace Tracker

def new (hash32 : UInt32 → UInt32) (capacity : Nat) (policy : EvictionPolicy) (window : Nat) :
    Tracker where
  entries := []
  capacity := normalizeCapacity capacity
  len := 0
  pidToIndex := BoundedIndex.new hash32 (normalizeCapacity capacity)
  evictions := 0
  capacityExceeded := 0
  nonceWraps := 0
  removedPids := []
  evictionPolicy := policy
  stallEmittedCount := 0
  evictionScanWindow := max minEvictionScanWindow (min window maxEvictionScanWindow)
  evictionScanCursor := 0
  evictionScanTruncated := 0
  originConflicts := 0
  namespaceConflicts := 0
  pidRecycles := 0
  invariantViolations := 0
  removedPidDrops := 0

def violated (t : Tracker) : Tracker :=
  { t with invariantViolations := u64SaturatingAdd t.invariantViolations 1 }

/-- The answer of every path that finds no room. -/
def exceeded (t : Tracker) : Update × Tracker :=
  (.capacityExceeded, { t with capacityExceeded := u64SaturatingAdd t.capacityExceeded 1 })

/-- `*slot = new`, with the latch of the old slot leaving the count. -/
def putSlot (t : Tracker) (idx : Nat) (old new : Slot) : Tracker :=
  { t with
    entries := t.entries.set idx new
    stallEmittedCount := if old.stallEmitted then t.stallEmittedCount - 1 else t.stallEmittedCount }

def rememberRemovedPid (t : Tracker) (pid : UInt32) : Tracker :=
  if t.removedPids.length < t.capacity then { t with removedPids := t.removedPids ++ [pid] }
  -- the list for the exporters is bounded; what does not fit is counted
  else { t with removedPidDrops := u64SaturatingAdd t.removedPidDrops 1 }

def recordKnown (t : Tracker) (idx : Nat) (slot : Slot) (b : Arrival) : Update × Tracker :=
  match slot.record b with
  | .recycle new =>
    let t := t.putSlot idx slot new
    (.inserted, { t with pidRecycles := u64SaturatingAdd t.pidRecycles 1 })
  | .replace new => (.refreshed, t.putSlot idx slot new)
  | .refresh new wrapped =>
    let t := t.putSlot idx slot new
    (.refreshed, if wrapped then { t with nonceWraps := u64SaturatingAdd t.nonceWraps 1 } else t)
  | .originConflict =>
    (.originConflict, { t with originConflicts := u64SaturatingAdd t.originConflicts 1 })
  | .namespaceConflict =>
    (.namespaceConflict, { t with namespaceConflicts := u64SaturatingAdd t.namespaceConflicts 1 })
  | .outOfOrder => (.outOfOrder, t)

/-! ### Eviction -/

/-- A slot that `scan_window` may take. -/
def evictable (nowNs evictThreshold : Nat) (requireStall : Bool) (slot : Slot) : Bool :=
  decide (nowNs - slot.lastNs ≥ evictThreshold) && (!requireStall || slot.stallEmitted)

/-- The loop of `scan_window` over the positions of its window, with the length of the table. -/
def scanFrom (nowNs evictThreshold : Nat) (requireStall : Bool) (n : Nat) :
    List Nat → Tracker → Option Nat × Tracker
  | [], t => (none, t)
  | idx :: later, t =>
    match t.entries[idx]? with
    -- a missing entry is counted and skipped
    | none => scanFrom nowNs evictThreshold requireStall n later t.violated
    | some slot =>
      if evictable nowNs evictThreshold requireStall slot then
        -- the next scan starts behind this victim
        (some idx, { t with evictionScanCursor := (idx + 1) % n })
      else scanFrom nowNs evictThreshold requireStall n later t

def scanWindow (t : Tracker) (nowNs evictThreshold : Nat) (requireStall : Bool) :
    Option Nat × Tracker :=
  let n := min t.len t.entries.length
  if n = 0 then (none, t)
  else
    let window := min t.evictionScanWindow n
    let start := t.evictionScanCursor % n
    -- a window from the cursor on, around the end of the table
    let visited := (List.range window).map fun i => (start + i) % n
    match scanFrom nowNs evictThreshold requireStall n visited t with
    | (some idx, t) => (some idx, t)
    | (none, t) => (none, { t with evictionScanCursor := (start + window) % n })

def findEvictableSlot (t : Tracker) (nowNs thresholdNs : Nat) : Option Nat × Tracker :=
  let evictThreshold := u64SaturatingMul thresholdNs evictionMultiplier
  let windowStart := t.evictionScanCursor
  let strict := decide (t.stallEmittedCount > 0)
  let balanced := decide (t.evictionPolicy = .balanced)
  -- the strict pass, skipped while nothing is latched
  match if strict then t.scanWindow nowNs evictThreshold true else (none, t) with
  | (some idx, t) => (some idx, t)
  | (none, t) =>
    -- the balanced pass scans the same window again
    match
      if balanced then
        { t with evictionScanCursor := windowStart }.scanWindow nowNs evictThreshold false
      else (none, t) with
    | (some idx, t) => (some idx, t)
    | (none, t) =>
      if strict || balanced then
        (none, { t with evictionScanTruncated := u64SaturatingAdd t.evictionScanTruncated 1 })
      else (none, t)

/-- The slot at `idx` makes room for a new pid. -/
def evictFor (t : Tracker) (idx : Nat) (b : Arrival) : Update × Tracker :=
  match t.entries[idx]? with
  | none => t.violated.exceeded
  | some evicted =>
    -- the old pid leaves the index before the new one enters it
    let index := (t.pidToIndex.remove evicted.pid).1
    match index.insert b.frame.pid idx with
    | (index, true) =>
      let t := t.putSlot idx evicted (Slot.fromFrame b)
      let t := { t with pidToIndex := index, evictions := u64SaturatingAdd t.evictions 1 }
      (.inserted, t.rememberRemovedPid evicted.pid)
    | (index, false) =>
      -- rolled back: the old slot stays and its pid is put into the index again
      match index.insert evicted.pid idx with
      | (index, true) => { t with pidToIndex := index }.exceeded
      | (index, false) => { t with pidToIndex := index }.violated.exceeded

def recordNew (t : Tracker) (b : Arrival) : Update × Tracker :=
  if t.len ≥ t.capacity then
    -- a full table: the newcomer needs a slot of a pid that is long silent
    match t.findEvictableSlot b.nowNs b.thresholdNs with
    | (some idx, t) => t.evictFor idx b
    | (none, t) => t.exceeded
  else
    match t.pidToIndex.insert b.frame.pid t.len with
    | (index, false) => { t with pidToIndex := index }.exceeded
    | (index, true) =>
      (.inserted, { t with
        pidToIndex := index, entries := t.entries ++ [Slot.fromFrame b], len := t.len + 1 })

def recordWithGeneration (t : Tracker) (b : Arrival) : Update × Tracker :=
  match t.pidToIndex.get b.frame.pid with
  | none => t.recordNew b
  | some idx =>
    match t.entries[idx]? with
    -- an index that points past the table is repaired and counted
    | none => { t.violated with pidToIndex := (t.pidToIndex.remove b.frame.pid).1 }.exceeded
    | some slot => if slot.used then t.recordKnown idx slot b else t.recordNew b

/-! ### Stalls -/

def retireSlotAt (t : Tracker) (idx : Nat) : Tracker :=
  match if idx < t.len then t.entries[idx]? else none with
  | none => t.violated
  | some removed =>
    let index := (t.pidToIndex.remove removed.pid).1
    let count := if removed.stallEmitted then t.stallEmittedCount - 1 else t.stallEmittedCount
    let t := { t with pidToIndex := index, stallEmittedCount := count }
    let last := t.len - 1
    -- drop the last entry, and put it in the place of the retired one
    let close (t : Tracker) : Tracker :=
      { t with
        entries := t.entries.dropLast
        len := last
        evictionScanCursor := if last = 0 then 0 else t.evictionScanCursor % last
          }.rememberRemovedPid removed.pid
    if idx = last then close t
    else
      match t.entries[last]? with
      | none => t.violated
      | some moved =>
        let t := { t with entries := t.entries.set idx moved }
        match t.pidToIndex.insert moved.pid idx with
        | (index, true) => close { t with pidToIndex := index }
        | (index, false) => close { t with pidToIndex := index }.violated

/-- `Event::Stall`. -/
structure StallEvent where
  pid : UInt32
  lastNonce : Nat
  lastNs : Nat
  origin : BeatOrigin
  pidNsInode : Option Nat
  generation : Option Nat
  observerNs : Nat
  deriving DecidableEq, Repr

/-- The slot has been silent for the threshold and has not said so. -/
def newlyStalled (nowNs thresholdNs : Nat) (slot : Slot) : Bool :=
  slot.used && !slot.stallEmitted && decide (nowNs - slot.lastNs ≥ thresholdNs)

/-- The start time of an attested pid is read again before its stall is announced. -/
def retires (generationRecycled : UInt32 → Nat → Bool) (slot : Slot) : Bool :=
  decide (slot.origin = .kernelAttested) && slot.generation.any (generationRecycled slot.pid)

def latchSlot (t : Tracker) (idx : Nat) (slot : Slot) : Tracker :=
  { t with
    entries := t.entries.set idx { slot with stallEmitted := true }
    stallEmittedCount := t.stallEmittedCount + 1 }

def stallOf (nowNs : Nat) (slot : Slot) : StallEvent where
  pid := slot.pid
  lastNonce := slot.lastObservedNonce
  lastNs := slot.lastNs
  origin := slot.origin
  pidNsInode := slot.pidNsInode
  generation := slot.generation
  observerNs := nowNs

/-- The loop of `drain_stalled_slots_with_generation_check`. Each round passes an entry or
drops one, so that `len` rounds are enough. -/
def drainFrom (nowNs thresholdNs : Nat) (generationRecycled : UInt32 → Nat → Bool) :
    Nat → Nat → Tracker → List StallEvent × Tracker
  | 0, _, t => ([], t)
  | rounds + 1, idx, t =>
    if idx < t.len then
      match t.entries[idx]? with
      | none => ([], t.violated)
      | some slot =>
        if newlyStalled nowNs thresholdNs slot = false then
          drainFrom nowNs thresholdNs generationRecycled rounds (idx + 1) t
        else if retires generationRecycled slot then
          let t := t.retireSlotAt idx
          let t := { t with pidRecycles := u64SaturatingAdd t.pidRecycles 1 }
          -- another entry has moved to this position, so it is looked at again
          drainFrom nowNs thresholdNs generationRecycled rounds idx t
        else
          let (stalls, t) :=
            drainFrom nowNs thresholdNs generationRecycled rounds (idx + 1) (t.latchSlot idx slot)
          (stallOf nowNs slot :: stalls, t)
    else ([], t)

def drainStalledSlots (t : Tracker) (nowNs thresholdNs : Nat)
    (generationRecycled : UInt32 → Nat → Bool) : List StallEvent × Tracker :=
  -- a length past the table is a broken invariant; it is counted and the drain goes on
  let t := if t.len > t.entries.length then t.violated else t
  drainFrom nowNs thresholdNs generationRecycled t.len 0 t

/-! ### What is taken out -/

def takeEvictedPid (t : Tracker) : Option UInt32 × Tracker :=
  (t.removedPids.getLast?, { t with removedPids := t.removedPids.dropLast })

def takeEvictions (t : Tracker) : Nat × Tracker := (t.evictions, { t with evictions := 0 })

def takeNonceWraps (t : Tracker) : Nat × Tracker := (t.nonceWraps, { t with nonceWraps := 0 })

def takeCapacityExceeded (t : Tracker) : Nat × Tracker :=
  (t.capacityExceeded, { t with capacityExceeded := 0 })

def takeOriginConflicts (t : Tracker) : Nat × Tracker :=
  (t.originConflicts, { t with originConflicts := 0 })

def takeNamespaceConflicts (t : Tracker) : Nat × Tracker :=
  (t.namespaceConflicts, { t with namespaceConflicts := 0 })

def takePidRecycles (t : Tracker) : Nat × Tracker := (t.pidRecycles, { t with pidRecycles := 0 })

def takeEvictionScanTruncated (t : Tracker) : Nat × Tracker :=
  (t.evictionScanTruncated, { t with evictionScanTruncated := 0 })

def takeInvariantViolations (t : Tracker) : Nat × Tracker :=
  (t.invariantViolations, { t with invariantViolations := 0 })

def takeRemovedPidDrops (t : Tracker) : Nat × Tracker :=
  (t.removedPidDrops, { t with removedPidDrops := 0 })

def takeProbeExhausted (t : Tracker) : Nat × Tracker :=
  (t.pidToIndex.probeExhausted, { t with pidToIndex := t.pidToIndex.takeProbeExhausted.2 })

/-! ### Questions about a pid -/

def slotOf (t : Tracker) (pid : UInt32) : Option Slot :=
  Indexed.lookup t.pidToIndex.get t.entries pid

/-- The accessors that ask for a slot in use. -/
def usedSlotOf (t : Tracker) (pid : UInt32) : Option Slot := (t.slotOf pid).filter (·.used)

def lastNsOf (t : Tracker) (pid : UInt32) : Option Nat := (t.slotOf pid).map (·.lastNs)

def lastObservedNonceOf (t : Tracker) (pid : UInt32) : Option Nat :=
  (t.usedSlotOf pid).map (·.lastObservedNonce)

def terminalTimestampWouldAdvance (t : Tracker) (pid : UInt32) (timestamp : Nat) : Bool :=
  (t.usedSlotOf pid).any (·.terminalWouldAdvance timestamp)

def originOf (t : Tracker) (pid : UInt32) : Option BeatOrigin := (t.usedSlotOf pid).map (·.origin)

def pidNsInodeOf (t : Tracker) (pid : UInt32) : Option (Option Nat) :=
  (t.usedSlotOf pid).map (·.pidNsInode)

def generationOf (t : Tracker) (pid : UInt32) : Option (Option Nat) :=
  (t.usedSlotOf pid).map (·.generation)

def isTracked (t : Tracker) (pid : UInt32) : Bool := (t.generationOf pid).isSome

inductive StallFreshness where
  | warranted
  | agentResumed
  | pidRecycled
  | unverifiableGeneration
  deriving DecidableEq, Repr

/-- `stall_freshness_with_generation_read`; `readGeneration` is the start time of the process
that has the pid now. -/
def stallFreshness (t : Tracker) (pid : UInt32) (generation : Option Nat)
    (readGeneration : UInt32 → Option Nat) : StallFreshness :=
  match t.usedSlotOf pid with
  -- the slot is gone: evicted, or retired by a drain
  | none => .agentResumed
  | some slot =>
    -- without proof that the process is the same, an attested slot does not fire
    let unproved : StallFreshness :=
      if slot.origin = .kernelAttested then .unverifiableGeneration else .warranted
    if slot.stallEmitted = false then .agentResumed
    else
      match generation with
      | none => unproved
      | some pinned =>
        match readGeneration pid with
        | some current => if current = pinned then .warranted else .pidRecycled
        | none => unproved

end Tracker

end Varta.Watch
