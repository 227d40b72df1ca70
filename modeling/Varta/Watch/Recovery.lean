import Varta.Lib.Steps
import Varta.Watch.OutstandingTable
import Varta.Watch.RecoveryChild
import Varta.Watch.Tracker

/-!
# The recovery runner

`recovery/mod.rs` with `recovery/runner.rs` and `recovery/reaper.rs`: a stall fires a child if
nothing speaks against it, and each tick reaps the children that have ended and kills those
that are overdue. A child whose agent's pid has been recycled is killed and moved to the list
of orphans, so that the new process can be recovered.
-/
namespace Varta.Watch

open Machine
open Utf8 (Str)
open Vlp (Bytes32)
open Audit (CompleteOutcome CompleteRecord SpawnRecord RefusedRecord RecoveryAuditLog)

/-! ### Constants -/

def recoveryReapMaxPerTick : Nat := 64

def defaultOrphanCapacity : Nat := maxCapacity

def minRecoveryDebounce : Duration := .ofMillis 1

def minRecoveryTimeout : Duration := .ofMillis 100

def minRecoveryCaptureBytes : Nat := 1

def maxRecoveryCaptureBytes : Nat := 1024 * 1024

def auditReasonCrossNamespaceAgent : Str :=
  ⟨Bytes.ofString "cross_namespace_agent", by decide +kernel⟩

def auditReasonUnauthenticatedTransport : Str :=
  ⟨Bytes.ofString "unauthenticated_transport", by decide +kernel⟩

def auditReasonSocketModeOnly : Str := ⟨Bytes.ofString "socket_mode_only", by decide +kernel⟩

def auditReasonDebounced : Str := ⟨Bytes.ofString "debounced", by decide +kernel⟩

def auditReasonOutstandingInFlight : Str :=
  ⟨Bytes.ofString "outstanding_in_flight", by decide +kernel⟩

def auditReasonDebounceCapacity : Str := ⟨Bytes.ofString "debounce_capacity", by decide +kernel⟩

def auditReasonOutstandingCapacity : Str :=
  ⟨Bytes.ofString "outstanding_capacity", by decide +kernel⟩

def auditReasonOrphanReapCapacity : Str :=
  ⟨Bytes.ofString "orphan_reap_capacity", by decide +kernel⟩

def auditReasonStaleChildKillFailed : Str :=
  ⟨Bytes.ofString "stale_child_kill_failed", by decide +kernel⟩

def auditReasonSpawnFailed : Str := ⟨Bytes.ofString "spawn_failed", by decide +kernel⟩

def auditReasonSkippedAgentResumed : Str :=
  ⟨Bytes.ofString "skipped_agent_resumed", by decide +kernel⟩

def auditReasonSkippedPidRecycled : Str :=
  ⟨Bytes.ofString "skipped_pid_recycled", by decide +kernel⟩

def auditReasonSkippedStallUnverifiable : Str :=
  ⟨Bytes.ofString "skipped_stall_unverifiable", by decide +kernel⟩

/-! ### State -/

inductive RecoveryMode where
  | exec (program : Str) (args : List Str)

/-- Where the source has a `child_pid`, the model has the handle, whose `id` it is. -/
inductive RecoveryOutcome where
  | spawned (child : Child)
  | debounced
  | spawnFailed (error : IoError)
  | reaped (child : Child) (status : ExitStatus) (durationNs : Nat)
  | killed (child : Child)
  | reapFailed (error : IoError)
  | refusedUnauthenticatedSource (pid : UInt32)
  | refusedSocketModeOnly (pid : UInt32)
  | refusedCrossNamespace (pid : UInt32)
  | refusedDebounceCapacity (pid : UInt32)
  | refusedOutstandingCapacity (pid : UInt32)
  | refusedStaleChildKillFailed (pid : UInt32) (error : IoError)
  | skippedAgentResumed (pid : UInt32)
  | skippedPidRecycled (pid : UInt32)
  | skippedStallUnverifiable (pid : UInt32)
  deriving DecidableEq

/-- The runner, with the world it acts on as the last field. -/
structure Recovery where
  mode : RecoveryMode
  debounce : Duration
  lastFired : LastFiredTable
  timeout : Option Duration
  outstanding : OutstandingTable Outstanding
  refusedOutstandingCapacity : Nat
  pendingOutcomes : List RecoveryOutcome
  recoveryEnv : List Bytes
  recoveryInheritEnv : Bool
  auditSink : Option RecoveryAuditLog
  captureCap : Nat
  source : Str
  refusedUnauthenticatedSource : Nat
  refusedSocketModeOnly : Nat
  allowCrossNamespace : Bool
  refusedCrossNamespace : Nat
  refusedDebounceCapacity : Nat
  reapCursor : Nat
  reapTruncatedTotal : Nat
  reapMax : Nat
  reapingOrphans : List (UInt32 × Outstanding)
  orphanCapacity : Nat
  orphanReapCursor : Nat
  outstandingRecycleResets : Nat
  world : World

namespace Recovery

/-! ### Setting up -/

theorem inline_valid : Utf8.valid (Bytes.ofString "inline") = true := by
  decide +kernel

theorem bin_true_valid : Utf8.valid (Bytes.ofString "/bin/true") = true := by
  decide +kernel

def withTimeout (mode : RecoveryMode) (debounce : Duration) (timeout : Option Duration) :
    Recovery where
  mode := mode
  debounce := debounce.longer minRecoveryDebounce
  lastFired := .new
  timeout := timeout.map (·.longer minRecoveryTimeout)
  outstanding := .withCapacity maxCapacity
  refusedOutstandingCapacity := 0
  pendingOutcomes := []
  recoveryEnv := []
  recoveryInheritEnv := false
  auditSink := none
  captureCap := 0
  source := ⟨Bytes.ofString "inline", inline_valid⟩
  refusedUnauthenticatedSource := 0
  refusedSocketModeOnly := 0
  allowCrossNamespace := false
  refusedCrossNamespace := 0
  refusedDebounceCapacity := 0
  reapCursor := 0
  reapTruncatedTotal := 0
  reapMax := recoveryReapMaxPerTick
  reapingOrphans := []
  orphanCapacity := defaultOrphanCapacity
  orphanReapCursor := 0
  outstandingRecycleResets := 0
  world := ⟨0, []⟩

def withOutstandingCapacity (r : Recovery) (capacity : Nat) : Recovery :=
  -- a table in use is kept
  if r.outstanding.len ≠ 0 then r
  else
    let cap := max (max 1 (min capacity maxCapacity)) r.reapingOrphans.length
    { r with outstanding := .withCapacity cap, orphanCapacity := cap }

def withCapture (r : Recovery) (cap : Nat) : Recovery :=
  { r with captureCap := max minRecoveryCaptureBytes (min cap maxRecoveryCaptureBytes) }

/-- The setters, one constructor each. The last two are the ones of the tests, for a ledger
with at least one slot. -/
inductive Setting where
  | outstandingCapacity (capacity : Nat)
  | auditSink (sink : Option RecoveryAuditLog)
  | capture (cap : Nat)
  | allowCrossNamespace (allow : Bool)
  | source (source : Str)
  | recoveryEnv (env : List Bytes)
  | recoveryInheritEnv (inherited : Bool)
  | lastFiredCapacity (cap : Nat) (positive : 0 < cap)
  | reapMax (max : Nat)

def configure (r : Recovery) : Setting → Recovery
  | .outstandingCapacity capacity => r.withOutstandingCapacity capacity
  | .auditSink sink => { r with auditSink := sink }
  | .capture cap => r.withCapture cap
  | .allowCrossNamespace allow => { r with allowCrossNamespace := allow }
  | .source source => { r with source := source }
  | .recoveryEnv env => { r with recoveryEnv := env }
  | .recoveryInheritEnv inherited => { r with recoveryInheritEnv := inherited }
  | .lastFiredCapacity cap _ => { r with lastFired := .withCapacity cap }
  | .reapMax n => { r with reapMax := max n 1 }

/-- A runner before its first stall. -/
def setUp (mode : RecoveryMode) (debounce : Duration) (timeout : Option Duration)
    (settings : List Setting) : Recovery :=
  Steps.run configure (withTimeout mode debounce timeout) settings

/-! ### Counters -/

/-- The counters that the main loop takes. -/
inductive Counter where
  | refusedOutstandingCapacity
  | outstandingProbeExhausted
  | refusedCrossNamespace
  | refusedUnauthenticatedSource
  | refusedSocketModeOnly
  | refusedDebounceCapacity
  | reapTruncated
  | lastFiredEvictions
  | lastFiredInvariantViolations
  | lastFiredRecycleResets
  | outstandingRecycleResets

/-- The `take_…` functions: a counter is read and goes back to zero. -/
def take (r : Recovery) : Counter → Nat × Recovery
  | .refusedOutstandingCapacity =>
    (r.refusedOutstandingCapacity, { r with refusedOutstandingCapacity := 0 })
  | .outstandingProbeExhausted =>
    let (n, outstanding) := r.outstanding.takeProbeExhausted
    (n, { r with outstanding := outstanding })
  | .refusedCrossNamespace => (r.refusedCrossNamespace, { r with refusedCrossNamespace := 0 })
  | .refusedUnauthenticatedSource =>
    (r.refusedUnauthenticatedSource, { r with refusedUnauthenticatedSource := 0 })
  | .refusedSocketModeOnly => (r.refusedSocketModeOnly, { r with refusedSocketModeOnly := 0 })
  | .refusedDebounceCapacity => (r.refusedDebounceCapacity, { r with refusedDebounceCapacity := 0 })
  | .reapTruncated => (r.reapTruncatedTotal, { r with reapTruncatedTotal := 0 })
  | .lastFiredEvictions =>
    let (n, lastFired) := r.lastFired.takeEvictions
    (n, { r with lastFired := lastFired })
  | .lastFiredInvariantViolations =>
    let (n, lastFired) := r.lastFired.takeInvariantViolations
    (n, { r with lastFired := lastFired })
  | .lastFiredRecycleResets =>
    let (n, lastFired) := r.lastFired.takeRecycleResets
    (n, { r with lastFired := lastFired })
  | .outstandingRecycleResets => (r.outstandingRecycleResets, { r with outstandingRecycleResets := 0 })

/-! ### Audit records -/

section

variable (chainHash : Option (Bytes32 → Bytes → Bytes → Bytes32)) (env : Nat → Answer)

/-- The time since `since` in 64 bits. -/
def recoveryDurationNs (w : World) (since : Nat) : Nat × World :=
  let (elapsed, w) := w.elapsed env since
  (min elapsed (u64Bound - 1), w)

def recordRefusedAudit (r : Recovery) (pid : UInt32) (observerNs : UInt64) (reason : Str) :
    Recovery :=
  match r.auditSink with
  | none => r
  | some sink =>
    let record : RefusedRecord := ⟨(r.world.answer env).wallclockMs, observerNs, pid, reason⟩
    { r with
      auditSink := some (Audit.emit chainHash sink (.refused record))
      world := r.world.tick.note (.recordRefused record) }

def recordDeferredSkipAudit (r : Recovery) (outcome : RecoveryOutcome) (observerNs : UInt64) :
    Recovery :=
  match outcome with
  | .skippedAgentResumed pid =>
    r.recordRefusedAudit chainHash env pid observerNs auditReasonSkippedAgentResumed
  | .skippedPidRecycled pid =>
    r.recordRefusedAudit chainHash env pid observerNs auditReasonSkippedPidRecycled
  | .skippedStallUnverifiable pid =>
    r.recordRefusedAudit chainHash env pid observerNs auditReasonSkippedStallUnverifiable
  | _ => r

def emitSpawnAudit (r : Recovery) (wallclockMs observerNs : UInt64) (agentPid : UInt32)
    (child : Child) (program : Str) (templateLen : UInt32) : Recovery :=
  match r.auditSink with
  | none => r
  | some sink =>
    let record : SpawnRecord := ⟨wallclockMs, observerNs, agentPid, child.id, Audit.execMode, rfl,
      program, r.source, templateLen⟩
    { r with
      auditSink := some (Audit.emit chainHash sink (.spawn record))
      world := r.world.note (.recordSpawn record) }

def completeRecord (w : World) (agentPid : UInt32) (entry : Outstanding)
    (outcome : CompleteOutcome) (status : Option ExitStatus) (duration : Nat)
    (observerNs : UInt64) : CompleteRecord where
  wallclockMs := (w.answer env).wallclockMs
  observerNs := observerNs
  agentPid := agentPid
  childPid := entry.child.id
  outcome := outcome
  exitCode := status.bind ExitStatus.code
  signal := status.bind ExitStatus.signal
  durationNs := UInt64.ofNat duration
  stdoutLen := UInt32.ofNat entry.stdoutLen
  stderrLen := UInt32.ofNat entry.stderrLen
  truncated := entry.truncated

def emitCompleteAudit (r : Recovery) (agentPid : UInt32) (entry : Outstanding)
    (outcome : CompleteOutcome) (status : Option ExitStatus) (observerNs : UInt64) : Recovery :=
  match r.auditSink with
  | none => r
  | some sink =>
    let (duration, w) := recoveryDurationNs env r.world entry.spawnedAt
    let record := completeRecord env w agentPid entry outcome status duration observerNs
    { r with
      auditSink := some (Audit.emit chainHash sink (.complete record))
      world := w.tick.note (.recordComplete entry.child record) }

/-! ### Reaping -/

/-- The entry goes out of scope, and the handle with it. -/
def dropEntry (r : Recovery) (pid : UInt32) (entry : Outstanding) : Recovery :=
  { r with world := r.world.note (.dropped pid entry.child) }

/-- The end of a child that has exited and whose output is captured. -/
def complete (r : Recovery) (pid : UInt32) (entry : Outstanding) (status : ExitStatus)
    (observerNs : UInt64) : RecoveryOutcome × Recovery :=
  let (duration, w) := recoveryDurationNs env r.world entry.spawnedAt
  let r := emitCompleteAudit chainHash env { r with world := w } pid entry
    (if entry.killed then .killed else .reaped) (some status) observerNs
  (.reaped entry.child status duration, r.dropEntry pid entry)

/-- The end of a child that could not be waited for or killed. -/
def fail (r : Recovery) (pid : UInt32) (entry : Outstanding) (error : IoError)
    (observerNs : UInt64) : RecoveryOutcome × Recovery :=
  let r := emitCompleteAudit chainHash env r pid entry .reapFailed none observerNs
  (.reapFailed error, r.dropEntry pid entry)

def finishReapFailed (r : Recovery) (pid : UInt32) (error : IoError) (observerNs : UInt64) :
    RecoveryOutcome × Recovery :=
  match r.outstanding.remove pid with
  | (none, outstanding) => (.reapFailed error, { r with outstanding := outstanding })
  | (some entry, outstanding) =>
    fail chainHash env { r with outstanding := outstanding } pid entry error observerNs

/-- The entry of `pid` as its borrower leaves it, with the world after that. -/
def store (r : Recovery) (pid : UInt32) (entry : Outstanding) (w : World) : Recovery :=
  { r with outstanding := r.outstanding.put pid entry, world := w }

/-- The second half of `reap_finished_child`. -/
def endVisit (r : Recovery) (pid : UInt32) (step : Outstanding.Visit) (observerNs : UInt64) :
    Option RecoveryOutcome × Recovery :=
  match step with
  | .pending => (none, r)
  | .complete =>
    match r.outstanding.remove pid with
    | (none, outstanding) => (none, { r with outstanding := outstanding })
    | (some entry, outstanding) =>
      let r := { r with outstanding := outstanding }
      match entry.completedStatus with
      | none => (none, r.dropEntry pid entry)
      | some status =>
        let (outcome, r) := complete chainHash env r pid entry status observerNs
        (some outcome, r)
  | .reapFailed error =>
    let (outcome, r) := finishReapFailed chainHash env r pid error observerNs
    (some outcome, r)

def reapFinishedChild (r : Recovery) (pid : UInt32) (observerNs : UInt64) :
    Option RecoveryOutcome × Recovery :=
  match r.outstanding.get pid with
  | none => (none, r)
  | some entry =>
    let (step, entry, w) := entry.visit env r.captureCap r.world
    endVisit chainHash env (r.store pid entry w) pid step observerNs

/-- The orphan at position `i` as its borrower leaves it, with the world after that. -/
def storeOrphan (r : Recovery) (i : Nat) (pid : UInt32) (entry : Outstanding) (w : World) :
    Recovery :=
  { r with reapingOrphans := r.reapingOrphans.set i (pid, entry), world := w }

/-- The second half of a visit of `drain_orphan_reaps`. -/
def endOrphanVisit (r : Recovery) (i : Nat) (pid : UInt32) (entry : Outstanding)
    (terminal : Outstanding.Visit) (observerNs : UInt64) : List RecoveryOutcome × Recovery :=
  match terminal with
  | .pending => ([], { r with orphanReapCursor := r.orphanReapCursor + 1 })
  | .complete =>
    -- the cursor stays, and the entry that is swapped in is the next one
    let r := { r with reapingOrphans := Lists.swapRemove r.reapingOrphans i }
    match entry.completedStatus with
    | none => ([], r.dropEntry pid entry)
    | some status =>
      let (outcome, r) := complete chainHash env r pid entry status observerNs
      ([outcome], r)
  | .reapFailed error =>
    let r := { r with reapingOrphans := Lists.swapRemove r.reapingOrphans i }
    let (outcome, r) := fail chainHash env r pid entry error observerNs
    ([outcome], r)

/-- One visit of `drain_orphan_reaps`, at position `i` of the list. -/
def visitOrphan (r : Recovery) (i : Nat) (pid : UInt32) (entry : Outstanding)
    (observerNs : UInt64) : List RecoveryOutcome × Recovery :=
  let (terminal, entry, w) := entry.visit env r.captureCap r.world
  endOrphanVisit chainHash env (r.storeOrphan i pid entry w) i pid entry terminal observerNs

/-- The loop of `drain_orphan_reaps`, with the number of visits that are left. -/
def drainOrphanReaps (observerNs : UInt64) :
    Nat → Recovery → List RecoveryOutcome → Recovery × List RecoveryOutcome
  | 0, r, outcomes => (r, outcomes)
  | visits + 1, r, outcomes =>
    let i := if r.orphanReapCursor ≥ r.reapingOrphans.length then 0 else r.orphanReapCursor
    match r.reapingOrphans[i]? with
    -- only an empty list has no entry under the cursor
    | none => (r, outcomes)
    | some (pid, entry) =>
      let (more, r) := visitOrphan chainHash env { r with orphanReapCursor := i } i pid entry
        observerNs
      drainOrphanReaps observerNs visits r (outcomes ++ more)

/-- The kill of a child that is still running after its time. -/
def killOverdue (r : Recovery) (pid : UInt32) (entry : Outstanding) (observerNs : UInt64) :
    List RecoveryOutcome × Recovery :=
  match r.world.kill env entry.child with
  | (.ok (), w) => ([.killed entry.child], r.store pid { entry with killed := true } w)
  | (.error e, w) =>
    let r := { r with world := w }
    -- the error that stands for a child that has exited
    if e.kind = .invalidInput then
      let (outcome, r) := reapFinishedChild chainHash env r pid observerNs
      (outcome.toList, r)
    else
      let (outcome, r) := finishReapFailed chainHash env r pid e observerNs
      ([outcome], r)

/-- The check of the deadline of a child that is still running. -/
def checkTimeout (r : Recovery) (pid : UInt32) (entry : Outstanding) (timeout : Duration)
    (observerNs : UInt64) : List RecoveryOutcome × Recovery :=
  let (elapsed, w) := r.world.elapsed env entry.spawnedAt
  let r := { r with world := w }
  if elapsed < timeout.nanos then ([], r)
  else if entry.killed then ([], r)
  else killOverdue chainHash env r pid entry observerNs

/-- One round of the loop of `try_reap_into` over the outstanding pids. -/
def visitOutstanding (r : Recovery) (pid : UInt32) (observerNs : UInt64) :
    List RecoveryOutcome × Recovery :=
  match reapFinishedChild chainHash env r pid observerNs with
  | (some outcome, r) => ([outcome], r)
  | (none, r) =>
    match r.outstanding.get pid with
    | none => ([], r)
    | some entry =>
      -- the process is gone and only its pipes are open: there is nothing to kill
      if entry.completedStatus.isSome then ([], r)
      else
        match r.timeout with
        | none => ([], r)
        | some timeout => checkTimeout chainHash env r pid entry timeout observerNs

def visitAll (observerNs : UInt64) :
    List UInt32 → Recovery → List RecoveryOutcome → Recovery × List RecoveryOutcome
  | [], r, outcomes => (r, outcomes)
  | pid :: pids, r, outcomes =>
    let (more, r) := visitOutstanding chainHash env r pid observerNs
    visitAll observerNs pids r (outcomes ++ more)

/-- The pids that a tick visits: `limit` of them from `start` on, around the end. -/
def reapWindow (reapScratch : List UInt32) (start limit : Nat) : List UInt32 :=
  (List.range limit).filterMap fun offset => reapScratch[(start + offset) % reapScratch.length]?

/-- The loop of `try_reap_into` over the outstanding pids, behind that over the orphans. -/
def visitWindow (r : Recovery) (observerNs : UInt64) (outcomes : List RecoveryOutcome) :
    Recovery × List RecoveryOutcome :=
  let reapScratch := r.outstanding.iterPids
  let n := reapScratch.length
  if n = 0 then (r, outcomes)
  else
    let limit := min r.reapMax n
    let start := r.reapCursor % n
    let truncated :=
      if limit < n then u64SaturatingAdd r.reapTruncatedTotal 1 else r.reapTruncatedTotal
    visitAll chainHash env observerNs (reapWindow reapScratch start limit)
      { r with reapTruncatedTotal := truncated, reapCursor := (start + limit) % n } outcomes

def tryReapInto (r : Recovery) (observerNs : UInt64) : Recovery × List RecoveryOutcome :=
  let (r, outcomes) := drainOrphanReaps chainHash env observerNs r.reapMax
    { r with pendingOutcomes := [] } r.pendingOutcomes
  visitWindow chainHash env r observerNs outcomes

/-! ### Firing -/

/-- The entry of `pid` moves to the list of orphans. -/
def orphan (r : Recovery) (pid : UInt32) : Recovery :=
  let r := { r with outstandingRecycleResets := u64SaturatingAdd r.outstandingRecycleResets 1 }
  match r.outstanding.remove pid with
  | (none, outstanding) => { r with outstanding := outstanding }
  | (some entry, outstanding) => { r with
      outstanding := outstanding, reapingOrphans := r.reapingOrphans ++ [(pid, entry)] }

/-- The refusal of a reclaim that finds no room for another orphan. The child is killed all
the same, and the result of the kill is ignored. -/
def refuseReclaim (r : Recovery) (pid : UInt32) (observerNs : UInt64) :
    RecoveryOutcome × Recovery :=
  let r := match r.outstanding.get pid with
    | none => r
    | some entry =>
      let (_, entry, w) := entry.killForReclaim env r.world
      r.store pid entry w
  let r := { r with
    refusedOutstandingCapacity := u64SaturatingAdd r.refusedOutstandingCapacity 1 }
  (.refusedOutstandingCapacity pid,
    recordRefusedAudit chainHash env r pid observerNs auditReasonOrphanReapCapacity)

/-- `reclaim_recycled_outstanding`; the result is a refusal. -/
def reclaimRecycledOutstanding (r : Recovery) (pid : UInt32) (observerNs : UInt64) :
    Option RecoveryOutcome × Recovery :=
  if r.reapingOrphans.length ≥ r.orphanCapacity then
    let (refusal, r) := refuseReclaim chainHash env r pid observerNs
    (some refusal, r)
  else
    match r.outstanding.get pid with
    | none => (none, r)
    | some entry =>
      let (result, entry, w) := entry.killForReclaim env r.world
      let r := r.store pid entry w
      match result with
      -- the child may still be running, so it keeps the slot of the pid
      | .error error =>
        (some (.refusedStaleChildKillFailed pid error),
          recordRefusedAudit chainHash env r pid observerNs auditReasonStaleChildKillFailed)
      | .ok killOutcome =>
        let r := r.orphan pid
        match killOutcome with
        | .killed child =>
          (none, { r with pendingOutcomes := r.pendingOutcomes ++ [.killed child] })
        | .alreadyExited => (none, r)
        | .alreadyKilled => (none, r)

/-- The part of `on_stall` that deals with an earlier child of the pid; the result is a
refusal. -/
def clearOutstanding (r : Recovery) (pid : UInt32) (generation : Option Nat)
    (observerNs : UInt64) : Option RecoveryOutcome × Recovery :=
  if r.outstanding.contains pid then
    let storedGeneration := (r.outstanding.get pid).bind Outstanding.generation
    if !sameLineage storedGeneration generation then
      reclaimRecycledOutstanding chainHash env r pid observerNs
    else
      match reapFinishedChild chainHash env r pid observerNs with
      -- reaped in passing: the next tick reports it, and the stall goes on
      | (some outcome, r) => (none, { r with pendingOutcomes := r.pendingOutcomes ++ [outcome] })
      | (none, r) =>
        (some .debounced,
          recordRefusedAudit chainHash env r pid observerNs auditReasonOutstandingInFlight)
  else (none, r)

/-- The command of `spawn_exec_child`, up to its environment. -/
def command (r : Recovery) (pid : UInt32) : Except IoError Command :=
  match r.mode with
  | .exec program args =>
    (applyEnv ⟨program.bytes, [], false, [], false⟩ r.recoveryInheritEnv r.recoveryEnv).map
      fun cmd => { cmd with
        args := args.map fun a => substitutePid pid a.bytes
        piped := decide (r.captureCap > 0) }

def spawnFailed (r : Recovery) (pid : UInt32) (observerNs : UInt64) (reservation : Reservation)
    (error : IoError) : RecoveryOutcome × Recovery :=
  let r := { r with outstanding := r.outstanding.releaseReservation reservation }
  (.spawnFailed error, recordRefusedAudit chainHash env r pid observerNs auditReasonSpawnFailed)

/-- A child is running: the pipes are set up and both reservations are committed. -/
def commitSpawn (r : Recovery) (fired : Firing) (pipes : Bool) (wallclockMs : UInt64)
    (reservation : Reservation) (lastFiredReservation : LastFiredReservation) : Recovery :=
  let (capture, w) := takeCaptureHandles env (r.world.tick.note (.spawned fired)) pipes
    (decide (r.captureCap > 0))
  let entry : Outstanding := {
    child := fired.child
    spawnedAt := fired.firedAt
    killed := false
    generation := fired.generation
    wallclockAtSpawnMs := wallclockMs
    stdoutHandle := capture.stdout
    stderrHandle := capture.stderr
    stdoutLen := 0
    stderrLen := 0
    truncated := capture.truncated
    completedStatus := none
    completedAt := none }
  { r with
    outstanding := r.outstanding.commitReserved reservation entry
    lastFired := (r.lastFired.commitReserved lastFiredReservation).2
    world := w }

def spawnExecChild (r : Recovery) (pid : UInt32) (generation : Option Nat)
    (wallclockMs : UInt64) (now : Nat) (observerNs : UInt64) (reservation : Reservation)
    (lastFiredReservation : LastFiredReservation) : RecoveryOutcome × Recovery :=
  match r.mode, r.command pid with
  | _, .error e => spawnFailed chainHash env r pid observerNs reservation e
  | .exec program _, .ok cmd =>
    match (r.world.answer env).spawn with
    | .error e => spawnFailed chainHash env { r with world := r.world.tick } pid observerNs
        reservation e
    | .ok forked =>
      let child : Child := ⟨r.world.fires.length, forked.id⟩
      let r := commitSpawn env r ⟨pid, generation, now, child, cmd⟩ forked.pipes wallclockMs
        reservation lastFiredReservation
      (.spawned child, emitSpawnAudit chainHash r wallclockMs observerNs pid child program
        (templateLen (cmd.program :: cmd.args)))

/-- The part of `on_stall` from the first reservation on. -/
def reserveAndSpawn (r : Recovery) (pid : UInt32) (generation : Option Nat) (now : Nat)
    (observerNs : UInt64) : RecoveryOutcome × Recovery :=
  match r.outstanding.tryReserve pid with
  | (.error _, outstanding) =>
    let r := { r with
      outstanding := outstanding
      refusedOutstandingCapacity := u64SaturatingAdd r.refusedOutstandingCapacity 1 }
    (.refusedOutstandingCapacity pid,
      recordRefusedAudit chainHash env r pid observerNs auditReasonOutstandingCapacity)
  | (.ok reservation, outstanding) =>
    match r.lastFired.tryReserve pid generation now r.debounce with
    -- all slots of the ledger are taken by pids that are still in their windows
    | (none, lastFired) =>
      let r := { r with
        outstanding := outstanding.releaseReservation reservation
        lastFired := lastFired
        refusedDebounceCapacity := u64SaturatingAdd r.refusedDebounceCapacity 1 }
      (.refusedDebounceCapacity pid,
        recordRefusedAudit chainHash env r pid observerNs auditReasonDebounceCapacity)
    | (some lastFiredReservation, lastFired) =>
      let wallclockMs := (r.world.answer env).wallclockMs
      let r := { r with outstanding := outstanding, lastFired := lastFired, world := r.world.tick }
      spawnExecChild chainHash env r pid generation wallclockMs now observerNs reservation
        lastFiredReservation

/-- Whether the ledger holds back a fire at `now`, with the ledger pruned and looked up. -/
def debounces (r : Recovery) (pid : UInt32) (generation : Option Nat) (now : Nat) :
    Bool × LastFiredTable :=
  let pruned := r.lastFired.pruneExpired now (r.debounce.saturatingMul 10)
  match pruned.get pid generation with
  | (some prev, lastFired) => (decide (now - prev < r.debounce.nanos), lastFired)
  | (none, lastFired) => (false, lastFired)

/-- `on_stall` behind the look at the ledger. -/
def clearAndSpawn (r : Recovery) (pid : UInt32) (generation : Option Nat) (now : Nat)
    (observerNs : UInt64) : RecoveryOutcome × Recovery :=
  match clearOutstanding chainHash env r pid generation observerNs with
  | (some refusal, r) => (refusal, r)
  | (none, r) => reserveAndSpawn chainHash env r pid generation now observerNs

/-- `on_stall` behind its two gates. -/
def fire (r : Recovery) (pid : UInt32) (generation : Option Nat) (observerNs : UInt64) :
    RecoveryOutcome × Recovery :=
  let now := (r.world.answer env).instant
  let looked := r.debounces pid generation now
  let r := { r with lastFired := looked.2, world := r.world.tick }
  if looked.1 then
    (.debounced, recordRefusedAudit chainHash env r pid observerNs auditReasonDebounced)
  else clearAndSpawn chainHash env r pid generation now observerNs

def onStall (r : Recovery) (pid : UInt32) (origin : BeatOrigin) (crossNamespaceAgent : Bool)
    (generation : Option Nat) (observerNs : UInt64) : RecoveryOutcome × Recovery :=
  if crossNamespaceAgent && !r.allowCrossNamespace then
    let r := { r with refusedCrossNamespace := u64SaturatingAdd r.refusedCrossNamespace 1 }
    (.refusedCrossNamespace pid,
      recordRefusedAudit chainHash env r pid observerNs auditReasonCrossNamespaceAgent)
  else
    match origin with
    | .networkUnverified =>
      let r := { r with
        refusedUnauthenticatedSource := u64SaturatingAdd r.refusedUnauthenticatedSource 1 }
      (.refusedUnauthenticatedSource pid,
        recordRefusedAudit chainHash env r pid observerNs auditReasonUnauthenticatedTransport)
    | .socketModeOnly =>
      let r := { r with refusedSocketModeOnly := u64SaturatingAdd r.refusedSocketModeOnly 1 }
      (.refusedSocketModeOnly pid,
        recordRefusedAudit chainHash env r pid observerNs auditReasonSocketModeOnly)
    | .kernelAttested => fire chainHash env r pid generation observerNs
    | .operatorAttestedTransport => fire chainHash env r pid generation observerNs

end

end Recovery

end Varta.Watch
