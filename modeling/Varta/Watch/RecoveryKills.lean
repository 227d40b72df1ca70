import Varta.Watch.RecoveryRuns

/-!
# Kills and their reports

`kill_for_reclaim` does not look at the exit status of the child, and a reclaim without room for
an orphan does not report its kill. In runs that keep clear of the one, no child that exited by
itself counts as killed; in runs that keep clear of the other, every kill is reported once.
-/
namespace Varta.Watch.Recovery

open Machine
open Vlp (Bytes32)

section

variable {chainHash : Option (Bytes32 → Bytes → Bytes → Bytes32)} {env : Nat → Answer}
  {s : Session}

/-! ### Children that exited -/

/-- The call kills a child whose exit status was collected. -/
def lateKill (env : Nat → Answer) (s : Session) (call : Call) : Bool :=
  (killOf env s.recovery call).any fun entry => entry.completedStatus.isSome

/-- So far no child was killed after its exit. -/
structure Punctual (s : Session) : Prop where
  kept : Kept s
  timely : Timely s.trace
  answers : killedChildren s.returned = []

theorem punctual_setUp (mode : RecoveryMode) (debounce : Duration) (timeout : Option Duration)
    (settings : List Setting) : Punctual ⟨setUp mode debounce timeout settings, [], []⟩ := by
  refine ⟨kept_setUp mode debounce timeout settings, ?_, rfl⟩
  rw [Session.trace, (fresh_setUp mode debounce timeout settings).world]
  exact timely_nil

/-- The stalls themselves report no kill. -/
theorem returned_step (kept : Kept s) (answers : killedChildren s.returned = []) (call : Call) :
    killedChildren (step chainHash env s call).returned = [] := by
  cases call with
  | onStall pid origin crossNamespaceAgent generation observerNs =>
    simp only [step, killedChildren_append, answers, List.nil_append]
    exact (kept.stalls pid origin crossNamespaceAgent generation observerNs).2.answer
  | tryReapInto | recordDeferredSkipAudit | take => exact answers

theorem Punctual.step (punctual : Punctual s) {call : Call}
    (inTime : lateKill env s call = false) : Punctual (step chainHash env s call) := by
  have late (entry : Outstanding) (killed : entry ∈ killOf env s.recovery call)
      (exited : entry.completedStatus ≠ none) : False := by
    rw [lateKill, killed] at inTime
    simp [exited] at inTime
  -- every move but a late kill is licensed
  have leads := @step_leads chainHash env ⟨True, False, True⟩ s punctual.kept call trivial
    fun entry kill => ⟨late entry kill, fun _ => trivial⟩
  exact ⟨punctual.kept.step call,
    punctual.kept.sound.timely_moves punctual.timely id leads.moves,
    returned_step punctual.kept punctual.answers call⟩

/-- A child that exited before any kill of it was not killed later, is not reported as killed,
and its record is that of a child that was reaped. -/
theorem Punctual.spared (punctual : Punctual s) {later earlier : List Effect} {child : Child}
    {status : ExitStatus} (exited : s.trace = later ++ .exited child status :: earlier)
    (before : child ∉ kills earlier) :
    child ∉ killedChildren (s.returned ++ s.reports) ∧
      ∀ record, (child, record) ∈ completes s.trace → record.outcome = .reaped := by
  have spared : child ∉ kills s.trace :=
    mt (punctual.timely later earlier child status exited) before
  have recorded := punctual.kept.sound.recorded
  constructor
  · rw [killedChildren_append, punctual.answers, List.nil_append]
    exact mt (recorded.reported child) spared
  · intro record mem
    -- a record says killed only of a killed child, and reap_failed only of one without a status
    cases outcome : record.outcome with
    | reaped => rfl
    | killed => exact absurd (recorded.killed _ mem outcome) spared
    | reapFailed =>
      have collected : child ∈ exits s.trace := by simp [exited, exits]
      exact absurd collected (recorded.failed _ mem outcome)

end

/-- In a run in which no stall kills a child whose exit status was collected, a child that
exited before any kill of it is never reported as killed, and it is recorded as reaped. -/
theorem exited_child_not_killed (chainHash : Option (Bytes32 → Bytes → Bytes → Bytes32))
    (env : Nat → Answer) (mode : RecoveryMode) (debounce : Duration) (timeout : Option Duration)
    (settings : List Setting) (calls : List Call)
    (inTime : Steps.Guarded (step chainHash env) (fun s call => lateKill env s call = false)
      ⟨setUp mode debounce timeout settings, [], []⟩ calls) :
    let s := after chainHash env mode debounce timeout settings calls
    ∀ later earlier child status, s.trace = later ++ .exited child status :: earlier →
      child ∉ kills earlier →
        child ∉ killedChildren (s.returned ++ s.reports) ∧
          ∀ record, (child, record) ∈ completes s.trace → record.outcome = .reaped := by
  intro s later earlier child status exited before
  have punctual : Punctual s :=
    inTime.invariant (fun _ _ punctual => punctual.step) (punctual_setUp mode debounce timeout settings)
  exact punctual.spared exited before

/-- An audit log that was just opened. -/
def freshLog : Audit.RecoveryAuditLog where
  sink := ⟨0, []⟩
  maxBytes := none
  bytesWritten := 0
  pendingErr := none
  nextSeq := 0
  nextSeq_lt := by decide
  prevChain := .zero
  syncEvery := 0
  writesSinceSync := 0
  daemonPid := 1
  pendingLines := []
  auditDroppedTotal := 0
  auditFlushBudgetExceededTotal := 0
  fsyncBudget := 0
  syncInterval := none
  lastSyncAt := none
  auditFsyncBudgetExceededTotal := 0
  auditRotationBudgetExceededTotal := 0
  deferredFsyncInDrain := false
  needsRotation := false
  rotationProgress := .idle

def trueCommand : RecoveryMode := .exec ⟨Bytes.ofString "/bin/true", bin_true_valid⟩ []

/-- A stall, a tick in which the child exits and is recorded, and a stall of the next process. -/
def reapedRun : List Call :=
  [.onStall 7 .kernelAttested false (some 1) 0, .tryReapInto 0,
    .onStall 7 .kernelAttested false (some 2) 0]

theorem exited_child_not_killed_reaped :
    let settings := [Setting.auditSink (some freshLog), .outstandingCapacity 1,
      .lastFiredCapacity 1 (by decide)]
    let s := after none (fun _ => promptAnswer) trueCommand (.ofMillis 1) none settings reapedRun
    (exits s.trace = [⟨0, 100⟩] ∧ kills s.trace = [] ∧
      (completes s.trace).map Prod.fst = [⟨0, 100⟩]) ∧
    ∀ later earlier child status, s.trace = later ++ .exited child status :: earlier →
      child ∉ kills earlier →
        child ∉ killedChildren (s.returned ++ s.reports) ∧
          ∀ record, (child, record) ∈ completes s.trace → record.outcome = .reaped :=
  ⟨by decide +kernel, exited_child_not_killed none (fun _ => promptAnswer) trueCommand (.ofMillis 1)
    none _ reapedRun (by decide +kernel)⟩

/-- Answers of an operating system on which every child exits at once, while its pipes stay
open, and killing a child that has exited succeeds. -/
def lingeringAnswer (time : Nat) : Answer where
  instant := time * 100000000
  wallclockMs := 0
  spawn := .ok ⟨100, true⟩
  setNonblocking := true
  tryWait := .ok (some ⟨some 0, none⟩)
  kill := .ok ()
  read := .error (.os .wouldBlock)

/-- With capture on, the exit status of a child is collected while its entry stays. Then the pid
is used by another process, and the child is reported and recorded as killed. -/
theorem exited_child_reported_killed :
    let settings := [Setting.auditSink (some freshLog), .capture 64, .outstandingCapacity 1,
      .lastFiredCapacity 1 (by decide)]
    let calls := [Call.onStall 7 .kernelAttested false (some 1) 0, .tryReapInto 0]
    let more := [Call.onStall 7 .kernelAttested false (some 2) 0, .tryReapInto 0]
    let run := after none lingeringAnswer trueCommand (.ofMillis 1) none settings
    let child : Child := ⟨0, 100⟩
    (child ∈ exits (run calls).trace ∧ kills (run calls).trace = []) ∧
      child ∈ killedChildren (run (calls ++ more)).delivered ∧
      (child, Audit.CompleteOutcome.killed) ∈
        (completes (run (calls ++ more)).trace).map fun p => (p.1, p.2.outcome) := by
  decide +kernel

/-! ### Kills without a report -/

/-- The call kills a child although there is no room for another orphan. -/
def silentKill (env : Nat → Answer) (s : Session) (call : Call) : Bool :=
  (killOf env s.recovery call).isSome &&
    decide (s.recovery.orphanCapacity ≤ s.recovery.reapingOrphans.length)

section

variable {chainHash : Option (Bytes32 → Bytes → Bytes → Bytes32)} {env : Nat → Answer}
  {s : Session}

/-- So far every kill was reported, or will be by the next tick. -/
structure Loud (s : Session) : Prop where
  kept : Kept s
  reported : Reported (s.recovery.custody s.reports)

theorem loud_setUp (mode : RecoveryMode) (debounce : Duration) (timeout : Option Duration)
    (settings : List Setting) : Loud ⟨setUp mode debounce timeout settings, [], []⟩ := by
  have fresh := fresh_setUp mode debounce timeout settings
  refine ⟨kept_setUp mode debounce timeout settings, ?_⟩
  simp only [Reported, custody, Session.reports, reports, fresh.pendingOutcomes, fresh.world]
  rfl

theorem Loud.step (loud : Loud s) {call : Call} (roomy : silentKill env s call = false) :
    Loud (step chainHash env s call) := by
  have silent (entry : Outstanding) (killed : entry ∈ killOf env s.recovery call)
      (full : s.recovery.reapingOrphans.length ≥ s.recovery.orphanCapacity) : False := by
    rw [silentKill, killed] at roomy
    simp [Nat.not_lt.mpr full] at roomy
  -- every move but a silent kill is licensed
  have leads := @step_leads chainHash env ⟨True, True, False⟩ s loud.kept call trivial
    fun entry kill => ⟨fun _ => trivial, silent entry kill⟩
  exact ⟨loud.kept.step call, loud.reported.moves id leads.moves⟩

/-- A kill that is neither reported nor pending is never delivered. -/
theorem Kept.undelivered_run (kept : Kept s) {child : Child} (killed : child ∈ kills s.trace)
    (unreported : child ∉ killedChildren s.reports) (calls : List Call) :
    child ∉ killedChildren (Steps.run (Recovery.step chainHash env) s calls).delivered := by
  induction calls generalizing s with
  | nil =>
    rw [Session.reports, reports, killedChildren_append, List.mem_append, not_or] at unreported
    exact unreported.1
  | cons call calls ih =>
    -- the child is killed and stays so; a child is killed once, and each report comes with its kill
    have later := kept.sound.unreported_moves killed unreported
      (@Kept.leads chainHash env s kept call).moves
    exact ih (kept.step call) later.1 later.2

/-- After a tick, each kill so far has been delivered, once. -/
theorem Loud.delivered (loud : Loud s) (observerNs : UInt64) :
    let s' := Recovery.step chainHash env s (.tryReapInto observerNs)
    killedChildren s'.delivered = (kills s'.trace).reverse ∧ (kills s'.trace).Nodup ∧
      kills s.trace <:+ kills s'.trace := by
  intro s'
  -- a tick reclaims nothing, so that it cannot kill silently
  have loud' : Loud s' := loud.step rfl
  have emptied : s'.recovery.pendingOutcomes = [] :=
    (tryReapInto_aside s.recovery observerNs).2.2
  have reported := loud'.reported
  simp only [Reported, custody, Session.reports, reports, emptied, List.append_nil] at reported
  refine ⟨reported, loud'.kept.sound.marked.once, ?_⟩
  exact (suffix_moves (loud.kept.leads (.tryReapInto observerNs)).moves).filterMap killed?

end

/-- In a run in which no stall kills a child for want of room for an orphan, the kills that
succeeded are at every moment those that are reported or pending, each once; and after each tick
they are all delivered. -/
theorem kills_reported (chainHash : Option (Bytes32 → Bytes → Bytes → Bytes32))
    (env : Nat → Answer) (mode : RecoveryMode) (debounce : Duration) (timeout : Option Duration)
    (settings : List Setting) (calls : List Call)
    (roomy : Steps.Guarded (step chainHash env) (fun s call => silentKill env s call = false)
      ⟨setUp mode debounce timeout settings, [], []⟩ calls) :
    let s := after chainHash env mode debounce timeout settings calls
    (∀ e ∈ s.recovery.outstanding.entries ++ s.recovery.reapingOrphans,
      e.2.killed = true ↔ e.2.child ∈ kills s.trace) ∧
    killedChildren (s.delivered ++ s.recovery.pendingOutcomes) = (kills s.trace).reverse ∧
    (kills s.trace).Nodup ∧
    ∀ observerNs, let s' := step chainHash env s (.tryReapInto observerNs)
      killedChildren s'.delivered = (kills s'.trace).reverse ∧ (kills s'.trace).Nodup ∧
        kills s.trace <:+ kills s'.trace := by
  intro s
  have loud : Loud s :=
    roomy.invariant (fun _ _ loud => loud.step) (loud_setUp mode debounce timeout settings)
  exact ⟨loud.kept.sound.marked.killed, loud.reported, loud.kept.sound.marked.once,
    loud.delivered⟩

/-- Answers of an operating system on which no child exits and every kill succeeds. -/
def runningAnswer : Answer where
  instant := 0
  wallclockMs := 0
  spawn := .ok ⟨100, false⟩
  setNonblocking := true
  tryWait := .ok none
  kill := .ok ()
  read := .ok 0

/-- Two processes with one pid: the child of the first is killed for the second. -/
def reclaimedRun : List Call :=
  [.onStall 7 .kernelAttested false (some 1) 0, .onStall 7 .kernelAttested false (some 2) 0]

theorem kills_reported_reclaimed :
    let settings := [Setting.outstandingCapacity 1, .lastFiredCapacity 1 (by decide)]
    let s := after none (fun _ => runningAnswer) trueCommand (.ofMillis 1) none settings reclaimedRun
    kills s.trace = [⟨0, 100⟩] ∧
    (∀ e ∈ s.recovery.outstanding.entries ++ s.recovery.reapingOrphans,
      e.2.killed = true ↔ e.2.child ∈ kills s.trace) ∧
    killedChildren (s.delivered ++ s.recovery.pendingOutcomes) = (kills s.trace).reverse ∧
    (kills s.trace).Nodup ∧
    ∀ observerNs, let s' := step none (fun _ => runningAnswer) s (.tryReapInto observerNs)
      killedChildren s'.delivered = (kills s'.trace).reverse ∧ (kills s'.trace).Nodup ∧
        kills s.trace <:+ kills s'.trace :=
  ⟨by decide +kernel, kills_reported none (fun _ => runningAnswer) trueCommand (.ofMillis 1) none _
    reclaimedRun (by decide +kernel)⟩

/-- With a third process there is no room for a second orphan: its child is killed, and no tick
ever delivers that. -/
theorem kill_never_delivered :
    let settings := [Setting.outstandingCapacity 1, .lastFiredCapacity 1 (by decide)]
    let calls := reclaimedRun ++ [.onStall 7 .kernelAttested false (some 3) 0]
    let run := after none (fun _ => runningAnswer) trueCommand (.ofMillis 1) none settings
    let child : Child := ⟨1, 100⟩
    child ∈ kills (run calls).trace ∧
      ∀ more, child ∉ killedChildren (run (calls ++ more)).delivered := by
  intro settings calls run child
  have killed : child ∈ kills (run calls).trace := by decide +kernel
  have unreported : child ∉ killedChildren (run calls).reports := by decide +kernel
  refine ⟨killed, fun more => ?_⟩
  have kept : Kept (run calls) := kept_after trueCommand (.ofMillis 1) none settings calls
  simp only [run, after, Steps.run_append]
  exact kept.undelivered_run killed unreported more

end Varta.Watch.Recovery
