import Varta.Watch.RecoveryStalls

/-!
# Runs of the runner

The main loop calls the runner on stalls and on every tick, in any order and with any answers
of the operating system. A run keeps what every move keeps.
-/
namespace Varta.Watch.Recovery

open Machine
open Vlp (Bytes32)

/-! ### Calls -/

inductive Call where
  | onStall (pid : UInt32) (origin : BeatOrigin) (crossNamespaceAgent : Bool)
      (generation : Option Nat) (observerNs : UInt64)
  | tryReapInto (observerNs : UInt64)
  | recordDeferredSkipAudit (outcome : RecoveryOutcome) (observerNs : UInt64)
  | take (counter : Counter)

/-- A runner with what its stalls have returned and what its ticks have delivered. -/
structure Session where
  recovery : Recovery
  returned : List RecoveryOutcome
  delivered : List RecoveryOutcome

namespace Session

/-- The outcomes that a tick has delivered or the next one will. -/
def reports (s : Session) : List RecoveryOutcome := s.recovery.reports s.delivered

def trace (s : Session) : List Effect := s.recovery.world.trace

/-- The children that the runner has let go of. -/
def finished (s : Session) : List Child := (drops s.trace).map Prod.snd

end Session

section

variable (chainHash : Option (Bytes32 → Bytes → Bytes → Bytes32)) (env : Nat → Answer)

def step (s : Session) : Call → Session
  | .onStall pid origin crossNamespaceAgent generation observerNs =>
    let (outcome, r) :=
      onStall chainHash env s.recovery pid origin crossNamespaceAgent generation observerNs
    { s with recovery := r, returned := s.returned ++ [outcome] }
  | .tryReapInto observerNs =>
    let (r, outcomes) := tryReapInto chainHash env s.recovery observerNs
    { s with recovery := r, delivered := s.delivered ++ outcomes }
  | .recordDeferredSkipAudit outcome observerNs =>
    { s with
      recovery := recordDeferredSkipAudit chainHash env s.recovery outcome observerNs }
  | .take counter => { s with recovery := (s.recovery.take counter).2 }

/-- A runner as it is set up, and the calls it gets after that. -/
def after (mode : RecoveryMode) (debounce : Duration) (timeout : Option Duration)
    (settings : List Setting) (calls : List Call) : Session :=
  Steps.run (step chainHash env) ⟨setUp mode debounce timeout settings, [], []⟩ calls

end

/-! ### Setting up -/

/-- A runner that has not done anything yet. -/
structure Fresh (r : Recovery) : Prop where
  outstanding : ∃ capacity, r.outstanding = .withCapacity capacity
  reapingOrphans : r.reapingOrphans = []
  pendingOutcomes : r.pendingOutcomes = []
  ordered : r.lastFired.Wf
  world : r.world = ⟨0, []⟩

variable (mode : RecoveryMode) (debounce : Duration) (timeout : Option Duration)

theorem fresh_withTimeout :
    Fresh (withTimeout mode debounce timeout) where
  outstanding := ⟨_, rfl⟩
  reapingOrphans := rfl
  pendingOutcomes := rfl
  ordered := LastFiredTable.wf_withCapacity (by decide)
  world := rfl

theorem Fresh.configure {r : Recovery} (fresh : Fresh r) (setting : Setting) :
    Fresh (r.configure setting) := by
  cases setting with
  | outstandingCapacity capacity =>
    simp only [Recovery.configure, withOutstandingCapacity]
    split
    · exact fresh
    · exact { fresh with outstanding := ⟨_, rfl⟩ }
  | lastFiredCapacity cap positive =>
    exact { fresh with ordered := LastFiredTable.wf_withCapacity positive }
  | auditSink | capture | allowCrossNamespace | source | recoveryEnv | recoveryInheritEnv | reapMax =>
    exact { fresh with }

theorem fresh_setUp (settings : List Setting) : Fresh (setUp mode debounce timeout settings) :=
  Steps.run_invariant (fun _ setting fresh => fresh.configure setting) settings
    (fresh_withTimeout mode debounce timeout)

/-- No setter touches the debounce. -/
theorem debounce_setUp (settings : List Setting) :
    (setUp mode debounce timeout settings).debounce = debounce.longer minRecoveryDebounce := by
  have keeps (r : Recovery) (setting : Setting) : (r.configure setting).debounce = r.debounce := by
    cases setting with
    | outstandingCapacity capacity =>
      simp only [configure, withOutstandingCapacity]
      split <;> rfl
    | _ => rfl
  -- the clamp is applied by the constructor only
  have all (r : Recovery) : (Steps.run configure r settings).debounce = r.debounce := by
    induction settings generalizing r with
    | nil => rfl
    | cons setting settings ih => exact (ih (r.configure setting)).trans (keeps r setting)
  exact all (withTimeout mode debounce timeout)

/-! ### One call -/

section

variable {chainHash : Option (Bytes32 → Bytes → Bytes → Bytes32)} {env : Nat → Answer}
  {licence : Licence} {s : Session}

/-- The child that a call kills to reclaim its slot. -/
def killOf (env : Nat → Answer) (r : Recovery) : Call → Option Outstanding
  | .onStall pid origin crossNamespaceAgent generation _ =>
    r.stallKill env pid origin crossNamespaceAgent generation
  | _ => none

theorem idle_take {r : Recovery} (wf : r.outstanding.Wf) (counter : Counter) :
    Idle r (r.take counter).2 := by
  cases counter with
  | outstandingProbeExhausted =>
    exact ⟨{ wf with }, .single (.counted _), fun _ => rfl, rfl, .refl _, rfl⟩
  | _ => exact ⟨wf, .refl, fun _ => rfl, rfl, .refl _, rfl⟩

/-- Taking a counter leaves the entries of the ledger and the pending outcomes alone. -/
theorem take_aside (r : Recovery) (counter : Counter) :
    (r.take counter).2.lastFired.slots = r.lastFired.slots ∧
      (r.lastFired.Wf → (r.take counter).2.lastFired.Wf) ∧
      (r.take counter).2.pendingOutcomes = r.pendingOutcomes := by
  cases counter with
  | lastFiredInvariantViolations =>
    exact ⟨rfl, fun wf => ⟨wf.distinct, wf.counted, wf.nonempty, rfl⟩, rfl⟩
  | _ => exact ⟨rfl, fun wf => { wf with }, rfl⟩

theorem recordDeferredSkipAudit_leads {r : Recovery} {reported : List RecoveryOutcome}
    (wf : r.outstanding.Wf) (outcome : RecoveryOutcome) (observerNs : UInt64) :
    Leads licence r reported (recordDeferredSkipAudit chainHash env r outcome observerNs) reported ∧
      Aside r (recordDeferredSkipAudit chainHash env r outcome observerNs) := by
  cases outcome with
  | skippedAgentResumed | skippedPidRecycled | skippedStallUnverifiable =>
    exact ⟨recordRefusedAudit_leads wf _ observerNs _, aside_recordRefused ..⟩
  | _ => exact ⟨.refl wf, .refl r⟩

/-- What holds between two calls. -/
structure Kept (s : Session) : Prop where
  wf : s.recovery.outstanding.Wf
  ordered : s.recovery.lastFired.Wf
  sound : Sound s.recovery.audited (s.recovery.custody s.reports)
  room : s.recovery.reapingOrphans.length ≤ s.recovery.orphanCapacity

theorem kept_setUp (mode : RecoveryMode) (debounce : Duration) (timeout : Option Duration)
    (settings : List Setting) : Kept ⟨setUp mode debounce timeout settings, [], []⟩ := by
  have fresh := fresh_setUp mode debounce timeout settings
  obtain ⟨capacity, table⟩ := fresh.outstanding
  have entries := OutstandingTable.entries_withCapacity capacity (V := Outstanding)
  refine ⟨table ▸ OutstandingTable.wf_withCapacity capacity, fresh.ordered, ?_, ?_⟩
  · simp only [custody, Session.reports, reports, table, entries, fresh.reapingOrphans,
      fresh.pendingOutcomes, fresh.world, List.append_nil]
    exact sound_nil _
  · simp [fresh.reapingOrphans]

theorem step_leads (kept : Kept s) (call : Call) (licensed : licence.spawn)
    (covers : ∀ entry ∈ killOf env s.recovery call, licence.Covers s.recovery entry) :
    Leads licence s.recovery s.reports (step chainHash env s call).recovery
      (step chainHash env s call).reports := by
  cases call with
  | onStall pid origin crossNamespaceAgent generation observerNs =>
    exact (onStall_spec kept.wf kept.ordered licensed covers observerNs).1
  | tryReapInto observerNs =>
    have leads := @tryReapInto_leads licence s.recovery chainHash env kept.wf observerNs s.delivered
    obtain ⟨-, -, emptied⟩ := @tryReapInto_aside chainHash env s.recovery observerNs
    -- the outcomes that were pending are delivered, so that the reports stay one list
    simp only [step, Session.reports, reports, emptied, List.append_nil]
    exact leads
  | recordDeferredSkipAudit outcome observerNs =>
    obtain ⟨leads, aside⟩ := @recordDeferredSkipAudit_leads chainHash env licence s.recovery
      s.reports kept.wf outcome observerNs
    simp only [step, Session.reports, aside.reports_eq]
    exact leads
  | take counter =>
    have same := (s.recovery.take_aside counter).2.2
    simp only [step, Session.reports, reports, same]
    exact (idle_take kept.wf counter).leads

theorem Kept.stalls (kept : Kept s) (pid : UInt32) (origin : BeatOrigin)
    (crossNamespaceAgent : Bool) (generation : Option Nat) (observerNs : UInt64) :
    let result := onStall chainHash env s.recovery pid origin crossNamespaceAgent generation observerNs
    Stalled env s.recovery pid generation result.2 ∧ Answers s.recovery result :=
  (@onStall_spec .full s.recovery pid chainHash env [] origin crossNamespaceAgent generation kept.wf
    kept.ordered trivial (fun _ _ => ⟨fun _ => trivial, fun _ => trivial⟩) observerNs).2

theorem ordered_step (kept : Kept s) (call : Call) :
    (step chainHash env s call).recovery.lastFired.Wf := by
  cases call with
  | onStall pid origin crossNamespaceAgent generation observerNs =>
    exact (kept.stalls pid origin crossNamespaceAgent generation observerNs).1.ordered kept.ordered
  | tryReapInto observerNs =>
    have same := (@tryReapInto_aside chainHash env s.recovery observerNs).2.1
    simp only [step, same]
    exact kept.ordered
  | recordDeferredSkipAudit outcome observerNs =>
    have aside := (@recordDeferredSkipAudit_leads chainHash env .full s.recovery [] kept.wf
      outcome observerNs).2
    simp only [step, aside.lastFired]
    exact kept.ordered
  | take counter => exact (s.recovery.take_aside counter).2.1 kept.ordered

theorem Kept.leads (kept : Kept s) (call : Call) :
    Leads .full s.recovery s.reports (step chainHash env s call).recovery
      (step chainHash env s call).reports :=
  step_leads kept call trivial fun _ _ => ⟨fun _ => trivial, fun _ => trivial⟩

theorem Kept.step (kept : Kept s) (call : Call) : Kept (step chainHash env s call) := by
  have leads := @Kept.leads chainHash env s kept call
  refine ⟨leads.wf, ordered_step kept call, ?_, ?_⟩
  · rw [leads.audited]
    exact kept.sound.moves leads.moves
  · have room := leads.room
    have before := kept.room
    rw [leads.orphanCapacity]
    omega

theorem kept_after (mode : RecoveryMode) (debounce : Duration) (timeout : Option Duration)
    (settings : List Setting) (calls : List Call) :
    Kept (after chainHash env mode debounce timeout settings calls) :=
  Steps.run_invariant (fun _ call kept => kept.step call) calls
    (kept_setUp mode debounce timeout settings)

/-! ### Conservation -/

/-- The audit log is attached before the first call, or never, and the debounce stays. -/
theorem settings_run (kept : Kept s) (calls : List Call) :
    (Steps.run (step chainHash env) s calls).recovery.audited = s.recovery.audited ∧
      (Steps.run (step chainHash env) s calls).recovery.debounce = s.recovery.debounce := by
  induction calls generalizing s with
  | nil => exact ⟨rfl, rfl⟩
  | cons call calls ih =>
    have leads := @Kept.leads chainHash env s kept call
    obtain ⟨audited, debounce⟩ := ih (kept.step call)
    exact ⟨audited.trans leads.audited, debounce.trans leads.debounce⟩

/-- The table of a run is made from the first one by calls of the runner. -/
theorem issues_run (kept : Kept s) (calls : List Call) : s.recovery.outstanding.Issues
    (Steps.run (step chainHash env) s calls).recovery.outstanding := by
  induction calls generalizing s with
  | nil => exact .refl
  | cons call calls ih =>
    exact (@Kept.leads chainHash env s kept call).issued.trans (ih (kept.step call))

/-- A child that is finished stays finished. -/
theorem finished_suffix (kept : Kept s) (more : List Call) :
    s.finished <:+ (Steps.run (step chainHash env) s more).finished := by
  induction more generalizing s with
  | nil => exact List.suffix_refl _
  | cons call more ih =>
    have leads := @Kept.leads chainHash env s kept call
    have grown : s.finished <:+ (step chainHash env s call).finished :=
      ((suffix_moves leads.moves).filterMap dropped?).map Prod.snd
    exact grown.trans (ih (kept.step call))

/-- A child is in one place. -/
theorem Kept.count_eq_one (kept : Kept s) {fired : Firing}
    (spawned : fired ∈ s.recovery.world.fires) :
    (s.recovery.outstanding.entries.map (·.2.child)).count fired.child +
      (s.recovery.reapingOrphans.map (·.2.child)).count fired.child +
      s.finished.count fired.child = 1 := by
  have accounted := kept.sound.accounted
  have mem : fired.child ∈ (fires s.trace).map (·.child) := List.mem_map.mpr ⟨fired, spawned, rfl⟩
  have once := List.count_eq_one_of_mem accounted.nodup (accounted.children.mem_iff.mp mem)
  simp only [custody, List.map_append, List.count_append] at once
  exact once

end

/-- With an audit log, each child is at every moment the entry of its pid, an orphan or
finished, in one of these places and once; it becomes finished once, right after the one call of
`record_complete` for it, and it stays so. Without an audit log `record_complete` is not
called. -/
theorem children_conserved (chainHash : Option (Bytes32 → Bytes → Bytes → Bytes32))
    (env : Nat → Answer) (mode : RecoveryMode) (debounce : Duration) (timeout : Option Duration)
    (settings : List Setting) (calls : List Call) :
    let s := after chainHash env mode debounce timeout settings calls
    let audited := (setUp mode debounce timeout settings).auditSink.isSome
    (∀ fired ∈ s.recovery.world.fires,
      (s.recovery.outstanding.entries.map (·.2.child)).count fired.child +
        (s.recovery.reapingOrphans.map (·.2.child)).count fired.child +
        s.finished.count fired.child = 1) ∧
    (completes s.trace).map Prod.fst = (if audited then s.finished else []) ∧
    (audited = true → Prompt s.trace) ∧
    (∀ more, s.finished <:+ (after chainHash env mode debounce timeout settings
      (calls ++ more)).finished) ∧
    s.recovery.outstanding.Wf ∧ (s.recovery.outstanding.entries.map Prod.fst).Nodup ∧
    s.recovery.reapingOrphans.length ≤ s.recovery.orphanCapacity := by
  intro s audited
  have kept : Kept s := kept_after mode debounce timeout settings calls
  have sound := kept.sound
  have attached : s.recovery.audited = audited :=
    (settings_run (kept_setUp mode debounce timeout settings) calls).1
  rw [attached] at sound
  refine ⟨fun fired => kept.count_eq_one, sound.accounted.recorded, sound.prompt, ?_, kept.wf,
    s.recovery.outstanding.nodup_entries, kept.room⟩
  intro more
  rw [after, Steps.run_append]
  exact finished_suffix kept more

/-- Answers of an operating system on which every child exits at once. -/
def promptAnswer : Answer where
  instant := 0
  wallclockMs := 0
  spawn := .ok ⟨100, false⟩
  setNonblocking := true
  tryWait := .ok (some ⟨some 0, none⟩)
  kill := .ok ()
  read := .ok 0

/-- A runner is set up without an audit log, and then a finished child has no record. -/
theorem finished_without_record :
    ¬∀ (chainHash : Option (Bytes32 → Bytes → Bytes → Bytes32)) (env : Nat → Answer)
      (mode : RecoveryMode) (debounce : Duration) (timeout : Option Duration)
      (settings : List Setting) (calls : List Call),
      let s := after chainHash env mode debounce timeout settings calls
      (completes s.trace).map Prod.fst = s.finished := by
  intro all
  have recorded := all none (fun _ => promptAnswer)
    (.exec ⟨Bytes.ofString "/bin/true", bin_true_valid⟩ []) (.ofMillis 1) none
    [.outstandingCapacity 1, .lastFiredCapacity 1 (by decide)]
    [.onStall 7 .kernelAttested false (some 1) 0, .tryReapInto 0]
  revert recorded
  decide +kernel

end Varta.Watch.Recovery
