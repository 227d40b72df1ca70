import Varta.Watch.MainLoop
import Varta.Watch.ReapFairness

/-!
# The outcome buffer

The daemon allocates the buffer that `try_reap_into` fills once, at start-up. A stall queues at
most one outcome for the next tick and a visit reports at most one, so a tick never needs more
room than the evaluation budget and two reap budgets together.
-/
namespace Varta.Watch.Recovery

open Machine
open Vlp (Bytes32)

/-- `RECOVERY_STALL_EVAL_MAX_PER_TICK`. -/
def recoveryStallEvalMaxPerTick : Nat := perTick.stallEvalMax

/-- `RECOVERY_REAP_OUTCOME_MAX_PER_TICK`. -/
def recoveryReapOutcomeMaxPerTick : Nat :=
  recoveryStallEvalMaxPerTick + recoveryReapMaxPerTick * 2

/-! ### What is queued -/

section

variable {chainHash : Option (Bytes32 → Bytes → Bytes → Bytes32)} {env : Nat → Answer} {s : Session}
  {n : Nat}

/-- The calls of `on_stall` since the last tick, with those that were made before. -/
def stallsSince : Nat → List Call → Nat
  | n, [] => n
  | n, .onStall .. :: calls => stallsSince (n + 1) calls
  | _, .tryReapInto _ :: calls => stallsSince 0 calls
  | n, _ :: calls => stallsSince n calls

theorem pending_step (kept : Kept s) (start : s.recovery.pendingOutcomes.length ≤ n) (call : Call) :
    (step chainHash env s call).recovery.pendingOutcomes.length ≤ stallsSince n [call] := by
  cases call with
  | onStall pid origin crossNamespaceAgent generation observerNs =>
    have stalled := (@Kept.stalls chainHash env s kept pid origin crossNamespaceAgent generation
      observerNs).2
    exact Nat.le_trans stalled.pending (Nat.add_le_add_right start 1)
  | tryReapInto observerNs =>
    obtain ⟨-, -, emptied⟩ := @tryReapInto_aside chainHash env s.recovery observerNs
    exact Nat.le_of_eq (congrArg List.length emptied)
  | recordDeferredSkipAudit outcome observerNs =>
    have aside := (@recordDeferredSkipAudit_leads chainHash env .full s.recovery [] kept.wf
      outcome observerNs).2
    exact aside.pendingOutcomes ▸ start
  | take counter => exact (s.recovery.take_aside counter).2.2 ▸ start

/-- Run lemma: there is no more queued than stalls have been since the last tick. -/
theorem pending_run (kept : Kept s) (start : s.recovery.pendingOutcomes.length ≤ n)
    (calls : List Call) :
    let after := Steps.run (step chainHash env) s calls
    after.recovery.reapMax = s.recovery.reapMax ∧
      after.recovery.pendingOutcomes.length ≤ stallsSince n calls := by
  induction calls generalizing s n with
  | nil => exact ⟨rfl, start⟩
  | cons call calls ih =>
    have leads := @Kept.leads chainHash env s kept call
    obtain ⟨limit, pending⟩ := ih (kept.step call) (pending_step kept start call)
    refine ⟨limit.trans leads.reapMax, ?_⟩
    cases call <;> exact pending

end

/-- The setters of a release build; `shrink_reap_max_for_test` is for tests. -/
def Setting.released : Setting → Bool
  | .reapMax _ => false
  | _ => true

theorem reapMax_setUp (mode : RecoveryMode) (debounce : Duration) (timeout : Option Duration)
    {settings : List Setting} (released : ∀ setting ∈ settings, setting.released = true) :
    (setUp mode debounce timeout settings).reapMax = recoveryReapMaxPerTick := by
  have keeps (r : Recovery) (setting : Setting) (same : r.reapMax = recoveryReapMaxPerTick)
      (allowed : setting.released = true) :
      (r.configure setting).reapMax = recoveryReapMaxPerTick := by
    cases setting with
    | outstandingCapacity capacity =>
      simp only [configure, withOutstandingCapacity]
      split <;> exact same
    | reapMax max => exact absurd allowed Bool.false_ne_true
    | _ => exact same
  exact (Steps.guarded_of_forall _ released).invariant keeps rfl

/-! ### The main loop -/

/-- The loop over the queued stalls makes at most one call for each stall it has budget for. -/
theorem length_evaluateStalls_le (spawnMax : Nat) (recovery : Bool) (input : TickInput)
    (budget k spawns : Nat) (o : Observer) :
    (evaluateStalls spawnMax recovery input budget k spawns o).calls.length ≤ budget := by
  induction budget generalizing k spawns o with
  | zero => exact Nat.le_refl 0
  | succ budget ih =>
    have rest (k spawns : Nat) (o : Observer) :
        (evaluateStalls spawnMax recovery input budget k spawns o).calls.length ≤ budget + 1 :=
      Nat.le_succ_of_le (ih k spawns o)
    unfold evaluateStalls
    split
    · exact Nat.zero_le _
    split
    · exact rest ..
    split
    · exact rest ..
    · dsimp only
      generalize (if input.didSpawn k then spawns + 1 else spawns) = spawned
      split
      · exact Nat.succ_le_succ (Nat.zero_le budget)
      · exact Nat.succ_le_succ (ih ..)

theorem length_drainPending_le (budgets : Budgets) (recovery : Bool) (input : TickInput)
    (o : Observer) : (drainPending budgets recovery input o).1.length ≤ budgets.stallEvalMax := by
  unfold drainPending
  dsimp only
  split <;> exact length_evaluateStalls_le ..

/-- A tick of the main loop fits the buffer of its outcomes: it has called `on_stall` at most
as often as its evaluation budget allows, each of these calls has queued at most one outcome
and each visit reports at most one. -/
theorem outcomes_fit_buffer (chainHash : Option (Bytes32 → Bytes → Bytes → Bytes32))
    (env : Nat → Answer) (mode : RecoveryMode) (debounce : Duration) (timeout : Option Duration)
    (settings : List Setting) (released : ∀ setting ∈ settings, setting.released = true)
    (calls : List Call) (observerNs : UInt64) :
    let r := (after chainHash env mode debounce timeout settings calls).recovery
    (stallsSince 0 calls ≤ recoveryStallEvalMaxPerTick →
      (tryReapInto chainHash env r observerNs).2.length ≤ recoveryReapOutcomeMaxPerTick) ∧
    (∀ pid origin crossNamespaceAgent generation,
      (onStall chainHash env r pid origin crossNamespaceAgent generation
        observerNs).2.pendingOutcomes.length ≤ r.pendingOutcomes.length + 1) ∧
    (∀ i pid entry, (visitOrphan chainHash env r i pid entry observerNs).1.length ≤ 1) ∧
    (∀ pid, (visitOutstanding chainHash env r pid observerNs).1.length ≤ 1) ∧
    ∀ recovery input o,
      (drainPending perTick recovery input o).1.length ≤ recoveryStallEvalMaxPerTick := by
  intro r
  have fresh := fresh_setUp mode debounce timeout settings
  have kept : Kept _ := @kept_after chainHash env mode debounce timeout settings calls
  obtain ⟨limit, pending⟩ := @pending_run chainHash env _ 0 (kept_setUp mode debounce timeout settings)
    (Nat.le_of_eq (congrArg List.length fresh.pendingOutcomes)) calls
  have budget : r.reapMax = recoveryReapMaxPerTick :=
    limit.trans (reapMax_setUp mode debounce timeout released)
  refine ⟨fun few => ?_, fun pid origin crossNamespaceAgent generation => ?_,
    fun i pid entry => ?_, fun pid => ?_, fun recovery input o => ?_⟩
  · have length := (@tryReapInto_aside chainHash env r observerNs).1
    have queued : r.pendingOutcomes.length ≤ recoveryStallEvalMaxPerTick :=
      Nat.le_trans pending few
    rw [budget] at length
    exact Nat.le_trans length (Nat.add_le_add_right queued _)
  · exact (kept.stalls pid origin crossNamespaceAgent generation observerNs).2.pending
  · exact (endOrphanVisit_writes ..).1
  · exact (visits_visitOutstanding ..).once
  · exact length_drainPending_le perTick recovery input o

/-- A stall whose child exits at once, and the tick behind it. -/
theorem outcomes_fit_buffer_prompt :
    let settings := [Setting.outstandingCapacity 1, .lastFiredCapacity 1 (by decide)]
    let calls : List Call := [.onStall 7 .kernelAttested false none 0]
    let r := (after none (fun _ => promptAnswer) trueCommand (.ofMillis 1) none settings
      calls).recovery
    let outcomes := (tryReapInto none (fun _ => promptAnswer) r 0).2
    (stallsSince 0 calls = 1 ∧ outcomes.length = 1) ∧
      outcomes.length ≤ recoveryReapOutcomeMaxPerTick :=
  ⟨by decide +kernel, (outcomes_fit_buffer none (fun _ => promptAnswer) trueCommand (.ofMillis 1)
    none _ (by decide +kernel) _ 0).1 (by decide +kernel)⟩

end Varta.Watch.Recovery
