import Varta.Watch.RecoverySteps

/-!
# Stalls as moves

A stall may find a child of its pid. One of another process is killed and becomes an orphan;
one of the same process that has finished is reaped. Then the stall may spawn a child.
-/
namespace Varta.Watch.Recovery

open Machine
open Utf8 (Str)
open Vlp (Bytes32)

section

variable {licence : Licence} {r r' : Recovery} {reported reported' : List RecoveryOutcome}
  {pid : UInt32} {entry : Outstanding}
  {chainHash : Option (Bytes32 → Bytes → Bytes → Bytes32)} {env : Nat → Answer}

theorem aside_recordRefused (r : Recovery) (pid : UInt32) (observerNs : UInt64) (reason : Str) :
    Aside r (recordRefusedAudit chainHash env r pid observerNs reason) := by
  unfold recordRefusedAudit
  split
  · exact .refl r
  · exact ⟨rfl, rfl⟩

/-! ### Reclaiming -/

/-- The licence allows the kill of the child for a reclaim. -/
structure Licence.Covers (licence : Licence) (r : Recovery) (entry : Outstanding) : Prop where
  late : entry.completedStatus ≠ none → licence.late
  silent : r.reapingOrphans.length ≥ r.orphanCapacity → licence.silent

/-- The outcome of a kill for a reclaim that is worth a report. -/
def reclaimReport : Except IoError KillForReclaim → List RecoveryOutcome
  | .ok (.killed child) => [.killed child]
  | _ => []

theorem killForReclaim_leads (wf : r.outstanding.Wf) (found : r.outstanding.get pid = some entry)
    (late : entry.killed = false → (r.world.answer env).kill = .ok () →
      entry.completedStatus ≠ none → licence.late)
    (report : reported' = reported ++ reclaimReport (entry.killForReclaim env r.world).1 ∨
      reported' = reported ∧
        (entry.killed = false → (r.world.answer env).kill = .ok () → licence.silent)) :
    Leads licence r reported
      (r.store pid (entry.killForReclaim env r.world).2.1 (entry.killForReclaim env r.world).2.2)
      reported' := by
  cases killed : entry.killed with
  | true =>
    rw [Outstanding.killForReclaim_killed killed] at report ⊢
    -- `already_killed` is not worth a report
    have same : reported' = reported := by
      rcases report with rfl | ⟨rfl, _⟩
      · exact List.append_nil reported
      · rfl
    subst same
    exact store_same_leads wf found (.refl _)
  | false =>
    rcases @Outstanding.killForReclaim_alive env entry killed r.world with
      ⟨ok, done⟩ | ⟨_, result, done, other⟩
    · rw [done] at report ⊢
      refine store_kill_leads wf found killed (late killed ok) ?_
      exact report.imp_right fun silent => ⟨silent.1, silent.2 killed ok⟩
    · rw [done] at report ⊢
      have nothing : reclaimReport result = [] := by
        unfold reclaimReport
        split
        next child => exact absurd rfl (other child)
        next => rfl
      have same : reported' = reported := by
        rcases report with rfl | ⟨rfl, _⟩
        · rw [nothing, List.append_nil]
        · rfl
      subst same
      exact store_same_leads wf found r.world.passes_tick

theorem orphan_leads (wf : r.outstanding.Wf) (found : r.outstanding.get pid = some entry)
    (space : r.reapingOrphans.length < r.orphanCapacity) :
    Leads licence r reported (r.orphan pid) reported := by
  have held : ((r.outstanding.remove pid).2.entries ++ (r.reapingOrphans ++ [(pid, entry)])).Perm
      (r.custody reported).held := by
    refine List.Perm.trans ?_ (held_remove wf found).symm
    rw [← List.append_assoc]
    exact List.perm_append_singleton ..
  unfold orphan
  dsimp only
  rw [wf.remove_eq found]
  refine leads_of_move (wf.remove found).2.1 (.single (.removed found)) (.keep held) rfl ?_
    (Nat.le_refl _)
  simp only [List.length_append, List.length_singleton]
  omega

theorem aside_orphan (r : Recovery) (pid : UInt32) : Aside r (r.orphan pid) := by
  unfold orphan
  dsimp only
  split
  · exact ⟨rfl, rfl⟩
  · exact ⟨rfl, rfl⟩

/-- Without room for an orphan the child is killed and stays where it is. -/
theorem refuseReclaim_leads (wf : r.outstanding.Wf) (found : r.outstanding.get pid = some entry)
    (late : entry.killed = false → (r.world.answer env).kill = .ok () →
      entry.completedStatus ≠ none → licence.late)
    (silent : entry.killed = false → (r.world.answer env).kill = .ok () → licence.silent)
    (observerNs : UInt64) :
    Leads licence r reported (refuseReclaim chainHash env r pid observerNs).2 reported ∧
      Aside r (refuseReclaim chainHash env r pid observerNs).2 := by
  have killed : Leads licence r reported _ reported :=
    killForReclaim_leads wf found late (.inr ⟨rfl, silent⟩)
  unfold refuseReclaim
  simp only [found]
  generalize entry.killForReclaim env r.world = result at killed
  obtain ⟨_, entry', w⟩ := result
  constructor
  · have counted : Leads licence (r.store pid entry' w) reported { r.store pid entry' w with
        refusedOutstandingCapacity := u64SaturatingAdd r.refusedOutstandingCapacity 1 } reported :=
      Idle.leads ⟨killed.wf, .refl, fun _ => rfl, rfl, .refl _, rfl⟩
    exact (killed.trans counted).trans (recordRefusedAudit_leads counted.wf pid observerNs _)
  · have aside := @aside_recordRefused chainHash env { r.store pid entry' w with
      refusedOutstandingCapacity := u64SaturatingAdd r.refusedOutstandingCapacity 1 } pid observerNs
      auditReasonOrphanReapCapacity
    exact ⟨aside.lastFired, aside.pendingOutcomes⟩

/-- The reports of a runner between two ticks: what was handed over and what is pending. -/
def reports (r : Recovery) (delivered : List RecoveryOutcome) : List RecoveryOutcome :=
  delivered ++ r.pendingOutcomes

variable {delivered : List RecoveryOutcome}

theorem Aside.reports_eq (aside : Aside r r') : r'.reports delivered = r.reports delivered := by
  rw [reports, aside.pendingOutcomes, reports]

/-- What the part of a stall before its own spawn does: the ledger stays, and the next tick
reports at most one outcome more. A refusal is not the report of a kill. -/
structure Clears (licence : Licence) (r : Recovery) (delivered : List RecoveryOutcome)
    (result : Option RecoveryOutcome × Recovery) : Prop where
  leads : Leads licence r (r.reports delivered) result.2 (result.2.reports delivered)
  lastFired : result.2.lastFired = r.lastFired
  pending : result.2.pendingOutcomes.length ≤ r.pendingOutcomes.length + 1
  answer : killedChildren result.1.toList = []

theorem Aside.clears (aside : Aside r r') {answer : Option RecoveryOutcome}
    (leads : Leads licence r (r.reports delivered) r' (r.reports delivered))
    (other : killedChildren answer.toList = []) : Clears licence r delivered (answer, r') where
  leads := aside.reports_eq ▸ leads
  lastFired := aside.lastFired
  pending := by
    rw [aside.pendingOutcomes]
    exact Nat.le_succ _
  answer := other

/-- The outcome is queued for the next tick. -/
theorem Aside.queues (aside : Aside r r') {outcome : RecoveryOutcome}
    (leads : Leads licence r (r.reports delivered) r' (r.reports delivered ++ [outcome])) :
    Clears licence r delivered
      (none, { r' with pendingOutcomes := r'.pendingOutcomes ++ [outcome] }) where
  leads := by
    have queued : r.reports delivered ++ [outcome] =
        delivered ++ (r'.pendingOutcomes ++ [outcome]) := by
      rw [← aside.reports_eq, reports, List.append_assoc]
    rw [queued] at leads
    exact leads.trans (Idle.leads ⟨leads.wf, .refl, fun _ => rfl, rfl, .refl _, rfl⟩)
  lastFired := aside.lastFired
  pending := by simp [aside.pendingOutcomes]
  answer := rfl

theorem reclaimRecycledOutstanding_clears (wf : r.outstanding.Wf)
    (found : r.outstanding.get pid = some entry)
    (covers : entry.killed = false → (r.world.answer env).kill = .ok () → licence.Covers r entry)
    (observerNs : UInt64) :
    Clears licence r delivered (reclaimRecycledOutstanding chainHash env r pid observerNs) := by
  unfold reclaimRecycledOutstanding
  split
  next full =>
    obtain ⟨refused, aside⟩ := @refuseReclaim_leads licence r (r.reports delivered) pid entry
      chainHash env wf found (fun alive ok => (covers alive ok).late)
      (fun alive ok => (covers alive ok).silent full) observerNs
    exact aside.clears refused rfl
  next space =>
    have killed : Leads licence r (r.reports delivered) _ _ :=
      killForReclaim_leads wf found (fun alive ok => (covers alive ok).late) (.inl rfl)
    obtain ⟨_, get⟩ := wf.put found (entry.killForReclaim env r.world).2.1
    simp only [found]
    generalize entry.killForReclaim env r.world = result at killed get
    obtain ⟨answer, entry', w⟩ := result
    have found' : (r.store pid entry' w).outstanding.get pid = some entry' := by
      rw [store, get pid, if_pos rfl]
    have moved : Leads licence r (r.reports delivered) ((r.store pid entry' w).orphan pid)
        (r.reports delivered ++ reclaimReport answer) :=
      killed.trans (orphan_leads killed.wf found' (Nat.not_le.mp space))
    have stored : Aside r (r.store pid entry' w) := ⟨rfl, rfl⟩
    have aside := stored.trans ((r.store pid entry' w).aside_orphan pid)
    cases answer with
    -- the kill failed: the entry stays, and the stall is refused
    | error error =>
      simp only [reclaimReport, List.append_nil] at killed
      exact (stored.trans (aside_recordRefused ..)).clears
        (killed.trans (recordRefusedAudit_leads killed.wf pid observerNs _)) rfl
    | ok killOutcome =>
      cases killOutcome with
      | killed child => exact aside.queues moved
      | alreadyExited | alreadyKilled =>
        simp only [reclaimReport, List.append_nil] at moved
        exact aside.clears moved rfl

/-- An earlier child of the pid is reclaimed, reaped or in the way. -/
theorem clearOutstanding_clears {generation : Option Nat} (wf : r.outstanding.Wf)
    (covers : ∀ entry, r.outstanding.get pid = some entry →
      sameLineage entry.generation generation = false → entry.killed = false →
      (r.world.answer env).kill = .ok () → licence.Covers r entry)
    (observerNs : UInt64) :
    Clears licence r delivered (clearOutstanding chainHash env r pid generation observerNs) := by
  unfold clearOutstanding
  split
  next present =>
    obtain ⟨entry, found⟩ := wf.contains_iff.mp present
    simp only [found, Option.bind_some]
    cases lineage : sameLineage entry.generation generation with
    -- only a child of another process is reclaimed
    | false =>
      exact reclaimRecycledOutstanding_clears wf found (covers entry found lineage) observerNs
    | true =>
      have reaped := @reapFinishedChild_leads licence r (r.reports delivered) chainHash env wf pid
        observerNs
      have aside := (@touches_reapFinishedChild chainHash env r pid observerNs).toAside
      simp only [Bool.not_true, Bool.false_eq_true, if_false]
      generalize reapFinishedChild chainHash env r pid observerNs = result at reaped aside
      obtain ⟨outcome, r'⟩ := result
      cases outcome with
      | some outcome => exact aside.queues reaped
      | none =>
        rw [Option.toList_none, List.append_nil] at reaped
        exact (aside.trans (aside_recordRefused ..)).clears
          (reaped.trans (recordRefusedAudit_leads reaped.wf pid observerNs _)) rfl
  · exact (Aside.refl r).clears (.refl wf) rfl

/-! ### Spawning -/

theorem Leads.fires_eq (leads : Leads licence r reported r' reported') (barren : ¬licence.spawn) :
    r'.world.fires = r.world.fires :=
  fires_moves barren leads.moves

theorem passes_takeCaptureHandles (w : World) (pipes captureOn : Bool) :
    w.Passes (takeCaptureHandles env w pipes captureOn).2 := by
  unfold takeCaptureHandles
  split
  · exact .refl w
  · split
    · exact .refl w
    · dsimp only
      split
      · exact w.passes_tick.trans w.tick.passes_tick
      · exact w.passes_tick.trans w.tick.passes_tick

/-- In `r'` a slot of the table of `r` is reserved for `pid`. -/
structure Reserving (r : Recovery) (pid : UInt32) (reservation : Reservation) (r' : Recovery) :
    Prop where
  wf : r.outstanding.Wf
  reserved : r.outstanding.tryReserve pid = (.ok reservation, r'.outstanding)
  reapingOrphans : r'.reapingOrphans = r.reapingOrphans
  passes : r.world.Passes r'.world
  fixed : r'.fixed = r.fixed

variable {reservation : Reservation}

theorem Reserving.released (reserving : Reserving r pid reservation r') :
    Idle r { r' with outstanding := r'.outstanding.releaseReservation reservation } := by
  obtain ⟨wf, get⟩ := reserving.wf.same (OutstandingTable.same_releaseReservation reserving.reserved)
  exact ⟨wf, .tail (.single (.reserved reserving.reserved)) (.released ..), get,
    reserving.reapingOrphans, reserving.passes, reserving.fixed⟩

/-- What a stall does to the ledger: nothing, or it has spawned a child and its fire is in the
ledger, in a slot that may be taken for it. -/
inductive Ledger (fires : List Firing) (t : LastFiredTable) (debounce : Duration)
    (slot : LastFiredSlot) (r' : Recovery) : Prop where
  | kept (none_new : r'.world.fires = fires) (lastFired : r'.lastFired = t)
  | fired (f : Firing) (at_ : slot = { f with })
      (new : r'.world.fires = f :: fires) (reservation : LastFiredReservation)
      (reserved : LastFiredTable.Reserved t debounce slot reservation)
      (lastFired : r'.lastFired = (t.commitReserved reservation).2)

/-- What a stall queues and answers. -/
structure Answers (r : Recovery) (result : RecoveryOutcome × Recovery) : Prop where
  pending : result.2.pendingOutcomes.length ≤ r.pendingOutcomes.length + 1
  answer : killedChildren [result.1] = []

/-- What the part of a stall behind all checks does. -/
structure Attempt (licence : Licence) (r : Recovery) (slot : LastFiredSlot)
    (result : RecoveryOutcome × Recovery) : Prop where
  leads : ∀ reported, Leads licence r reported result.2 reported
  pendingOutcomes : result.2.pendingOutcomes = r.pendingOutcomes
  ledger : Ledger r.world.fires r.lastFired r.debounce slot result.2
  answer : killedChildren [result.1] = []

variable {result : RecoveryOutcome × Recovery}

theorem Attempt.with_reports {slot : LastFiredSlot} (attempt : Attempt licence r slot result) :
    Leads licence r (r.reports delivered) result.2 (result.2.reports delivered) := by
  have same : result.2.reports delivered = r.reports delivered := by
    rw [reports, attempt.pendingOutcomes, reports]
  rw [same]
  exact attempt.leads _

theorem Attempt.answers {slot : LastFiredSlot} (attempt : Attempt licence r slot result) :
    Answers r result :=
  ⟨attempt.pendingOutcomes ▸ Nat.le_succ _, attempt.answer⟩

/-- A stall that is turned down leaves all but its counters as it was. -/
structure Declined (licence : Licence) (r : Recovery) (result : RecoveryOutcome × Recovery) :
    Prop where
  leads : ∀ reported, Leads licence r reported result.2 reported
  aside : Aside r result.2
  none_new : result.2.world.fires = r.world.fires
  answer : killedChildren [result.1] = []

theorem Declined.attempt (declined : Declined licence r result) (slot : LastFiredSlot) :
    Attempt licence r slot result :=
  ⟨declined.leads, declined.aside.pendingOutcomes,
    .kept declined.none_new declined.aside.lastFired, declined.answer⟩

theorem Idle.refused (idle : Idle r r') (aside : Aside r r') (observerNs : UInt64) (reason : Str)
    {answer : RecoveryOutcome} (other : killedChildren [answer] = []) :
    Declined licence r (answer, recordRefusedAudit chainHash env r' pid observerNs reason) := by
  have leads (licence : Licence) (reported : List RecoveryOutcome) : Leads licence r reported
      (recordRefusedAudit chainHash env r' pid observerNs reason) reported :=
    idle.leads.trans (recordRefusedAudit_leads idle.wf pid observerNs reason)
  constructor
  · exact leads licence
  · exact aside.trans (aside_recordRefused r' pid observerNs reason)
  · exact (leads .bare []).fires_eq id
  · exact other

/-- A failed spawn gives the slot back. -/
theorem spawnFailed_attempt (reserving : Reserving r pid reservation r') (aside : Aside r r')
    (slot : LastFiredSlot) (observerNs : UInt64) (error : IoError) :
    Attempt licence r slot (spawnFailed chainHash env r' pid observerNs reservation error) :=
  (reserving.released.refused ⟨aside.lastFired, aside.pendingOutcomes⟩ observerNs _ rfl).attempt slot

theorem emitSpawnAudit_leads (wf : r.outstanding.Wf) (wallclockMs observerNs : UInt64)
    (child : Child) (program : Str) (templateLen : UInt32) :
    Leads licence r reported
        (emitSpawnAudit chainHash r wallclockMs observerNs pid child program templateLen)
        reported ∧
      Aside r (emitSpawnAudit chainHash r wallclockMs observerNs pid child program templateLen) := by
  unfold emitSpawnAudit
  split
  · exact ⟨.refl wf, .refl r⟩
  next sink attached =>
    refine ⟨leads_of_move wf .refl ?_ (by simp [fixed, audited, attached]) (Nat.le_max_left ..)
      (Nat.le_refl _), rfl, rfl⟩
    exact .note _ (.inl ⟨_, rfl⟩)

/-- A spawn that succeeds takes the slot. -/
theorem commitSpawn_leads (reserving : Reserving r pid reservation r') (licensed : licence.spawn)
    (fired : Firing) (own : fired.pid = pid) (serial : fired.child.serial = r.world.fires.length)
    (pipes : Bool) (wallclockMs : UInt64) (lastFiredReservation : LastFiredReservation) :
    let spawned := commitSpawn env r' fired pipes wallclockMs reservation lastFiredReservation
    Leads licence r reported spawned reported ∧
      spawned.world.fires = fired :: r.world.fires := by
  subst own
  have passes := @passes_takeCaptureHandles env (r'.world.tick.note (.spawned fired)) pipes
    (decide (r'.captureCap > 0))
  unfold commitSpawn
  generalize takeCaptureHandles env (r'.world.tick.note (.spawned fired)) pipes
    (decide (r'.captureCap > 0)) = result at passes
  obtain ⟨capture, w⟩ := result
  have trace : w.trace = .spawned fired :: r.world.trace := by
    rw [passes.trace, ← reserving.passes.trace]
    rfl
  constructor
  · obtain ⟨absent, wf, get⟩ := reserving.wf.commitReserved reserving.reserved _
    refine leads_of_move wf (.tail (.single (.reserved reserving.reserved)) (.committed ..)) ?_
      reserving.fixed ?_ ?_
    · simp only [custody, trace, reserving.reapingOrphans]
      exact .spawn licensed fired _ serial rfl rfl rfl
        ((OutstandingTable.entries_insert absent get).append_right _)
    · rw [reserving.reapingOrphans]
      exact Nat.le_max_left ..
    · exact reserving.passes.asked.trans ((Nat.le_succ _).trans passes.asked)
  · simp only [World.fires, trace, List.filterMap_cons, Effect.fired?]

theorem spawnExecChild_attempt (reserving : Reserving r pid reservation r') (aside : Aside r r')
    (licensed : licence.spawn) (generation : Option Nat) (wallclockMs : UInt64) (now : Nat)
    (observerNs : UInt64) {lastFiredReservation : LastFiredReservation}
    (reserved : LastFiredTable.Reserved r.lastFired r.debounce ⟨pid, generation, now⟩
      lastFiredReservation) :
    Attempt licence r ⟨pid, generation, now⟩ (spawnExecChild chainHash env r' pid generation
      wallclockMs now observerNs reservation lastFiredReservation) := by
  unfold spawnExecChild
  split
  next e _ => exact spawnFailed_attempt reserving aside _ observerNs e
  next program args cmd _ _ =>
    split
    next e _ =>
      have later : Reserving r pid reservation { r' with world := r'.world.tick } :=
        { reserving with passes := reserving.passes.trans r'.world.passes_tick }
      exact spawnFailed_attempt later ⟨aside.lastFired, aside.pendingOutcomes⟩ _ observerNs e
    next forked _ =>
      have serial : r'.world.fires.length = r.world.fires.length := by
        rw [World.fires, reserving.passes.trace, World.fires]
      -- the child is in the table before its record is written
      have committed (reported : List RecoveryOutcome) :=
        @commitSpawn_leads licence r r' reported pid env reservation reserving licensed
          ⟨pid, generation, now, ⟨r'.world.fires.length, forked.id⟩, cmd⟩ rfl serial forked.pipes
          wallclockMs lastFiredReservation
      have emitted (licence : Licence) (reported : List RecoveryOutcome) :=
        @emitSpawnAudit_leads licence _ reported pid chainHash (committed []).1.wf wallclockMs
          observerNs ⟨r'.world.fires.length, forked.id⟩ program (templateLen (cmd.program :: cmd.args))
      obtain ⟨barren, aside'⟩ := emitted .bare []
      constructor
      · intro reported
        exact (committed reported).1.trans (emitted licence reported).1
      · exact aside'.pendingOutcomes.trans aside.pendingOutcomes
      · refine .fired _ rfl ((barren.fires_eq id).trans (committed []).2) lastFiredReservation
          reserved ?_
        rw [← aside.lastFired]
        exact aside'.lastFired
      · rfl

/-- With the ledger in order, a stall that is past its checks spawns a child or leaves all as it
was. -/
theorem reserveAndSpawn_attempt (wf : r.outstanding.Wf) (ordered : r.lastFired.Wf)
    (licensed : licence.spawn) (pid : UInt32) (generation : Option Nat) (now : Nat)
    (observerNs : UInt64) :
    Attempt licence r ⟨pid, generation, now⟩
      (reserveAndSpawn chainHash env r pid generation now observerNs) := by
  unfold reserveAndSpawn
  cases reserved : r.outstanding.tryReserve pid with
  | mk result outstanding =>
    cases result with
    | error e =>
      obtain ⟨wf', get⟩ := wf.same (OutstandingTable.same_of_refused reserved)
      apply Declined.attempt
      apply Idle.refused
      · exact ⟨wf', .single (.refused reserved), get, rfl, .refl _, rfl⟩
      · exact ⟨rfl, rfl⟩
      · rfl
    | ok reservation =>
      -- with a ledger in order `try_reserve` has no violation to count
      obtain ⟨same, entitled⟩ := LastFiredTable.tryReserve_cases ordered pid generation now r.debounce
      cases taken : r.lastFired.tryReserve pid generation now r.debounce with
      | mk slot lastFired =>
        rw [taken] at same entitled
        obtain rfl : lastFired = r.lastFired := same
        cases slot with
        | none =>
          have reserving : Reserving r pid reservation { r with outstanding := outstanding } :=
            ⟨wf, reserved, rfl, .refl _, rfl⟩
          obtain ⟨wf', issued, get, _⟩ := reserving.released
          apply Declined.attempt
          apply Idle.refused
          · exact ⟨wf', issued, get, rfl, .refl _, rfl⟩
          · exact ⟨rfl, rfl⟩
          · rfl
        | some lastFiredReservation =>
          have reserving : Reserving r pid reservation
              { r with outstanding := outstanding, world := r.world.tick } :=
            ⟨wf, reserved, rfl, r.world.passes_tick, rfl⟩
          exact spawnExecChild_attempt reserving ⟨rfl, rfl⟩ licensed generation _ now observerNs
            (entitled lastFiredReservation rfl)

/-! ### Stalls -/

theorem debounces_snd (r : Recovery) (pid : UInt32) (generation : Option Nat) (now : Nat) :
    ∃ resets, (r.debounces pid generation now).2 =
      { r.lastFired.pruneExpired now (r.debounce.saturatingMul 10) with recycleResets := resets } := by
  obtain ⟨resets, looked⟩ :=
    (r.lastFired.pruneExpired now (r.debounce.saturatingMul 10)).get_snd pid generation
  refine ⟨resets, ?_⟩
  rw [← looked]
  unfold debounces
  dsimp only
  generalize (r.lastFired.pruneExpired now (r.debounce.saturatingMul 10)).get pid generation = found
  obtain ⟨prev, lastFired⟩ := found
  cases prev <;> rfl

theorem wf_debounces (ordered : r.lastFired.Wf) (pid : UInt32) (generation : Option Nat)
    (now : Nat) : (r.debounces pid generation now).2.Wf := by
  obtain ⟨resets, looked⟩ := r.debounces_snd pid generation now
  have pruned := ordered.pruneExpired now (r.debounce.saturatingMul 10)
  rw [looked]
  exact { pruned with }

/-- A stall that the ledger does not hold back. -/
theorem clearAndSpawn_spec {generation : Option Nat} (wf : r.outstanding.Wf)
    (ordered : r.lastFired.Wf) (licensed : licence.spawn)
    (covers : ∀ entry, r.outstanding.get pid = some entry →
      sameLineage entry.generation generation = false → entry.killed = false →
      (r.world.answer env).kill = .ok () → licence.Covers r entry)
    (now : Nat) (observerNs : UInt64) :
    let result := clearAndSpawn chainHash env r pid generation now observerNs
    Leads licence r (r.reports delivered) result.2 (result.2.reports delivered) ∧
      Ledger r.world.fires r.lastFired r.debounce ⟨pid, generation, now⟩ result.2 ∧
      Answers r result := by
  have cleared := @clearOutstanding_clears licence r pid chainHash env delivered generation wf covers
    observerNs
  -- the same moves once more, without a licence to spawn
  have barren := @clearOutstanding_clears ⟨False, True, True⟩ r pid chainHash env delivered
    generation wf (fun _ _ _ _ _ => ⟨fun _ => trivial, fun _ => trivial⟩) observerNs
  have fires := barren.leads.fires_eq id
  unfold clearAndSpawn
  generalize clearOutstanding chainHash env r pid generation observerNs = result at cleared fires
  obtain ⟨leads, lastFired, pending, answer⟩ := cleared
  obtain ⟨refusal, r'⟩ := result
  dsimp only at leads lastFired pending fires
  cases refusal with
  | some refusal => exact ⟨leads, .kept fires lastFired, pending, answer⟩
  | none =>
    have attempt := @reserveAndSpawn_attempt licence r' chainHash env leads.wf
      (lastFired ▸ ordered) licensed pid generation now observerNs
    have ledger := attempt.ledger
    rw [fires, lastFired, leads.debounce] at ledger
    exact ⟨leads.trans attempt.with_reports, ledger, attempt.pendingOutcomes ▸ pending,
      attempt.answer⟩

/-- The child of another process that a stall kills: the stall is not held back, the child has
not been killed before, and the kill is answered with success. -/
def reclaimKill (env : Nat → Answer) (r : Recovery) (pid : UInt32) (generation : Option Nat) :
    Option Outstanding :=
  if (r.debounces pid generation (r.world.answer env).instant).1 then none
  else (r.outstanding.get pid).filter fun entry =>
    !sameLineage entry.generation generation && !entry.killed &&
      decide ((env (r.world.asked + 1)).kill = .ok ())

theorem mem_reclaimKill {generation : Option Nat}
    (free : ¬(r.debounces pid generation (r.world.answer env).instant).1 = true)
    (found : r.outstanding.get pid = some entry)
    (lineage : sameLineage entry.generation generation = false) (alive : entry.killed = false)
    (answer : (env (r.world.asked + 1)).kill = .ok ()) :
    entry ∈ r.reclaimKill env pid generation := by
  rw [reclaimKill, if_neg free, found]
  simp [lineage, alive, answer]

theorem fire_spec {generation : Option Nat} (wf : r.outstanding.Wf) (ordered : r.lastFired.Wf)
    (licensed : licence.spawn)
    (covers : ∀ entry ∈ r.reclaimKill env pid generation, licence.Covers r entry)
    (observerNs : UInt64) :
    let now := (r.world.answer env).instant
    let looked := r.debounces pid generation now
    let result := fire chainHash env r pid generation observerNs
    Leads licence r (r.reports delivered) result.2 (result.2.reports delivered) ∧
      (Ledger r.world.fires looked.2 r.debounce ⟨pid, generation, now⟩ result.2 ∧
        (looked.1 = true → result.2.world.fires = r.world.fires)) ∧ Answers r result := by
  intro now looked
  have ticked : Leads licence r (r.reports delivered)
      { r with lastFired := looked.2, world := r.world.tick } (r.reports delivered) :=
    Idle.leads ⟨wf, .refl, fun _ => rfl, rfl, r.world.passes_tick, rfl⟩
  unfold fire
  by_cases held : looked.1 = true
  -- a stall that is held back has pruned the ledger all the same
  · have idle : Idle { r with lastFired := looked.2, world := r.world.tick }
        { r with lastFired := looked.2, world := r.world.tick } :=
      ⟨wf, .refl, fun _ => rfl, rfl, .refl _, rfl⟩
    have declined := @Idle.refused licence _ _ pid chainHash env idle (.refl _) observerNs
      auditReasonDebounced .debounced rfl
    have attempt := declined.attempt ⟨pid, generation, now⟩
    obtain ⟨pending, answer⟩ := attempt.answers
    rw [if_pos held]
    exact ⟨ticked.trans attempt.with_reports, ⟨attempt.ledger, fun _ => declined.none_new⟩,
      pending, answer⟩
  · obtain ⟨spawned, ledger, pending, answer⟩ := @clearAndSpawn_spec licence
      { r with lastFired := looked.2, world := r.world.tick } pid chainHash env delivered generation
      wf (wf_debounces ordered pid generation now) licensed
      (fun entry found lineage alive answer =>
        { covers entry (mem_reclaimKill held found lineage alive answer) with }) now observerNs
    rw [if_neg held]
    exact ⟨ticked.trans spawned, ⟨ledger, fun yes => absurd yes held⟩, pending, answer⟩

/-- Both gates let the stall through. -/
def passesGates (r : Recovery) (origin : BeatOrigin) (crossNamespaceAgent : Bool) : Bool :=
  !(crossNamespaceAgent && !r.allowCrossNamespace) &&
    match origin with
    | .kernelAttested | .operatorAttestedTransport => true
    | .networkUnverified | .socketModeOnly => false

section Gates

variable {origin : BeatOrigin} {crossNamespaceAgent : Bool} (generation : Option Nat)
  (observerNs : UInt64)

theorem onStall_of_passes (passes : r.passesGates origin crossNamespaceAgent = true) :
    onStall chainHash env r pid origin crossNamespaceAgent generation observerNs =
      fire chainHash env r pid generation observerNs := by
  obtain ⟨inside, trusted⟩ := Bool.and_eq_true_iff.mp passes
  unfold onStall
  rw [if_neg (by simpa only [Bool.not_eq_true, Bool.not_eq_true'] using inside)]
  cases origin <;> simp at trusted <;> rfl

/-- A stall that a gate refuses is counted and recorded. -/
theorem onStall_of_refused (wf : r.outstanding.Wf)
    (refused : r.passesGates origin crossNamespaceAgent = false) :
    Declined licence r
      (onStall chainHash env r pid origin crossNamespaceAgent generation observerNs) := by
  simp only [passesGates, Bool.and_eq_false_iff] at refused
  unfold onStall
  split
  · apply Idle.refused
    · exact ⟨wf, .refl, fun _ => rfl, rfl, .refl _, rfl⟩
    · exact ⟨rfl, rfl⟩
    · rfl
  next inside =>
    have distrusted := refused.resolve_left (by simpa using inside)
    cases origin with
    | networkUnverified | socketModeOnly =>
      apply Idle.refused
      · exact ⟨wf, .refl, fun _ => rfl, rfl, .refl _, rfl⟩
      · exact ⟨rfl, rfl⟩
      · rfl
    | kernelAttested | operatorAttestedTransport => simp at distrusted

end Gates

/-- The child that a stall kills, if its gates let it get there. -/
def stallKill (env : Nat → Answer) (r : Recovery) (pid : UInt32) (origin : BeatOrigin)
    (crossNamespaceAgent : Bool) (generation : Option Nat) : Option Outstanding :=
  if r.passesGates origin crossNamespaceAgent then r.reclaimKill env pid generation else none

/-- What a stall does to the ledger: nothing, or it prunes it, looks up its pid and, if it is
not held back, may enter a fire. -/
inductive Stalled (env : Nat → Answer) (r : Recovery) (pid : UInt32) (generation : Option Nat)
    (r' : Recovery) : Prop where
  | refused (none_new : r'.world.fires = r.world.fires) (lastFired : r'.lastFired = r.lastFired)
  | looked
      (ledger : Ledger r.world.fires (r.debounces pid generation (r.world.answer env).instant).2
        r.debounce ⟨pid, generation, (r.world.answer env).instant⟩ r')
      (held : (r.debounces pid generation (r.world.answer env).instant).1 = true →
        r'.world.fires = r.world.fires)

theorem Stalled.ordered {generation : Option Nat} (stalled : Stalled env r pid generation r')
    (ordered : r.lastFired.Wf) : r'.lastFired.Wf := by
  have looked_wf := wf_debounces ordered pid generation (r.world.answer env).instant
  cases stalled with
  | refused none_new lastFired => rwa [lastFired]
  | looked ledger held =>
    cases ledger with
    | kept none_new lastFired => rwa [lastFired]
    | fired f at_ new reservation reserved lastFired =>
      rw [lastFired]
      exact looked_wf.commitReserved reserved

theorem onStall_spec {origin : BeatOrigin} {crossNamespaceAgent : Bool} {generation : Option Nat}
    (wf : r.outstanding.Wf) (ordered : r.lastFired.Wf) (licensed : licence.spawn)
    (covers : ∀ entry ∈ r.stallKill env pid origin crossNamespaceAgent generation,
      licence.Covers r entry)
    (observerNs : UInt64) :
    let result := onStall chainHash env r pid origin crossNamespaceAgent generation observerNs
    Leads licence r (r.reports delivered) result.2 (result.2.reports delivered) ∧
      Stalled env r pid generation result.2 ∧ Answers r result := by
  unfold stallKill at covers
  cases passes : r.passesGates origin crossNamespaceAgent with
  | true =>
    rw [if_pos passes] at covers
    rw [onStall_of_passes generation observerNs passes]
    obtain ⟨fired, ⟨ledger, held⟩, answers⟩ := @fire_spec licence r pid chainHash env delivered
      generation wf ordered licensed covers observerNs
    exact ⟨fired, .looked ledger held, answers⟩
  | false =>
    have declined := @onStall_of_refused licence r pid chainHash env origin crossNamespaceAgent
      generation observerNs wf passes
    have attempt := declined.attempt ⟨pid, generation, 0⟩
    exact ⟨attempt.with_reports, .refused declined.none_new declined.aside.lastFired,
      attempt.answers⟩

end

end Varta.Watch.Recovery
