import Varta.Lib.Rotation
import Varta.Watch.Recovery

/-!
# What reaping writes

A visit of a child or of an orphan writes its table, the audit log and the world. It does not
fire, and queues nothing for the next tick.
-/
namespace Varta.Watch.Recovery

open Vlp (Bytes32)
open Audit (CompleteOutcome)

def audited (r : Recovery) : Bool := r.auditSink.isSome

variable {chainHash : Option (Bytes32 → Bytes → Bytes → Bytes32)} {env : Nat → Answer}
  {r r' r'' : Recovery}

/-! ### Records -/

theorem emitCompleteAudit_eq (r : Recovery) (agentPid : UInt32) (entry : Outstanding)
    (outcome : CompleteOutcome) (status : Option ExitStatus) (observerNs : UInt64) :
    ∃ record sink w, emitCompleteAudit chainHash env r agentPid entry outcome status observerNs =
        { r with auditSink := sink, world := w } ∧ record.outcome = outcome ∧
      sink.isSome = r.audited ∧ r.world.asked ≤ w.asked ∧
      w.trace = if r.audited then .recordComplete entry.child record :: r.world.trace
        else r.world.trace := by
  -- the record that a sink gets
  let record := completeRecord env r.world.tick agentPid entry outcome status
    (recoveryDurationNs env r.world entry.spawnedAt).1 observerNs
  unfold emitCompleteAudit
  split
  next absent =>
    refine ⟨record, r.auditSink, r.world, rfl, rfl, rfl, Nat.le_refl _, ?_⟩
    simp [audited, absent]
  next sink attached =>
    refine ⟨record, _, _, rfl, rfl, by simp [audited, attached], Nat.le_add_right _ 2, ?_⟩
    simp only [audited, attached, Option.isSome_some, if_true]
    rfl

theorem complete_writes (r : Recovery) (pid : UInt32) (entry : Outstanding) (status : ExitStatus)
    (observerNs : UInt64) :
    ∃ sink w, (complete chainHash env r pid entry status observerNs).2 =
      { r with auditSink := sink, world := w } := by
  obtain ⟨_, sink, w, emitted, _⟩ := @emitCompleteAudit_eq chainHash env
    { r with world := (recoveryDurationNs env r.world entry.spawnedAt).2 } pid entry
    (if entry.killed then .killed else .reaped) (some status) observerNs
  refine ⟨sink, w.note (.dropped pid entry.child), ?_⟩
  simp only [complete, emitted, dropEntry]

theorem fail_writes (r : Recovery) (pid : UInt32) (entry : Outstanding) (error : IoError)
    (observerNs : UInt64) :
    ∃ sink w, (fail chainHash env r pid entry error observerNs).2 =
      { r with auditSink := sink, world := w } := by
  obtain ⟨_, sink, w, emitted, _⟩ := @emitCompleteAudit_eq chainHash env r pid entry .reapFailed
    none observerNs
  refine ⟨sink, w.note (.dropped pid entry.child), ?_⟩
  simp only [fail, emitted, dropEntry]

/-- The end of a visit takes the orphan out and leaves the cursor, or the other way round. It
reports at most one outcome. -/
theorem endOrphanVisit_writes (r : Recovery) (i : Nat) (pid : UInt32) (entry : Outstanding)
    (terminal : Outstanding.Visit) (observerNs : UInt64) :
    let ended := endOrphanVisit chainHash env r i pid entry terminal observerNs
    ended.1.length ≤ 1 ∧ ∃ sink w,
      ended.2 = { r with
        orphanReapCursor := r.orphanReapCursor + 1, auditSink := sink, world := w } ∨
      ended.2 = { r with
        reapingOrphans := Lists.swapRemove r.reapingOrphans i, auditSink := sink, world := w } := by
  cases terminal with
  | pending => exact ⟨Nat.zero_le 1, r.auditSink, r.world, Or.inl rfl⟩
  | complete =>
    simp only [endOrphanVisit]
    cases entry.completedStatus with
    | none =>
      exact ⟨Nat.zero_le 1, r.auditSink, r.world.note (.dropped pid entry.child), Or.inr rfl⟩
    | some status =>
      obtain ⟨sink, w, written⟩ := @complete_writes chainHash env
        { r with reapingOrphans := Lists.swapRemove r.reapingOrphans i } pid entry status observerNs
      exact ⟨Nat.le_refl 1, sink, w, Or.inr written⟩
  | reapFailed error =>
    obtain ⟨sink, w, written⟩ := @fail_writes chainHash env
      { r with reapingOrphans := Lists.swapRemove r.reapingOrphans i } pid entry error observerNs
    exact ⟨Nat.le_refl 1, sink, w, Or.inr written⟩

/-- A visit at `i` leaves the list as long as it is and moves the cursor on, or takes one orphan
out and leaves the cursor there. It touches nothing else but the audit log. -/
theorem visitOrphan_writes {i : Nat} (pid : UInt32) (entry : Outstanding) (observerNs : UInt64)
    (inside : i < r.reapingOrphans.length) :
    let visited := visitOrphan chainHash env r i pid entry observerNs
    visited.1.length ≤ 1 ∧ ∃ orphans cursor sink w,
      visited.2 = { r with
        reapingOrphans := orphans, orphanReapCursor := cursor, auditSink := sink, world := w } ∧
      (orphans.length = r.reapingOrphans.length ∧ cursor = r.orphanReapCursor + 1 ∨
        orphans.length = r.reapingOrphans.length - 1 ∧ cursor = r.orphanReapCursor) := by
  unfold visitOrphan
  generalize entry.visit env r.captureCap r.world = visited
  obtain ⟨terminal, entry', w⟩ := visited
  have length : (r.storeOrphan i pid entry' w).reapingOrphans.length = r.reapingOrphans.length :=
    List.length_set ..
  obtain ⟨once, sink, w', written | written⟩ := @endOrphanVisit_writes chainHash env
    (r.storeOrphan i pid entry' w) i pid entry' terminal observerNs
  · exact ⟨once, _, _, sink, w', written, Or.inl ⟨length, rfl⟩⟩
  · refine ⟨once, _, _, sink, w', written, Or.inr ⟨?_, rfl⟩⟩
    rw [Lists.length_swapRemove (length ▸ inside), length]

/-- Run lemma: a call touches nothing but the orphans, their cursor and the audit log, and
reports at most one outcome a visit. -/
theorem drainOrphanReaps_writes (r : Recovery) (observerNs : UInt64) (visits : Nat)
    (outcomes : List RecoveryOutcome) :
    let drained := drainOrphanReaps chainHash env observerNs visits r outcomes
    drained.2.length ≤ outcomes.length + visits ∧ ∃ orphans cursor sink w,
      drained.1 = { r with
        reapingOrphans := orphans, orphanReapCursor := cursor, auditSink := sink, world := w } := by
  induction visits generalizing r outcomes with
  | zero => exact ⟨Nat.le_refl _, r.reapingOrphans, r.orphanReapCursor, r.auditSink, r.world, rfl⟩
  | succ visits ih =>
    unfold drainOrphanReaps
    dsimp only
    generalize (if r.orphanReapCursor ≥ r.reapingOrphans.length then 0
      else r.orphanReapCursor) = i
    cases found : r.reapingOrphans[i]? with
    | none =>
      exact ⟨Nat.le_add_right .., r.reapingOrphans, r.orphanReapCursor, r.auditSink, r.world, rfl⟩
    | some orphan =>
      obtain ⟨pid, entry⟩ := orphan
      obtain ⟨once, orphans, cursor, sink, w, written, -⟩ := @visitOrphan_writes chainHash env
        { r with orphanReapCursor := i } i pid entry observerNs
        (List.getElem?_eq_some_iff.mp found).1
      dsimp only
      generalize visitOrphan chainHash env { r with orphanReapCursor := i } i pid entry observerNs
        = visited at once written
      obtain ⟨length, orphans', cursor', sink', w', later⟩ := ih visited.2 (outcomes ++ visited.1)
      rw [List.length_append] at length
      refine ⟨Nat.le_trans length (by omega), orphans', cursor', sink', w', ?_⟩
      rw [later, written]

/-! ### Visits -/

/-- One visit takes out the visited pid, or nothing. -/
structure Unlists (pid : UInt32) (r r' : Recovery) : Prop where
  iterPids : r'.outstanding.iterPids = r.outstanding.iterPids ∨
    r'.outstanding.iterPids = r.outstanding.iterPids.filter (· ≠ pid)
  cursor : r'.reapCursor = r.reapCursor
  reapMax : r'.reapMax = r.reapMax

/-- What reaping leaves alone. -/
structure Aside (r r' : Recovery) : Prop where
  lastFired : r'.lastFired = r.lastFired
  pendingOutcomes : r'.pendingOutcomes = r.pendingOutcomes

theorem Aside.refl (r : Recovery) : Aside r r := ⟨rfl, rfl⟩

theorem Aside.trans (first : Aside r r') (then_ : Aside r' r'') : Aside r r'' :=
  ⟨then_.lastFired.trans first.lastFired, then_.pendingOutcomes.trans first.pendingOutcomes⟩

structure Touches (pid : UInt32) (r r' : Recovery) : Prop extends Unlists pid r r', Aside r r'

/-- The visit of a child: its end is reported, or its kill. -/
structure Visits (pid : UInt32) (r : Recovery) (visited : List RecoveryOutcome × Recovery) : Prop
    extends Touches pid r visited.2 where
  once : visited.1.length ≤ 1

variable {pid : UInt32}

theorem Unlists.trans (first : Unlists pid r r') (second : Unlists pid r' r'') : Unlists pid r r'' := by
  refine ⟨?_, second.cursor.trans first.cursor, second.reapMax.trans first.reapMax⟩
  rcases second.iterPids with same | taken
  · rw [same]
    exact first.iterPids
  · rw [taken]
    rcases first.iterPids with same | already
    · rw [same]
      exact Or.inr rfl
    · rw [already, List.filter_filter]
      simp

theorem Touches.trans (first : Touches pid r r') (second : Touches pid r' r'') : Touches pid r r'' :=
  ⟨first.toUnlists.trans second.toUnlists, first.toAside.trans second.toAside⟩

theorem Touches.visits (first : Touches pid r r') {visited : List RecoveryOutcome × Recovery}
    (second : Visits pid r' visited) : Visits pid r visited :=
  ⟨first.trans second.toTouches, second.once⟩

theorem touches_nothing (pid : UInt32) (r : Recovery) (sink : Option Audit.RecoveryAuditLog)
    (w : World) : Touches pid r { r with auditSink := sink, world := w } :=
  ⟨⟨Or.inl rfl, rfl, rfl⟩, rfl, rfl⟩

section

variable (r : Recovery) (pid : UInt32)

theorem touches_remove : Touches pid r { r with outstanding := (r.outstanding.remove pid).2 } :=
  ⟨⟨Or.inr (r.outstanding.iterPids_remove pid), rfl, rfl⟩, rfl, rfl⟩

theorem touches_store (entry : Outstanding) (w : World) : Touches pid r (r.store pid entry w) :=
  ⟨⟨Or.inl (r.outstanding.iterPids_put pid entry), rfl, rfl⟩, rfl, rfl⟩

theorem touches_finishReapFailed (error : IoError) (observerNs : UInt64) :
    Touches pid r (finishReapFailed chainHash env r pid error observerNs).2 := by
  have removed := touches_remove r pid
  unfold finishReapFailed
  generalize r.outstanding.remove pid = result at removed
  obtain ⟨entry, outstanding⟩ := result
  cases entry with
  | none => exact removed
  | some entry =>
    obtain ⟨sink, w, written⟩ := @fail_writes chainHash env { r with outstanding := outstanding } pid
      entry error observerNs
    refine removed.trans ?_
    rw [written]
    exact touches_nothing pid _ sink w

theorem touches_endVisit (step : Outstanding.Visit) (observerNs : UInt64) :
    Touches pid r (endVisit chainHash env r pid step observerNs).2 := by
  cases step with
  | pending => exact touches_nothing pid r r.auditSink r.world
  | complete =>
    have removed := touches_remove r pid
    unfold endVisit
    generalize r.outstanding.remove pid = result at removed
    obtain ⟨entry, outstanding⟩ := result
    cases entry with
    | none => exact removed
    | some entry =>
      refine removed.trans ?_
      dsimp only
      cases entry.completedStatus with
      | none => exact touches_nothing pid _ r.auditSink (r.world.note (.dropped pid entry.child))
      | some status =>
        obtain ⟨sink, w, written⟩ := @complete_writes chainHash env
          { r with outstanding := outstanding } pid entry status observerNs
        dsimp only
        rw [written]
        exact touches_nothing pid _ sink w
  | reapFailed error => exact touches_finishReapFailed r pid error observerNs

theorem touches_reapFinishedChild (observerNs : UInt64) :
    Touches pid r (reapFinishedChild chainHash env r pid observerNs).2 := by
  unfold reapFinishedChild
  cases r.outstanding.get pid with
  | none => exact touches_nothing pid r r.auditSink r.world
  | some entry =>
    dsimp only
    generalize entry.visit env r.captureCap r.world = visited
    obtain ⟨step, entry', w⟩ := visited
    exact (touches_store r pid entry' w).trans
      (touches_endVisit (r.store pid entry' w) pid step observerNs)

/-- A kill that comes too late reports the end of the child. -/
theorem visits_killOverdue (entry : Outstanding) (observerNs : UInt64) :
    Visits pid r (killOverdue chainHash env r pid entry observerNs) := by
  unfold killOverdue
  generalize r.world.kill env entry.child = killed
  obtain ⟨answer, w⟩ := killed
  cases answer with
  | ok => exact ⟨touches_store r pid { entry with killed := true } w, Nat.le_refl 1⟩
  | error e =>
    refine (touches_nothing pid r r.auditSink w).visits ?_
    dsimp only
    split
    · exact ⟨touches_reapFinishedChild { r with world := w } pid observerNs,
        Option.length_toList_le⟩
    · exact ⟨touches_finishReapFailed { r with world := w } pid e observerNs, Nat.le_refl 1⟩

theorem visits_checkTimeout (entry : Outstanding) (timeout : Machine.Duration)
    (observerNs : UInt64) :
    Visits pid r (checkTimeout chainHash env r pid entry timeout observerNs) := by
  unfold checkTimeout
  generalize r.world.elapsed env entry.spawnedAt = read
  obtain ⟨elapsed, w⟩ := read
  have ticked := touches_nothing pid r r.auditSink w
  dsimp only
  split
  · exact ⟨ticked, Nat.zero_le 1⟩
  split
  · exact ⟨ticked, Nat.zero_le 1⟩
  · exact ticked.visits (visits_killOverdue { r with world := w } pid entry observerNs)

theorem visits_visitOutstanding (observerNs : UInt64) :
    Visits pid r (visitOutstanding chainHash env r pid observerNs) := by
  have reaped := @touches_reapFinishedChild chainHash env r pid observerNs
  unfold visitOutstanding
  generalize reapFinishedChild chainHash env r pid observerNs = result at reaped
  obtain ⟨outcome, after⟩ := result
  cases outcome with
  | some outcome => exact ⟨reaped, Nat.le_refl 1⟩
  | none =>
    have silent : Visits pid r ([], after) := ⟨reaped, Nat.zero_le 1⟩
    dsimp only
    cases after.outstanding.get pid with
    | none => exact silent
    | some entry =>
      dsimp only
      split
      · exact silent
      · cases after.timeout with
        | none => exact silent
        | some timeout =>
          exact reaped.visits (visits_checkTimeout after pid entry timeout observerNs)

end

/-- Run lemma: the loop takes out some of the pids it visits, and leaves the others in order. It
reports at most one outcome a visit. -/
theorem visitAll_filters (r : Recovery) (observerNs : UInt64) (pids : List UInt32)
    (outcomes : List RecoveryOutcome) :
    let after := visitAll chainHash env observerNs pids r outcomes
    (∃ keep : UInt32 → Bool, after.1.outstanding.iterPids = r.outstanding.iterPids.filter keep ∧
        ∀ pid, pid ∉ pids → keep pid = true) ∧
      after.1.reapCursor = r.reapCursor ∧ after.1.reapMax = r.reapMax ∧ Aside r after.1 ∧
      after.2.length ≤ outcomes.length + pids.length := by
  induction pids generalizing r outcomes with
  | nil =>
    exact ⟨⟨fun _ => true, by simp [visitAll], fun _ _ => rfl⟩, rfl, rfl, .refl r, Nat.le_refl _⟩
  | cons pid pids ih =>
    have visited := @visits_visitOutstanding chainHash env r pid observerNs
    obtain ⟨⟨keep, rest, others⟩, cursor, limit, aside, length⟩ :=
      ih (visitOutstanding chainHash env r pid observerNs).2
        (outcomes ++ (visitOutstanding chainHash env r pid observerNs).1)
    have once := visited.once
    rw [List.length_append] at length
    refine ⟨?_, cursor.trans visited.cursor, limit.trans visited.reapMax,
      visited.toAside.trans aside, Nat.le_trans length (by rw [List.length_cons]; omega)⟩
    rcases visited.iterPids with same | taken
    · refine ⟨keep, rest.trans (by rw [same]), fun other absent => ?_⟩
      exact others other fun member => absent (List.mem_cons_of_mem _ member)
    · refine ⟨fun other => other ≠ pid && keep other, ?_, fun other absent => ?_⟩
      · exact rest.trans (by rw [taken, List.filter_filter]; simp [Bool.and_comm])
      · have differs : other ≠ pid := fun same => absent (same ▸ List.mem_cons_self ..)
        have kept := others other fun member => absent (List.mem_cons_of_mem _ member)
        simp [differs, kept]

/-- A tick visits a window, which is empty if there is nobody. -/
theorem visitWindow_eq (r : Recovery) (observerNs : UInt64) (outcomes : List RecoveryOutcome) :
    let n := r.outstanding.iterPids.length
    let limit := min r.reapMax n
    ∃ truncated, visitWindow chainHash env r observerNs outcomes =
      visitAll chainHash env observerNs (reapWindow r.outstanding.iterPids (r.reapCursor % n) limit)
        { r with
          reapTruncatedTotal := truncated, reapCursor := (r.reapCursor % n + limit) % n }
        outcomes := by
  unfold visitWindow
  dsimp only
  split
  next nobody => exact ⟨r.reapTruncatedTotal, by simp [nobody, reapWindow, visitAll]⟩
  · exact ⟨_, rfl⟩

theorem length_reapWindow_le (reapScratch : List UInt32) (start limit : Nat) :
    (reapWindow reapScratch start limit).length ≤ limit := by
  have kept := List.length_filterMap_le
    (fun offset => reapScratch[(start + offset) % reapScratch.length]?) (List.range limit)
  rwa [List.length_range] at kept

theorem visitWindow_aside (r : Recovery) (observerNs : UInt64) (outcomes : List RecoveryOutcome) :
    let after := visitWindow chainHash env r observerNs outcomes
    after.2.length ≤ outcomes.length + r.reapMax ∧ Aside r after.1 := by
  obtain ⟨truncated, visited⟩ := @visitWindow_eq chainHash env r observerNs outcomes
  obtain ⟨-, -, -, aside, length⟩ := @visitAll_filters chainHash env { r with
      reapTruncatedTotal := truncated
      reapCursor := (r.reapCursor % r.outstanding.iterPids.length +
        min r.reapMax r.outstanding.iterPids.length) % r.outstanding.iterPids.length } observerNs
    (reapWindow r.outstanding.iterPids (r.reapCursor % r.outstanding.iterPids.length)
      (min r.reapMax r.outstanding.iterPids.length)) outcomes
  have window := length_reapWindow_le r.outstanding.iterPids
    (r.reapCursor % r.outstanding.iterPids.length) (min r.reapMax r.outstanding.iterPids.length)
  have limit := Nat.min_le_left r.reapMax r.outstanding.iterPids.length
  rw [visited]
  exact ⟨Nat.le_trans length (by omega), aside.lastFired, aside.pendingOutcomes⟩

/-- A tick hands over all that is queued, and one outcome for each visit it has budget for. -/
theorem tryReapInto_aside (r : Recovery) (observerNs : UInt64) :
    let ticked := tryReapInto chainHash env r observerNs
    ticked.2.length ≤ r.pendingOutcomes.length + r.reapMax * 2 ∧
      ticked.1.lastFired = r.lastFired ∧ ticked.1.pendingOutcomes = [] := by
  obtain ⟨reported, orphans, cursor, sink, w, drained⟩ := @drainOrphanReaps_writes chainHash env
    { r with pendingOutcomes := [] } observerNs r.reapMax r.pendingOutcomes
  unfold tryReapInto
  generalize drainOrphanReaps chainHash env observerNs r.reapMax { r with pendingOutcomes := [] }
    r.pendingOutcomes = after at reported drained
  obtain ⟨length, aside⟩ := @visitWindow_aside chainHash env after.1 observerNs after.2
  have limit : after.1.reapMax = r.reapMax := by rw [drained]
  refine ⟨Nat.le_trans length (by omega), aside.lastFired.trans ?_, aside.pendingOutcomes.trans ?_⟩
  · rw [drained]
  · rw [drained]

end Varta.Watch.Recovery
