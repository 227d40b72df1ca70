import Varta.Watch.RecoveryCustody
import Varta.Watch.ReapWrites

/-!
# The calls of the runner as moves

Each function of the runner makes a few moves: what it does to the tables, to the children
and to the reports is a sequence of them, whatever the operating system answers.
-/
namespace Varta.Watch

open Machine
open Utf8 (Str)
open Vlp (Bytes32)
open Audit (CompleteOutcome)

/-! ### One child -/

/-- Time passes and nothing is done. -/
structure World.Passes (w w' : World) : Prop where
  trace : w'.trace = w.trace
  asked : w.asked ≤ w'.asked

theorem World.Passes.refl (w : World) : w.Passes w := ⟨rfl, Nat.le_refl _⟩

theorem World.Passes.trans {w w' w'' : World} (first : w.Passes w') (then_ : w'.Passes w'') :
    w.Passes w'' :=
  ⟨then_.trace.trans first.trace, Nat.le_trans first.asked then_.asked⟩

theorem World.passes_tick (w : World) : w.Passes w.tick := ⟨rfl, Nat.le_succ _⟩

/-- Two states of an entry between which only the capture went on. -/
structure Outstanding.Alike (entry entry' : Outstanding) : Prop where
  child : entry'.child = entry.child
  killed : entry'.killed = entry.killed
  completedStatus : entry'.completedStatus = entry.completedStatus

namespace Outstanding

theorem Alike.refl (entry : Outstanding) : entry.Alike entry := ⟨rfl, rfl, rfl⟩

theorem Alike.trans {entry entry' entry'' : Outstanding} (first : entry.Alike entry')
    (then_ : entry'.Alike entry'') : entry.Alike entry'' :=
  ⟨then_.child.trans first.child, then_.killed.trans first.killed,
    then_.completedStatus.trans first.completedStatus⟩

section

variable {env : Nat → Answer}

theorem passes_drainCaptureStream (cap rounds : Nat) (s : CaptureStream) (w : World) :
    w.Passes (drainCaptureStream env cap rounds s w).2 := by
  induction rounds generalizing s w with
  | zero => exact .refl w
  | succ rounds ih =>
    unfold drainCaptureStream
    split
    · exact .refl w
    · split
      · exact .refl w
      · split
        · exact .refl w
        · dsimp only
          split
          · split
            · exact w.passes_tick
            · split
              · exact w.passes_tick
              · exact w.passes_tick.trans (ih _ _)
          · split
            · exact w.passes_tick
            · exact w.passes_tick

theorem drainCapture_spec (entry : Outstanding) (cap : Nat) (w : World) :
    entry.Alike (entry.drainCapture env cap w).1 ∧ w.Passes (entry.drainCapture env cap w).2 := by
  unfold drainCapture
  split
  · exact ⟨.refl entry, .refl w⟩
  · split
    · exact ⟨⟨rfl, rfl, rfl⟩, .refl w⟩
    · constructor
      · dsimp only
        split
        · exact ⟨rfl, rfl, rfl⟩
        · exact ⟨rfl, rfl, rfl⟩
      · exact (passes_drainCaptureStream ..).trans (passes_drainCaptureStream ..)

theorem captureReadyToComplete_spec (entry : Outstanding) (w : World) :
    entry.Alike (entry.captureReadyToComplete env w).2.1 ∧
      w.Passes (entry.captureReadyToComplete env w).2.2 := by
  unfold captureReadyToComplete
  split
  · exact ⟨.refl entry, .refl w⟩
  · dsimp only [World.elapsed]
    split
    · split
      · exact ⟨⟨rfl, rfl, rfl⟩, w.passes_tick⟩
      · exact ⟨.refl entry, w.passes_tick⟩
    · exact ⟨.refl entry, w.passes_tick⟩

/-- What a visit did: it went on with the capture, or it collected the exit status as well. -/
inductive Visited (entry : Outstanding) (w : World) : Visit → Outstanding → World → Prop where
  | captured {step : Visit} {entry' : Outstanding} {w' : World} (alike : entry.Alike entry')
      (passes : w.Passes w') (done : step = .complete → entry.completedStatus ≠ none)
      (failed : ∀ error, step = .reapFailed error → entry.completedStatus = none) :
      Visited entry w step entry' w'
  | exited {step : Visit} {entry' : Outstanding} {w' : World} (status : ExitStatus)
      (running : entry.completedStatus = none) (child : entry'.child = entry.child)
      (killed : entry'.killed = entry.killed) (collected : entry'.completedStatus = some status)
      (trace : w'.trace = .exited entry.child status :: w.trace) (asked : w.asked ≤ w'.asked)
      (waited : ∀ error, step ≠ .reapFailed error) : Visited entry w step entry' w'

theorem visit_cases (entry : Outstanding) (cap : Nat) (w : World) :
    Visited entry w (entry.visit env cap w).1 (entry.visit env cap w).2.1
      (entry.visit env cap w).2.2 := by
  have drained := @drainCapture_spec env entry cap w
  unfold visit
  dsimp only
  generalize entry.drainCapture env cap w = after at *
  obtain ⟨entry', w'⟩ := after
  obtain ⟨alike, passes⟩ := drained
  dsimp only at *
  cases known : entry'.completedStatus with
  | some status =>
    -- the status is known from an earlier visit, and there is no second wait
    have ready := @captureReadyToComplete_spec env entry' w'
    have exited : entry.completedStatus ≠ none := by
      rw [← alike.completedStatus, known]
      simp
    refine .captured (alike.trans ready.1) (passes.trans ready.2) (fun _ => exited) ?_
    intro error failed
    dsimp only at failed
    split at failed <;> cases failed
  | none =>
    have running : entry.completedStatus = none := alike.completedStatus.symm.trans known
    unfold World.tryWait
    cases (w'.answer env).tryWait with
    | error error =>
      refine .captured alike (passes.trans w'.passes_tick) ?_ fun _ _ => running
      intro absurd
      cases absurd
    | ok answer =>
      cases answer with
      | none =>
        refine .captured alike (passes.trans w'.passes_tick) ?_ fun _ _ => running
        intro absurd
        cases absurd
      | some status =>
        -- two questions: the wait, and the time at which the child is seen to have exited
        dsimp only
        generalize seen : { entry' with completedStatus := some status, completedAt := _ } = entry''
        have ready := @captureReadyToComplete_spec env entry''
          (w'.tick.note (.exited entry'.child status)).tick
        subst seen
        refine .exited status running (ready.1.child.trans alike.child)
          (ready.1.killed.trans alike.killed) ready.1.completedStatus ?_ ?_ ?_
        · rw [ready.2.trace, ← alike.child, ← passes.trace]
          rfl
        · have waited : w'.asked ≤ (w'.tick.note (.exited entry'.child status)).tick.asked :=
            Nat.le_add_right w'.asked 2
          exact passes.asked.trans (waited.trans ready.2.asked)
        · intro error failed
          split at failed <;> cases failed

theorem killForReclaim_killed {entry : Outstanding} (killed : entry.killed = true) (w : World) :
    entry.killForReclaim env w = (.ok .alreadyKilled, entry, w) := by
  simp [killForReclaim, killed]

/-- The kill of a reclaim: an answer that is no success leaves the entry as it was. -/
theorem killForReclaim_alive {entry : Outstanding} (alive : entry.killed = false) (w : World) :
    ((w.answer env).kill = .ok () ∧ entry.killForReclaim env w =
        (.ok (.killed entry.child), { entry with killed := true },
          w.tick.note (.killed entry.child))) ∨
      ((w.answer env).kill ≠ .ok () ∧ ∃ result, entry.killForReclaim env w = (result, entry, w.tick) ∧
        ∀ child, result ≠ .ok (.killed child)) := by
  unfold killForReclaim World.kill
  rw [alive]
  cases (w.answer env).kill with
  | ok => exact .inl ⟨rfl, rfl⟩
  | error e =>
    right
    refine ⟨nofun, ?_⟩
    simp only [Bool.false_eq_true, if_false]
    split
    · exact ⟨_, rfl, nofun⟩
    · exact ⟨_, rfl, nofun⟩

end

end Outstanding

namespace Recovery

/-! ### Steps -/

/-- The children of a runner, with the outcomes that count as reported. -/
def custody (r : Recovery) (reported : List RecoveryOutcome) : Custody :=
  ⟨r.outstanding.entries ++ r.reapingOrphans, r.world.trace, reported⟩

/-- What stays as the runner was set up. -/
def fixed (r : Recovery) : Bool × Duration × Nat × Nat :=
  (r.audited, r.debounce, r.orphanCapacity, r.reapMax)

/-- The runner goes from `r` to `r'` by moves, while the reports grow from `reported` to
`reported'`. -/
structure Leads (licence : Licence) (r : Recovery) (reported : List RecoveryOutcome)
    (r' : Recovery) (reported' : List RecoveryOutcome) : Prop where
  wf : r'.outstanding.Wf
  issued : r.outstanding.Issues r'.outstanding
  moves : Moves r.audited licence (r.custody reported) (r'.custody reported')
  fixed : r'.fixed = r.fixed
  room : r'.reapingOrphans.length ≤ max r.reapingOrphans.length r.orphanCapacity
  asked : r.world.asked ≤ r'.world.asked

variable {entry' : Outstanding}

section

variable {licence : Licence} {r r' r'' : Recovery}
  {reported reported' reported'' : List RecoveryOutcome}

theorem Leads.audited (leads : Leads licence r reported r' reported') : r'.audited = r.audited :=
  congrArg Prod.fst leads.fixed

theorem Leads.debounce (leads : Leads licence r reported r' reported') :
    r'.debounce = r.debounce :=
  congrArg (·.2.1) leads.fixed

theorem Leads.orphanCapacity (leads : Leads licence r reported r' reported') :
    r'.orphanCapacity = r.orphanCapacity :=
  congrArg (·.2.2.1) leads.fixed

theorem Leads.reapMax (leads : Leads licence r reported r' reported') : r'.reapMax = r.reapMax :=
  congrArg (·.2.2.2) leads.fixed

theorem Leads.refl (wf : r.outstanding.Wf) : Leads licence r reported r reported :=
  ⟨wf, .refl, .refl, rfl, Nat.le_max_left .., Nat.le_refl _⟩

theorem Leads.trans (first : Leads licence r reported r' reported')
    (then_ : Leads licence r' reported' r'' reported'') :
    Leads licence r reported r'' reported'' where
  wf := then_.wf
  issued := first.issued.trans then_.issued
  moves := first.moves.trans (first.audited ▸ then_.moves)
  fixed := then_.fixed.trans first.fixed
  room := by
    have later := then_.room
    have before := first.room
    have same := first.orphanCapacity
    omega
  asked := Nat.le_trans first.asked then_.asked

/-- A step that keeps the settings and makes one move. -/
theorem leads_of_move (wf : r'.outstanding.Wf) (issued : r.outstanding.Issues r'.outstanding)
    (move : Move r.audited licence (r.custody reported) (r'.custody reported'))
    (fixed : r'.fixed = r.fixed)
    (room : r'.reapingOrphans.length ≤ max r.reapingOrphans.length r.orphanCapacity)
    (asked : r.world.asked ≤ r'.world.asked) : Leads licence r reported r' reported' :=
  ⟨wf, issued, .single move, fixed, room, asked⟩

/-- Nothing is done, in the tables or in the world. -/
structure Idle (r r' : Recovery) : Prop where
  wf : r'.outstanding.Wf
  issued : r.outstanding.Issues r'.outstanding
  get : ∀ k, r'.outstanding.get k = r.outstanding.get k
  reapingOrphans : r'.reapingOrphans = r.reapingOrphans
  passes : r.world.Passes r'.world
  fixed : r'.fixed = r.fixed

theorem Idle.leads (idle : Idle r r') : Leads licence r reported r' reported := by
  have held : (r'.outstanding.entries ++ r'.reapingOrphans).Perm (r.custody reported).held := by
    rw [idle.reapingOrphans]
    exact (OutstandingTable.entries_congr idle.get).append_right _
  have move : Move r.audited licence (r.custody reported) (r'.custody reported) := by
    unfold custody
    rw [idle.passes.trace]
    exact .keep held
  refine leads_of_move idle.wf idle.issued move idle.fixed ?_ idle.passes.asked
  rw [idle.reapingOrphans]
  exact Nat.le_max_left ..

/-! ### Tables -/

variable {pid : UInt32} {entry : Outstanding}

/-- The entry of a pid among all entries that are held. -/
theorem held_perm (found : r.outstanding.get pid = some entry) :
    (r.custody reported).held.Perm
      ((pid, entry) :: (r.outstanding.others pid ++ r.reapingOrphans)) := by
  have entries := (r.outstanding.entries_perm pid).append_right r.reapingOrphans
  rw [found] at entries
  exact entries

theorem held_put (wf : r.outstanding.Wf) (found : r.outstanding.get pid = some entry)
    (entry' : Outstanding) :
    ((r.outstanding.put pid entry').entries ++ r.reapingOrphans).Perm
      ((pid, entry') :: (r.outstanding.others pid ++ r.reapingOrphans)) := by
  obtain ⟨_, get⟩ := wf.put found entry'
  have entries := ((r.outstanding.put pid entry').entries_perm pid).append_right r.reapingOrphans
  rw [get pid, if_pos rfl] at entries
  refine entries.trans (List.Perm.cons _ (List.Perm.append_right _ ?_))
  exact OutstandingTable.others_perm fun k other => by rw [get k, if_neg other]

theorem held_remove (wf : r.outstanding.Wf) (found : r.outstanding.get pid = some entry) :
    (r.custody reported).held.Perm
      ((pid, entry) :: ((r.outstanding.remove pid).2.entries ++ r.reapingOrphans)) := by
  obtain ⟨_, _, get⟩ := wf.remove found
  refine (held_perm found).trans (List.Perm.cons _ (List.Perm.append_right _ ?_))
  have entries := (r.outstanding.remove pid).2.entries_perm pid
  rw [get pid, if_pos rfl] at entries
  refine List.Perm.trans ?_ entries.symm
  exact (OutstandingTable.others_perm fun k other => by rw [get k, if_neg other]).symm

/-! ### Records -/

variable {chainHash : Option (Bytes32 → Bytes → Bytes → Bytes32)} {env : Nat → Answer}

/-- A refusal is at most a record. -/
theorem recordRefusedAudit_leads (wf : r.outstanding.Wf) (pid : UInt32) (observerNs : UInt64)
    (reason : Str) :
    Leads licence r reported (recordRefusedAudit chainHash env r pid observerNs reason) reported := by
  unfold recordRefusedAudit
  split
  · exact .refl wf
  next sink attached =>
    refine leads_of_move wf .refl ?_ (by simp [fixed, audited, attached]) (Nat.le_max_left ..)
      (Nat.le_succ _)
    exact .note _ (.inr ⟨_, rfl⟩)

/-! ### Letting go of a child -/

/-- In `r'` the entry of a child has been taken out of the tables of `r`. -/
structure Takes (r : Recovery) (pid : UInt32) (entry : Outstanding) (r' : Recovery) : Prop where
  wf : r'.outstanding.Wf
  issued : r.outstanding.Issues r'.outstanding
  held : (r.outstanding.entries ++ r.reapingOrphans).Perm
    ((pid, entry) :: (r'.outstanding.entries ++ r'.reapingOrphans))
  passes : r.world.Passes r'.world
  fixed : r'.fixed = r.fixed
  room : r'.reapingOrphans.length ≤ r.reapingOrphans.length

theorem Takes.emit (takes : Takes r pid entry r') {outcome : CompleteOutcome}
    (right : outcome = recordedOutcome entry) (status : Option ExitStatus) (observerNs : UInt64)
    {report : RecoveryOutcome} (other : killedChildren [report] = []) :
    Leads licence r reported
      ((emitCompleteAudit chainHash env r' pid entry outcome status observerNs).dropEntry pid entry)
      (reported ++ [report]) := by
  obtain ⟨record, sink, w, emitted, recorded, attached, asked, trace⟩ :=
    @emitCompleteAudit_eq chainHash env r' pid entry outcome status observerNs
  have same : r'.audited = r.audited := congrArg Prod.fst takes.fixed
  rw [emitted]
  refine leads_of_move takes.wf takes.issued ?_ (Eq.trans ?_ takes.fixed)
    (takes.room.trans (Nat.le_max_left ..)) (takes.passes.asked.trans asked)
  -- the record, the drop and the report are one move
  · have move := @Move.finish r.audited licence (r.custody reported) _ pid entry record report
      takes.held (recorded.trans right) other
    rw [same, takes.passes.trace] at trace
    simp only [custody, dropEntry, World.note, trace]
    exact move
  · exact congrArg (·, r'.fixed.2) attached

theorem Takes.complete (takes : Takes r pid entry r') {status : ExitStatus}
    (exited : entry.completedStatus = some status) (observerNs : UInt64) :
    Leads licence r reported (complete chainHash env r' pid entry status observerNs).2
      (reported ++ [(complete chainHash env r' pid entry status observerNs).1]) := by
  have later : Takes r pid entry { r' with world := r'.world.tick } :=
    { takes with passes := takes.passes.trans r'.world.passes_tick }
  refine later.emit ?_ (some status) observerNs ?_
  · simp [recordedOutcome, exited]
  · rfl

theorem Takes.fail (takes : Takes r pid entry r') (running : entry.completedStatus = none)
    (error : IoError) (observerNs : UInt64) :
    Leads licence r reported (fail chainHash env r' pid entry error observerNs).2
      (reported ++ [(fail chainHash env r' pid entry error observerNs).1]) := by
  refine takes.emit ?_ none observerNs ?_
  · simp [recordedOutcome, running]
  · rfl

/-! ### Visits -/

variable {step : Outstanding.Visit} {w w' : World} {i : Nat}

/-- A visit is one move. -/
theorem move_of_visited {held rest : List (UInt32 × Outstanding)}
    (found : (r.custody reported).held.Perm ((pid, entry) :: rest))
    (placed : held.Perm ((pid, entry') :: rest))
    (visited : Outstanding.Visited entry r.world step entry' w) :
    Move r.audited licence (r.custody reported) ⟨held, w.trace, reported⟩ := by
  cases visited with
  | captured alike passes done failed =>
    rw [passes.trace]
    exact .capture pid entry entry' found placed alike.child alike.killed alike.completedStatus
  | exited status running child killed collected trace asked waited =>
    rw [trace]
    exact .exit pid entry entry' status found placed running child killed collected

theorem asked_of_visited (visited : Outstanding.Visited entry w step entry' w') :
    w.asked ≤ w'.asked := by
  cases visited with
  | captured alike passes => exact passes.asked
  | exited status running child killed collected trace asked => exact asked

/-- A complete child has an exit status. -/
theorem status_of_visited (visited : Outstanding.Visited entry w .complete entry' w') :
    ∃ status, entry'.completedStatus = some status := by
  cases visited with
  | captured alike passes done failed =>
    rw [alike.completedStatus]
    exact Option.ne_none_iff_exists'.mp (done rfl)
  | exited status running child killed collected => exact ⟨status, collected⟩

/-- A child whose wait failed has none. -/
theorem running_of_visited {error : IoError}
    (visited : Outstanding.Visited entry w (.reapFailed error) entry' w') :
    entry'.completedStatus = none := by
  cases visited with
  | captured alike passes done failed =>
    rw [alike.completedStatus]
    exact failed error rfl
  | exited status running child killed collected trace asked waited =>
    exact absurd rfl (waited error)

section

variable (wf : r.outstanding.Wf)

include wf

theorem takes_remove (found : r.outstanding.get pid = some entry) :
    Takes r pid entry { r with outstanding := (r.outstanding.remove pid).2 } where
  wf := (wf.remove found).2.1
  issued := .single (.removed found)
  held := @held_remove r [] pid entry wf found
  passes := .refl _
  fixed := rfl
  room := Nat.le_refl _

theorem takes_swapRemove (found : r.reapingOrphans[i]? = some (pid, entry)) :
    Takes r pid entry { r with reapingOrphans := Lists.swapRemove r.reapingOrphans i } where
  wf := wf
  issued := .refl
  held := ((Lists.swapRemove_perm found).append_left _).trans List.perm_middle
  passes := .refl _
  fixed := rfl
  room := by
    have length := (Lists.swapRemove_perm found).length_eq
    simp only [List.length_cons] at length
    simp only
    omega

theorem finishReapFailed_leads (found : r.outstanding.get pid = some entry)
    (running : entry.completedStatus = none) (error : IoError) (observerNs : UInt64) :
    Leads licence r reported (finishReapFailed chainHash env r pid error observerNs).2
        (reported ++ [(finishReapFailed chainHash env r pid error observerNs).1]) := by
  unfold finishReapFailed
  rw [wf.remove_eq found]
  exact (takes_remove wf found).fail running error observerNs

/-- A visit is stored. -/
theorem store_leads (found : r.outstanding.get pid = some entry)
    (visited : Outstanding.Visited entry r.world step entry' w) :
    Leads licence r reported (r.store pid entry' w) reported ∧
      (r.store pid entry' w).outstanding.get pid = some entry' := by
  obtain ⟨wf', get⟩ := wf.put found entry'
  constructor
  · exact leads_of_move wf' (.single (.put found _))
      (move_of_visited (held_perm found) (held_put wf found entry') visited) rfl
      (Nat.le_max_left ..) (asked_of_visited visited)
  · rw [store, get pid, if_pos rfl]

theorem endVisit_leads (found : r.outstanding.get pid = some entry')
    (visited : Outstanding.Visited entry w step entry' w') (observerNs : UInt64) :
    Leads licence r reported (endVisit chainHash env r pid step observerNs).2
        (reported ++ (endVisit chainHash env r pid step observerNs).1.toList) := by
  cases step with
  | pending => simpa [endVisit] using Leads.refl wf
  | complete =>
    obtain ⟨status, exited⟩ := status_of_visited visited
    unfold endVisit
    rw [wf.remove_eq found]
    simp only [exited]
    exact (takes_remove wf found).complete exited observerNs
  | reapFailed error =>
    exact finishReapFailed_leads wf found (running_of_visited visited) error observerNs

/-- `reap_finished_child` reports the child it let go of, and nothing else. -/
theorem reapFinishedChild_leads (pid : UInt32) (observerNs : UInt64) :
    Leads licence r reported (reapFinishedChild chainHash env r pid observerNs).2
        (reported ++ (reapFinishedChild chainHash env r pid observerNs).1.toList) := by
  unfold reapFinishedChild
  cases found : r.outstanding.get pid with
  | none => simpa using Leads.refl wf
  | some entry =>
    have visited := @Outstanding.visit_cases env entry r.captureCap r.world
    obtain ⟨stored, found'⟩ := store_leads wf found visited
    exact stored.trans (endVisit_leads stored.wf found' visited observerNs)

end

/-! ### Orphans -/

theorem storeOrphan_leads (wf : r.outstanding.Wf) (found : r.reapingOrphans[i]? = some (pid, entry))
    (visited : Outstanding.Visited entry r.world step entry' w) :
    Leads licence r reported (r.storeOrphan i pid entry' w) reported ∧
      (r.storeOrphan i pid entry' w).reapingOrphans[i]? = some (pid, entry') := by
  obtain ⟨rest, before, after⟩ := Lists.set_perm found (pid, entry')
  constructor
  · refine leads_of_move wf .refl (move_of_visited ((before.append_left _).trans List.perm_middle)
      ((after.append_left _).trans List.perm_middle) visited) rfl ?_
      (asked_of_visited visited)
    simp [storeOrphan]
  · simp [storeOrphan, (List.getElem?_eq_some_iff.mp found).1]

theorem endOrphanVisit_leads {terminal : Outstanding.Visit} (wf : r.outstanding.Wf)
    (found : r.reapingOrphans[i]? = some (pid, entry'))
    (visited : Outstanding.Visited entry w terminal entry' w') (observerNs : UInt64) :
    Leads licence r reported (endOrphanVisit chainHash env r i pid entry' terminal observerNs).2
        (reported ++ (endOrphanVisit chainHash env r i pid entry' terminal observerNs).1) := by
  cases terminal with
  | pending =>
    simp only [endOrphanVisit, List.append_nil]
    exact Idle.leads ⟨wf, .refl, fun _ => rfl, rfl, .refl _, rfl⟩
  | complete =>
    obtain ⟨status, exited⟩ := status_of_visited visited
    simp only [endOrphanVisit, exited]
    exact (takes_swapRemove wf found).complete exited observerNs
  | reapFailed error =>
    simp only [endOrphanVisit]
    exact (takes_swapRemove wf found).fail (running_of_visited visited) error observerNs

theorem visitOrphan_leads (wf : r.outstanding.Wf) (found : r.reapingOrphans[i]? = some (pid, entry))
    (observerNs : UInt64) :
    Leads licence r reported (visitOrphan chainHash env r i pid entry observerNs).2
        (reported ++ (visitOrphan chainHash env r i pid entry observerNs).1) := by
  have visited := @Outstanding.visit_cases env entry r.captureCap r.world
  obtain ⟨stored, found'⟩ := storeOrphan_leads wf found visited
  exact stored.trans (endOrphanVisit_leads stored.wf found' visited observerNs)

theorem drainOrphanReaps_leads (wf : r.outstanding.Wf) (observerNs : UInt64) (visits : Nat)
    (before outcomes : List RecoveryOutcome) :
    let drained := drainOrphanReaps chainHash env observerNs visits r outcomes
    Leads licence r (before ++ outcomes) drained.1 (before ++ drained.2) := by
  induction visits generalizing r outcomes with
  | zero => exact .refl wf
  | succ visits ih =>
    unfold drainOrphanReaps
    dsimp only
    generalize (if r.orphanReapCursor ≥ r.reapingOrphans.length then 0
      else r.orphanReapCursor) = i
    cases found : r.reapingOrphans[i]? with
    | none => exact .refl wf
    | some orphan =>
      obtain ⟨pid, entry⟩ := orphan
      -- the cursor is nobody's child
      have moved : Leads licence r (before ++ outcomes) { r with orphanReapCursor := i }
          (before ++ outcomes) :=
        Idle.leads ⟨wf, .refl, fun _ => rfl, rfl, .refl _, rfl⟩
      have visited := @visitOrphan_leads licence { r with orphanReapCursor := i }
        (before ++ outcomes) pid entry chainHash env i wf found observerNs
      rw [List.append_assoc] at visited
      exact (moved.trans visited).trans (ih visited.wf _)

/-! ### Ticks -/

section

variable (wf : r.outstanding.Wf) (found : r.outstanding.get pid = some entry)

include wf found

/-- An entry is put back as it was. -/
theorem store_same_leads (passes : r.world.Passes w) :
    Leads licence r reported (r.store pid entry w) reported := by
  obtain ⟨wf', get⟩ := wf.put found entry
  refine Idle.leads ⟨wf', .single (.put found _), ?_, rfl, passes, rfl⟩
  intro k
  rw [store, get k]
  split
  next own => rw [own, found]
  next => rfl

/-- A kill that succeeds, with its report or without. -/
theorem store_kill_leads (alive : entry.killed = false)
    (inTime : entry.completedStatus ≠ none → licence.late)
    (report : reported' = reported ++ [.killed entry.child] ∨ reported' = reported ∧ licence.silent) :
    Leads licence r reported
      (r.store pid { entry with killed := true } (r.world.tick.note (.killed entry.child)))
      reported' := by
  obtain ⟨wf', _⟩ := wf.put found { entry with killed := true }
  refine leads_of_move wf' (.single (.put found _)) ?_ rfl (Nat.le_max_left ..) (Nat.le_succ _)
  exact .kill pid entry (held_perm found) (held_put wf found { entry with killed := true }) alive
    inTime report

theorem killOverdue_leads (running : entry.completedStatus = none) (alive : entry.killed = false)
    (observerNs : UInt64) :
    Leads licence r reported (killOverdue chainHash env r pid entry observerNs).2
        (reported ++ (killOverdue chainHash env r pid entry observerNs).1) := by
  -- a kill that fails takes time and does nothing
  have ticked : Leads licence r reported { r with world := r.world.tick } reported :=
    Idle.leads ⟨wf, .refl, fun _ => rfl, rfl, r.world.passes_tick, rfl⟩
  unfold killOverdue World.kill
  cases (r.world.answer env).kill with
  | ok =>
    refine store_kill_leads wf found alive ?_ (.inl rfl)
    intro exited
    exact absurd running exited
  | error e =>
    dsimp only
    split
    -- the answer is that the child is gone already, so it is reaped
    · exact ticked.trans (@reapFinishedChild_leads licence
        { r with world := r.world.tick } reported chainHash env wf pid observerNs)
    · exact ticked.trans (@finishReapFailed_leads licence
        { r with world := r.world.tick } reported pid entry chainHash env wf found running e
        observerNs)

/-- A deadline is for a child that still runs. -/
theorem checkTimeout_leads (running : entry.completedStatus = none) (timeout : Duration)
    (observerNs : UInt64) :
    Leads licence r reported (checkTimeout chainHash env r pid entry timeout observerNs).2
        (reported ++ (checkTimeout chainHash env r pid entry timeout observerNs).1) := by
  have ticked : Leads licence r reported { r with world := r.world.tick } reported :=
    Idle.leads ⟨wf, .refl, fun _ => rfl, rfl, r.world.passes_tick, rfl⟩
  -- the two early returns of the source, as one condition
  have shape : checkTimeout chainHash env r pid entry timeout observerNs =
      if (r.world.answer env).instant - entry.spawnedAt < timeout.nanos ∨ entry.killed = true then
        ([], { r with world := r.world.tick })
      else killOverdue chainHash env { r with world := r.world.tick } pid entry observerNs := by
    simp only [ite_or]
    rfl
  rw [shape]
  split
  · rw [List.append_nil]
    exact ticked
  next overdue =>
    exact ticked.trans (@killOverdue_leads licence { r with world := r.world.tick }
      reported pid entry chainHash env wf found running (by simpa using (not_or.mp overdue).2)
      observerNs)

end

theorem visitOutstanding_leads (wf : r.outstanding.Wf) (pid : UInt32) (observerNs : UInt64) :
    Leads licence r reported (visitOutstanding chainHash env r pid observerNs).2
        (reported ++ (visitOutstanding chainHash env r pid observerNs).1) := by
  have reaped := @reapFinishedChild_leads licence r reported chainHash env wf pid observerNs
  unfold visitOutstanding
  generalize reapFinishedChild chainHash env r pid observerNs = result at reaped
  obtain ⟨outcome, r'⟩ := result
  cases outcome with
  | some outcome => exact reaped
  | none =>
    have unmoved : Leads licence r reported r' (reported ++ []) := reaped
    cases found : r'.outstanding.get pid with
    | none => simpa only [found] using unmoved
    | some entry =>
      simp only [found]
      split
      -- a child that waits for the rest of its output has no deadline any more
      · exact unmoved
      next pending =>
        cases r'.timeout with
        | none => exact unmoved
        | some timeout =>
          rw [Option.toList_none, List.append_nil] at reaped
          exact reaped.trans (checkTimeout_leads reaped.wf found (by simpa using pending) timeout
            observerNs)

theorem visitAll_leads (wf : r.outstanding.Wf) (observerNs : UInt64) (pids : List UInt32)
    (before outcomes : List RecoveryOutcome) :
    let visited := visitAll chainHash env observerNs pids r outcomes
    Leads licence r (before ++ outcomes) visited.1 (before ++ visited.2) := by
  -- the outcomes are an accumulator, and the reports grow with it
  induction pids generalizing r outcomes with
  | nil => exact .refl wf
  | cons pid pids ih =>
    have visited := @visitOutstanding_leads licence r (before ++ outcomes) chainHash env wf pid
      observerNs
    rw [List.append_assoc] at visited
    exact visited.trans (ih visited.wf _)

theorem visitWindow_leads (wf : r.outstanding.Wf) (observerNs : UInt64)
    (before outcomes : List RecoveryOutcome) :
    let visited := visitWindow chainHash env r observerNs outcomes
    Leads licence r (before ++ outcomes) visited.1 (before ++ visited.2) := by
  unfold visitWindow
  dsimp only
  split
  · exact .refl wf
  · -- the cursor and the counter are nobody's child
    have moved (truncated cursor : Nat) : Leads licence r (before ++ outcomes)
        { r with reapTruncatedTotal := truncated, reapCursor := cursor } (before ++ outcomes) :=
      Idle.leads ⟨wf, .refl, fun _ => rfl, rfl, .refl _, rfl⟩
    exact (moved _ _).trans (visitAll_leads (moved _ _).wf observerNs _ before outcomes)

/-- A tick hands over what is pending and what it does itself. -/
theorem tryReapInto_leads (wf : r.outstanding.Wf) (observerNs : UInt64)
    (delivered : List RecoveryOutcome) :
    let tick := tryReapInto chainHash env r observerNs
    Leads licence r (delivered ++ r.pendingOutcomes) tick.1 (delivered ++ tick.2) := by
  have emptied : Leads licence r (delivered ++ r.pendingOutcomes) { r with pendingOutcomes := [] }
      (delivered ++ r.pendingOutcomes) :=
    Idle.leads ⟨wf, .refl, fun _ => rfl, rfl, .refl _, rfl⟩
  have drained := @drainOrphanReaps_leads licence { r with pendingOutcomes := [] } chainHash env wf
    observerNs r.reapMax delivered r.pendingOutcomes
  exact (emptied.trans drained).trans (visitWindow_leads drained.wf observerNs delivered _)

end

end Recovery

end Varta.Watch
