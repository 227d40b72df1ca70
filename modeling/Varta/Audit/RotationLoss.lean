import Varta.Audit.AuditRun

/-!
# What rotation removes

Each rotation first removes an existing `PATH.5` and only at its end moves the live file.
A rotation that is given up in between has removed a generation for nothing, and the next
accepted line arms the next attempt. As long as that does not happen, removals are paid
for by moves.
-/
namespace Varta.Audit

open Vlp (Bytes32)

def Fs.removals (fs : Fs) : Nat := fs.events.count .oldestRemoved

def Fs.moves (fs : Fs) : Nat := fs.events.count .liveMoved

/-- A generation was removed and the live file has not been moved since. -/
def Fs.Owed (fs : Fs) : Prop := fs.events.getLast? = some .oldestRemoved

instance (fs : Fs) : Decidable fs.Owed :=
  inferInstanceAs (Decidable (fs.events.getLast? = some .oldestRemoved))

/-- Nothing was removed or moved. -/
structure DirKept (s t : Sys) : Prop where
  live : t.fs.live = s.fs.live
  events : t.fs.events = s.fs.events

variable {s t : Sys} {nextGen : Nat}

theorem Moves.dirKept (same : Moves s t) : DirKept s t := ⟨same.live, same.events⟩

section

variable (env : Nat → Answer)

section

variable (chainHash : Option (Bytes32 → Bytes → Bytes → Bytes32))

theorem emitDirect_dirKept (s : Sys) (entry : Entry) :
    DirKept s (emitDirect chainHash env s entry) := by
  unfold emitDirect
  dsimp only
  split
  next t accepted =>
    have kept := (directWriteLine_accepted env accepted).2
    exact ⟨kept.live, kept.events⟩
  next t rejected =>
    have kept := (directWriteLine_rejected env rejected).2
    split
    · exact ⟨kept.live, kept.events⟩
    · exact ⟨kept.live, kept.events⟩

theorem emitBoot_dirKept (s : Sys) (reason : BootReason) (prev : Option Bytes32) :
    DirKept s (emitBoot chainHash env s reason prev) := by
  have kept := emitDirect_dirKept env chainHash s.tick
    (.boot ⟨(ask env s).wallclockMs, s.log.daemonPid, prev, reason⟩)
  exact ⟨kept.live, kept.events⟩

theorem openGeneration_dirKept (inode : Nat) (finalChain : Bytes32) (s : Sys) :
    DirKept s (openGeneration env chainHash inode finalChain s) := by
  unfold openGeneration
  dsimp only
  split
  · exact ⟨rfl, rfl⟩
  · have booted := emitBoot_dirKept env chainHash (headerWritten (swapSink inode s)) .rotation
      (some finalChain)
    have synced := syncGeneration_same env (emitBoot chainHash env
      (headerWritten (swapSink inode s)) .rotation (some finalChain))
    exact ⟨synced.live.trans booted.live, synced.events.trans booted.events⟩

end

/-- Only the step at the oldest generation can remove a file. -/
theorem shiftGeneration_events (g : Nat) (s : Sys) :
    (shiftGeneration env g s).2.fs.live = s.fs.live ∧
      ((shiftGeneration env g s).2.fs.events = s.fs.events ∨ g = auditRotationGenerations ∧
        (shiftGeneration env g s).2.fs.events = s.fs.events ++ [.oldestRemoved]) := by
  have step := shiftGeneration_cases env g s
  generalize shiftGeneration env g s = result at step
  cases step with
  | missing | failed | renamed => exact ⟨rfl, .inl rfl⟩
  | removed oldest _ => exact ⟨rfl, .inr ⟨oldest, rfl⟩⟩

/-- The live file was moved, or the live path was left alone. -/
def MoveTraced (s : Sys) : Except IoError Unit × Sys → Prop
  | (.ok (), t) => t.fs.events = s.fs.events ++ [.liveMoved]
  | (.error _, t) => DirKept s t

/-- With a live file, the move either happens or leaves it alone. -/
theorem LiveMove.traced {moved : Except IoError Unit × Sys} (move : LiveMove env s moved)
    (live : s.fs.live.isSome) : MoveTraced s moved := by
  cases move with
  | absent none => simp [none] at live
  | renamed _ => rfl
  | refused same => exact same.dirKept
  | @aborted t u first same copying f =>
    have cleaned : DirKept u (abortCopy env u f).2 := by
      unfold abortCopy Fs.cleanupFirst
      split <;> exact ⟨rfl, rfl⟩
    exact ⟨cleaned.live.trans (copying.live.trans same.live),
      cleaned.events.trans (copying.events.trans same.events)⟩
  | copied same _ copying _ => exact congrArg (· ++ [.liveMoved]) (copying.events.trans same.events)

/-! ### Rounds that can fail -/

/-- A round at `next_gen` ends in the abandon path: the rename fails, or the live file
cannot be moved after the last one. -/
def renameFails (nextGen : Nat) (s : Sys) : Bool :=
  match shiftGeneration env nextGen s with
  | (.error _, _) => true
  | (.ok (), s) =>
    -- only the last round goes on to the live file
    decide (nextGen ≤ 1) && match rotateLiveToFirst env s with
      | (.error _, _) => true
      | (.ok (), _) => false

/-- The round that starts in `s` does not abandon a rotation that has removed a
generation. The round reads the clock twice before it renames. -/
def roundKeeps (s : Sys) : Bool :=
  match s.log.rotationProgress with
  | .renaming nextGen => decide (¬ s.fs.Owed) || !renameFails env nextGen s.tick.tick
  | _ => true

variable (start budget : Nat) (chainHash : Option (Bytes32 → Bytes → Bytes → Bytes32))

/-- `roundKeeps` in every round of the loop. -/
def roundsKeep : Nat → Sys → Bool
  | 0, _ => true
  | fuel + 1, s => roundKeeps env s &&
    match driveRound env start budget chainHash s with
    | (some _, _) => true
    | (none, t) => roundsKeep fuel t

/-- `roundKeeps` in every round of one call. -/
def rotationKeeps (s : Sys) : Bool :=
  if s.log.rotationProgress = .idle ∧ s.log.needsRotation = false then true
  else
    let start := (ask env s).instant
    let s := s.tick
    let begun :=
      if s.log.rotationProgress = .idle then beginRotation env start budget s else (none, s)
    match begun with
    | (some _, _) => true
    | (none, s) => roundsKeep env start budget chainHash (s.log.rotationProgress.rank + 1) s

/-- The call does not give up a rotation that has removed a generation. -/
def opKeeps (s : Sys) : AuditOp → Bool
  | .driveAuditRotation budget => rotationKeeps env budget chainHash s
  | _ => true

end

/-! ### The invariant -/

/-- A removal is owed only while the rotation that made it is on its way. -/
structure Balanced (s : Sys) : Prop where
  live : s.log.rotationProgress ≠ .finalizing → s.fs.live.isSome
  owed : s.fs.Owed → ∃ g, g < auditRotationGenerations ∧ s.log.rotationProgress = .renaming g
  paid : s.fs.removals ≤ s.fs.moves + 1
  clear : ¬ s.fs.Owed → s.fs.removals ≤ s.fs.moves

section

variable (balanced : Balanced s)
include balanced

/-- Nothing is removed or moved. -/
theorem Balanced.of_events (events : t.fs.events = s.fs.events)
    (live : t.log.rotationProgress ≠ .finalizing → t.fs.live.isSome)
    (owed : s.fs.Owed → ∃ g < auditRotationGenerations, t.log.rotationProgress = .renaming g) :
    Balanced t where
  live := live
  owed := by rw [Fs.Owed, events]; exact owed
  paid := by rw [Fs.removals, Fs.moves, events]; exact balanced.paid
  clear := by rw [Fs.Owed, Fs.removals, Fs.moves, events]; exact balanced.clear

theorem Balanced.of_kept (kept : DirKept s t)
    (progress : t.log.rotationProgress = s.log.rotationProgress) : Balanced t := by
  refine balanced.of_events kept.events ?_ ?_
  · rw [progress, kept.live]
    exact balanced.live
  · rw [progress]
    exact balanced.owed

theorem Balanced.of_same (same : Moves s t) : Balanced t :=
  balanced.of_kept same.dirKept same.progress

/-- Without a debt the rotation may be anywhere. -/
theorem Balanced.of_clear (events : t.fs.events = s.fs.events) (free : ¬ s.fs.Owed)
    (live : t.log.rotationProgress ≠ .finalizing → t.fs.live.isSome) :
    Balanced t :=
  balanced.of_events events live fun debt => absurd debt free

/-- The move pays the debt. -/
theorem Balanced.of_move (events : t.fs.events = s.fs.events ++ [.liveMoved])
    (live : t.log.rotationProgress ≠ .finalizing → t.fs.live.isSome) : Balanced t := by
  have removals : t.fs.removals = s.fs.removals := by
    simp [Fs.removals, events]
  have moves : t.fs.moves = s.fs.moves + 1 := by
    simp [Fs.moves, events]
  -- one more move makes up for the removal that may have been owed
  have paid := balanced.paid
  refine ⟨live, ?_, by omega, fun _ => by omega⟩
  intro debt
  simp [Fs.Owed, events] at debt

/-- A removal without a debt makes one. -/
theorem Balanced.of_removal (events : t.fs.events = s.fs.events ++ [.oldestRemoved])
    (free : ¬ s.fs.Owed) {g : Nat} (below : g < auditRotationGenerations)
    (progress : t.log.rotationProgress = .renaming g) (live : t.fs.live.isSome) : Balanced t := by
  have removals : t.fs.removals = s.fs.removals + 1 := by
    simp [Fs.removals, events]
  have moves : t.fs.moves = s.fs.moves := by
    simp [Fs.moves, events]
  have clear := balanced.clear free
  refine ⟨fun _ => live, fun _ => ⟨g, below, progress⟩, by omega, fun settled => ?_⟩
  exact absurd (by simp [Fs.Owed, events]) settled

/-- Nothing is owed at the oldest generation or outside of the renames. -/
theorem Balanced.not_owed
    (settled : ∀ g, g < auditRotationGenerations → s.log.rotationProgress ≠ .renaming g) :
    ¬ s.fs.Owed := by
  intro debt
  obtain ⟨g, below, at_g⟩ := balanced.owed debt
  exact settled g below at_g

/-- A rename that removes nothing carries a debt on to the next one. -/
theorem Balanced.of_shift (at_gen : s.log.rotationProgress = .renaming nextGen)
    (events : t.fs.events = s.fs.events) (live : t.fs.live.isSome) :
    Balanced (t.setProgress (.renaming (nextGen - 1))) := by
  refine balanced.of_events events (fun _ => live) fun debt => ?_
  obtain ⟨g, below, at_g⟩ := balanced.owed debt
  rw [at_gen] at at_g
  -- the debt was made at a higher generation than this one
  cases at_g
  exact ⟨nextGen - 1, by omega, rfl⟩

end

section

variable (env : Nat → Answer) (start budget : Nat)
  (chainHash : Option (Bytes32 → Bytes → Bytes → Bytes32))

section

variable (balanced : Balanced s)
include balanced

/-- A round that renames a generation and goes on to the next one. -/
theorem shiftGeneration_balanced (at_gen : s.log.rotationProgress = .renaming nextGen)
    (more : 1 < nextGen) (ok : shiftGeneration env nextGen s.tick = (.ok (), t)) :
    Balanced (t.setProgress (.renaming (nextGen - 1))) := by
  have live : s.fs.live.isSome := balanced.live (by rw [at_gen]; simp)
  obtain ⟨kept, events⟩ := shiftGeneration_events env nextGen s.tick
  rw [ok] at kept events
  have present : t.fs.live.isSome := by rw [kept]; exact live
  rcases events with same | ⟨oldest, removed⟩
  · exact balanced.of_shift at_gen same present
  · -- the first rename of a rotation: nothing can be owed yet
    have free : ¬ s.fs.Owed := by
      refine balanced.not_owed fun g below at_g => ?_
      rw [at_gen] at at_g
      cases at_g
      omega
    refine balanced.of_removal removed free ?_ rfl present
    omega

/-- The last round of the renames, which moves the live file. -/
theorem moveLive_balanced (at_gen : s.log.rotationProgress = .renaming nextGen)
    (last : ¬ 1 < nextGen) (keeps : s.fs.Owed → renameFails env nextGen s.tick = false)
    (ok : shiftGeneration env nextGen s.tick = (.ok (), t)) :
    Balanced (match rotateLiveToFirst env t with
      | (.error e, u) => abandonRotation u e
      | (.ok (), u) => u.setProgress .finalizing) := by
  have live : s.fs.live.isSome := balanced.live (by rw [at_gen]; simp)
  obtain ⟨kept, events⟩ := shiftGeneration_events env nextGen s.tick
  rw [ok] at kept events
  have present : t.fs.live.isSome := by rw [kept]; exact live
  -- below the oldest generation nothing is removed
  have same : t.fs.events = s.fs.events := by
    rcases events with same | ⟨oldest, _⟩
    · exact same
    · rw [oldest] at last
      exact absurd (by decide) last
  have moved := (rotateLiveToFirst_cases env t).traced env present
  split
  next e u failed =>
    rw [failed] at moved
    -- the guard allows a failing move only where nothing is owed
    have free : ¬ s.fs.Owed := by
      intro debt
      have kept := keeps debt
      simp [renameFails, ok, failed] at kept
      omega
    refine balanced.of_clear (moved.events.trans same) free fun _ => ?_
    change u.fs.live.isSome
    rw [moved.live]
    exact present
  next u done =>
    rw [done] at moved
    have events : (u.setProgress .finalizing).fs.events = s.fs.events ++ [.liveMoved] := by
      rw [← same]
      exact moved
    exact balanced.of_move events fun elsewhere => absurd rfl elsewhere

/-- Giving up without a debt, or going on. -/
theorem driveRenaming_balanced (at_gen : s.log.rotationProgress = .renaming nextGen)
    (keeps : s.fs.Owed → renameFails env nextGen s.tick = false) :
    Balanced (driveRenaming env start budget nextGen s).2 := by
  have live : s.fs.live.isSome := balanced.live (by rw [at_gen]; simp)
  unfold driveRenaming
  split
  · exact (balanced.of_same (same_tick s)).of_same (same_exceedRotationBudget _)
  · split
    next e t failed =>
      -- the rename failed, and the guard says that nothing is owed
      obtain rfl := shiftGeneration_error env failed
      have free : ¬ s.fs.Owed := by
        intro debt
        have kept := keeps debt
        simp [renameFails, failed] at kept
      exact balanced.of_clear rfl free fun _ => live
    next t ok =>
      split
      next more => exact shiftGeneration_balanced env balanced at_gen more ok
      next last =>
        have moved := moveLive_balanced env balanced at_gen last keeps ok
        split
        next e u failed =>
          rw [failed] at moved
          exact moved
        next u done =>
          rw [done] at moved
          exact moved

/-- The `Finalizing` round happens after the debt is paid. -/
theorem driveFinalizing_balanced (finalizing : s.log.rotationProgress = .finalizing) :
    Balanced (driveFinalizing env start budget chainHash s).2 := by
  obtain same | ⟨u, fs, synced, -, -, -, created, opened⟩ :=
    driveFinalizing_cases env start budget chainHash s
  · exact balanced.of_same same
  · -- the new generation takes the live path again
    have now := balanced.of_same synced
    have kept := openGeneration_dirKept env chainHash u.fs.nextInode u.log.prevChain
      (Sys.tick { u with fs := fs })
    have free : ¬ u.fs.Owed := by
      refine now.not_owed fun g _ => ?_
      rw [synced.progress, finalizing]
      simp
    rw [opened]
    refine now.of_clear (kept.events.trans created.events) free fun _ => ?_
    rw [kept.live]
    change fs.live.isSome
    rw [created.live]
    rfl

theorem driveSyncingDir_balanced (syncing : s.log.rotationProgress = .syncingDir) :
    Balanced (driveSyncingDir env start budget s).2 := by
  have free : ¬ s.fs.Owed := balanced.not_owed fun g _ => by rw [syncing]; simp
  have live : s.fs.live.isSome := balanced.live (by rw [syncing]; simp)
  unfold driveSyncingDir
  split
  · exact (balanced.of_same (same_tick s)).of_same (same_exceedRotationBudget _)
  · dsimp only
    split <;> exact balanced.of_clear rfl free fun _ => live

theorem driveRound_balanced (keeps : roundKeeps env s = true) :
    Balanced (driveRound env start budget chainHash s).2 := by
  have ticked := balanced.of_same (same_tick s)
  unfold driveRound
  split
  · exact ticked.of_same (same_exceedRotationBudget _)
  · dsimp only
    split
    · exact ticked
    next g at_gen =>
      apply driveRenaming_balanced env start budget ticked at_gen
      intro debt
      have debtor : s.fs.Owed := debt
      rw [roundKeeps, show s.log.rotationProgress = .renaming g from at_gen] at keeps
      simpa [debtor] using keeps
    next finalizing => exact driveFinalizing_balanced env start budget chainHash ticked finalizing
    next syncing => exact driveSyncingDir_balanced env start budget ticked syncing

/-- By induction on the rounds. -/
theorem driveLoop_balanced {fuel : Nat}
    (keeps : roundsKeep env start budget chainHash fuel s = true) :
    Balanced (driveLoop env start budget chainHash fuel s).2 := by
  -- the guard of a call is the guard of its first round and of the rounds after it
  induction fuel generalizing s with
  | zero => exact balanced
  | succ fuel ih =>
    rw [roundsKeep, Bool.and_eq_true] at keeps
    obtain ⟨first, rest⟩ := keeps
    have round := driveRound_balanced env start budget chainHash balanced first
    rw [driveLoop]
    split
    next outcome t h =>
      rw [h] at round
      exact round
    next t h =>
      rw [h] at round rest
      exact ih round rest

theorem beginRotation_balanced (idle : s.log.rotationProgress = .idle) :
    Balanced (beginRotation env start budget s).2 := by
  have live : s.fs.live.isSome := balanced.live (by rw [idle]; simp)
  have free : ¬ s.fs.Owed := balanced.not_owed fun g _ => by rw [idle]; simp
  obtain same | ⟨u, synced, begun⟩ := beginRotation_cases env start budget s
  · exact balanced.of_same same
  · rw [begun]
    refine balanced.of_clear synced.events free fun _ => ?_
    change u.fs.live.isSome
    rw [synced.live]
    exact live

theorem driveAuditRotation_balanced (keeps : rotationKeeps env budget chainHash s = true) :
    Balanced (driveAuditRotation env budget chainHash s).2 := by
  unfold driveAuditRotation
  unfold rotationKeeps at keeps
  split
  · exact balanced
  next armed =>
    rw [if_neg armed] at keeps
    -- `rotationKeeps` follows the branches of the call it guards
    have ticked := balanced.of_same (same_tick s)
    have begun : Balanced (if s.tick.log.rotationProgress = .idle then
        beginRotation env (ask env s).instant budget s.tick else (none, s.tick)).2 := by
      split
      next idle => exact beginRotation_balanced env _ _ ticked idle
      next => exact ticked
    dsimp only at keeps ⊢
    split
    next outcome t h =>
      rw [h] at begun
      exact begun
    next t h =>
      rw [h] at begun keeps
      exact driveLoop_balanced env _ _ chainHash begun keeps

end

theorem applyOp_balanced (s : Sys) (op : AuditOp) (balanced : Balanced s)
    (keeps : opKeeps env chainHash s op = true) : Balanced (applyOp chainHash env s op) := by
  have emitted : ∀ entry, (emit chainHash s.log entry).rotationProgress = s.log.rotationProgress := by
    intro entry
    unfold emit formatRecord computeAndAdvanceChain
    cases chainHash <;> split <;> rfl
  cases op with
  | recordSpawn | recordRefused | recordComplete =>
    exact balanced.of_kept ⟨rfl, rfl⟩ (emitted _)
  | flushPending budget => exact balanced.of_same (flushPending_same env budget s)
  | driveAuditRotation budget => exact driveAuditRotation_balanced env budget chainHash balanced keeps

/-! ### Whole runs -/

theorem openLive_kept (fs : Fs) : fs.openLive.2.live = some fs.openLive.1 ∧
    fs.openLive.2.events = fs.events := by
  unfold Fs.openLive
  split
  next inode present => exact ⟨present, rfl⟩
  next => exact ⟨rfl, rfl⟩

theorem openProbed_kept {cfg : AuditConfig} {inode : Nat} {fs : Fs} {probe : TailProbe}
    (opened : openProbed env cfg inode fs probe = .ok s) :
    s.fs.live = fs.live ∧ s.fs.events = fs.events := by
  unfold openProbed at opened
  dsimp only at opened
  split at opened
  · cases opened
  · split at opened
    · cases opened
      cases probe.truncateTo <;> exact ⟨rfl, rfl⟩
    · split at opened
      · cases opened
      · cases opened
        cases probe.truncateTo <;> exact ⟨rfl, rfl⟩

/-- A log that has just been opened, over whatever directory, owes nothing. -/
theorem create_balanced {cfg : AuditConfig} {path : String} {nlink : Nat} {fs : Fs}
    {warnings : CreateWarnings} (untouched : fs.events = [])
    (opened : create chainHash env cfg path nlink fs = .ok (s, warnings)) : Balanced s := by
  obtain ⟨t, prev, probed, rfl⟩ := create_ok _ env opened
  obtain ⟨live, events⟩ := openProbed_kept env probed
  have path := openLive_kept fs
  have booted := emitBoot_dirKept env chainHash t
    (probeTailFile (fs.openLive.2.bytesOf fs.openLive.1)).reason prev
  -- opening leaves no trace in the directory
  have blank := booted.events.trans (events.trans (path.2.trans untouched))
  have present := booted.live.trans (live.trans path.1)
  refine ⟨fun _ => by rw [present]; rfl, fun debt => ?_, ?_, fun _ => ?_⟩
  · rw [Fs.Owed, blank] at debt
    cases debt
  · simp [Fs.removals, blank]
  · simp [Fs.removals, blank]

/-- In a run in which no rotation is given up after it has removed a generation, there is
at most one removal more than there are moves. -/
theorem run_removals_le {cfg : AuditConfig} {path : String} {nlink : Nat} {fs : Fs} {s : Sys}
    {warnings : CreateWarnings} (ops : List AuditOp) (untouched : fs.events = [])
    (opened : create chainHash env cfg path nlink fs = .ok (s, warnings))
    (keeps : Steps.Guarded (applyOp chainHash env) (fun s op => opKeeps env chainHash s op) s ops) :
    (Steps.run (applyOp chainHash env) s ops).fs.removals ≤
      (Steps.run (applyOp chainHash env) s ops).fs.moves + 1 := by
  have start := create_balanced env chainHash untouched opened
  exact (keeps.invariant (applyOp_balanced env chainHash) start).paid

end

/-! ### A live path that cannot be renamed -/

/-- Five rotated generations next to the live file. -/
def fullFs : Fs where
  live := some 0
  gen := fun g => if 1 ≤ g ∧ g ≤ auditRotationGenerations then some g else none
  files := fun _ => []
  nextInode := 6
  events := []

def fullLog (env : Nat → Answer) : Except CreateError (Sys × CreateWarnings) :=
  create none env smallConfig "audit" 1 fullFs

/-- `rename(PATH, PATH.1)` fails with `EACCES`, everything else succeeds. -/
def stuckAnswer : Answer := { quietAnswer with renameLive := some (.other 13) }

/-- The removals and moves of a run over the full directory. -/
def fullTrace (answer : Answer) (ops : List AuditOp) : Option (Nat × Nat) :=
  match fullLog fun _ => answer with
  | .ok (s, _) =>
    let t := Steps.run (applyOp none fun _ => answer) s ops
    some (t.fs.removals, t.fs.moves)
  | .error _ => none

set_option maxRecDepth 20000 in
/-- Two attempts at the same rotation remove two generations and move nothing. -/
theorem stuck_rotation_removes_twice :
    fullTrace stuckAnswer (fillAndRotate ++ fillAndRotate) = some (2, 0) ∧ ¬ 2 ≤ 0 + 1 := by
  decide +kernel

def fullRunKeeps (answer : Answer) (ops : List AuditOp) : Bool :=
  match fullLog fun _ => answer with
  | .ok (s, _) => decide (Steps.Guarded (applyOp none fun _ => answer)
      (fun s op => opKeeps (fun _ => answer) none s op) s ops)
  | .error _ => false

set_option maxRecDepth 20000 in
theorem run_removals_le_quiet :
    fullTrace quietAnswer (fillAndRotate ++ fillAndRotate) = some (2, 2) ∧
      ∃ s warnings, fullLog (fun _ => quietAnswer) = .ok (s, warnings) ∧
        ∃ t, t = Steps.run (applyOp none fun _ => quietAnswer) s (fillAndRotate ++ fillAndRotate) ∧
          t.fs.removals ≤ t.fs.moves + 1 := by
  refine ⟨by decide +kernel, ?_⟩
  have keeps : fullRunKeeps quietAnswer (fillAndRotate ++ fillAndRotate) = true := by
    decide +kernel
  unfold fullRunKeeps at keeps
  split at keeps
  next s warnings opened =>
    refine ⟨s, warnings, opened, _, rfl, ?_⟩
    exact run_removals_le _ none _ rfl opened (of_decide_eq_true keeps)
  next => cases keeps

end Varta.Audit
