import Varta.Audit.Writer

/-!
# Rotation

`drive_audit_rotation` of `audit/rotation.rs` and the directory operations under it.
-/
namespace Varta.Audit

open Machine
open Vlp (Bytes32)

/-! ### Directory operations -/

/-- `remove_file(PATH.5)`. -/
def Fs.removeOldest (fs : Fs) (answer : Answer) : Except IoError Unit × Fs :=
  match fs.gen auditRotationGenerations with
  | none => (.error .notFound, fs)
  | some _ =>
    match answer.removeFile with
    | some f => (.error (.fault f), fs)
    | none => (.ok (), { fs with
        gen := Function.update fs.gen auditRotationGenerations none
        events := fs.events ++ [.oldestRemoved] })

/-- `rename(PATH.g, PATH.(g+1))`. -/
def Fs.shift (fs : Fs) (g : Nat) (answer : Answer) : Except IoError Unit × Fs :=
  match fs.gen g with
  | none => (.error .notFound, fs)
  | some inode =>
    match answer.rename with
    | some f => (.error (.fault f), fs)
    | none => (.ok (), { fs with
        gen := Function.update (Function.update fs.gen (g + 1) (some inode)) g none })

/-- Make room at `next_gen`: unlink the oldest, or rename up by one. -/
def Fs.advance (fs : Fs) (nextGen : Nat) (answer : Answer) : Except IoError Unit × Fs :=
  if nextGen = auditRotationGenerations then fs.removeOldest answer else fs.shift nextGen answer

/-- `inode` is now `PATH.1` and there is no live path. -/
def Fs.liveToFirst (fs : Fs) (inode : Nat) : Fs :=
  { fs with
    live := none
    gen := Function.update fs.gen 1 (some inode)
    events := fs.events ++ [.liveMoved] }

/-- `rename(PATH, PATH.1)`. -/
def Fs.moveLive (fs : Fs) (answer : Answer) : Except IoError Unit × Fs :=
  match fs.live with
  | none => (.error .notFound, fs)
  | some inode =>
    match answer.renameLive with
    | some f => (.error (.fault f), fs)
    | none => (.ok (), fs.liveToFirst inode)

/-- A new, empty inode. -/
def Fs.fresh (fs : Fs) : Nat × Fs :=
  (fs.nextInode, { fs with
    files := Function.update fs.files fs.nextInode []
    nextInode := fs.nextInode + 1 })

/-- `create_new` at `PATH.1`. -/
def Fs.createFirst (fs : Fs) (answer : Answer) : Except IoError Nat × Fs :=
  match fs.gen 1 with
  | some _ => (.error .alreadyExists, fs)
  | none =>
    match answer.openFile with
    | some f => (.error (.fault f), fs)
    | none =>
      let (inode, fs) := fs.fresh
      (.ok inode, { fs with gen := Function.update fs.gen 1 (some inode) })

/-- `create_new` at the live path. -/
def Fs.createLive (fs : Fs) (answer : Answer) : Except IoError Nat × Fs :=
  match fs.live with
  | some _ => (.error .alreadyExists, fs)
  | none =>
    match answer.openFile with
    | some f => (.error (.fault f), fs)
    | none =>
      let (inode, fs) := fs.fresh
      (.ok inode, { fs with live := some inode })

/-- The best-effort removal of a `PATH.1` that could not be completed. -/
def Fs.cleanupFirst (fs : Fs) (answer : Answer) : Fs :=
  match answer.cleanup with
  | some _ => fs
  | none => { fs with gen := Function.update fs.gen 1 none }

section

variable (env : Nat → Answer)

/-- Give the copy up and try to remove what was created. -/
def abortCopy (s : Sys) (f : Fault) : Except IoError Unit × Sys :=
  (.error (.fault f), { s with fs := s.fs.cleanupFirst (ask env s) }.tick)

/-- Everything of the copy that follows the creation of `first`. -/
def copyInto (first : Nat) (s : Sys) : Except IoError Unit × Sys :=
  let source := s.fs.files s.log.sink.inode
  match (ask env s).copy with
  -- `io::copy` may have written part of the source before it failed
  | some f => abortCopy env { s with fs := s.fs.append first (source.take (ask env s).flushed) }.tick f
  | none =>
    let s := { s with fs := s.fs.append first source }.tick
    match (ask env s).syncAll with
    | some f => abortCopy env s.tick f
    | none =>
      let s := s.tick
      match (ask env s).removeFile with
      | some f => abortCopy env s.tick f
      | none =>
        -- `PATH.1` has been `first` since it was created
        (.ok (), { s with
          fs := s.fs.liveToFirst first
          log := { s.log with sink := ⟨first, []⟩ } }.tick)

/-- The `EXDEV` fallback: copy the live inode to a new `PATH.1`, unlink the live path and
re-point the sink. -/
def copyLiveToFirst (s : Sys) : Except IoError Unit × Sys :=
  match flushAndSync env s with
  | (.error e, s) => (.error e, s)
  | (.ok _, s) =>
    match (ask env s).cloneSource with
    | some f => (.error (.fault f), s.tick)
    | none =>
      let s := s.tick
      match s.fs.createFirst (ask env s) with
      | (.error e, fs) => (.error e, { s with fs := fs }.tick)
      | (.ok first, fs) => copyInto env first { s with fs := fs }.tick

def rotateLiveToFirst (s : Sys) : Except IoError Unit × Sys :=
  match s.fs.moveLive (ask env s) with
  | (.ok (), fs) => (.ok (), { s with fs := fs }.tick)
  | (.error e, fs) =>
    let s := { s with fs := fs }.tick
    -- no live file: there is nothing to move, and the rotation goes on
    if e = .notFound then (.ok (), s)
    -- only a rename across devices falls back to a copy
    else if e.isCrossDevice then copyLiveToFirst env s
    else (.error e, s)

/-- One generation step; a missing source counts as done. -/
def shiftGeneration (nextGen : Nat) (s : Sys) : Except IoError Unit × Sys :=
  match s.fs.advance nextGen (ask env s) with
  | (.ok (), fs) => (.ok (), { s with fs := fs }.tick)
  | (.error e, fs) =>
    if e = .notFound then (.ok (), { s with fs := fs }.tick)
    else (.error e, { s with fs := fs }.tick)

def exceedRotationBudget (s : Sys) : Sys :=
  { s with log := { s.log with
    auditRotationBudgetExceededTotal := u64SaturatingAdd s.log.auditRotationBudgetExceededTotal 1 } }

/-- Latch the error and give the rotation up. -/
def abandonRotation (s : Sys) (e : IoError) : Sys :=
  { s with log := { s.log with
    pendingErr := some e, rotationProgress := .idle, needsRotation := false } }

def Sys.setProgress (s : Sys) (progress : RotationProgress) : Sys :=
  { s with log := { s.log with rotationProgress := progress } }

def Sys.latch (s : Sys) (e : IoError) : Sys :=
  { s with log := { s.log with pendingErr := some e } }

variable (start budget : Nat)

/-- The `Renaming` arm; `none` is the loop going round. -/
def driveRenaming (nextGen : Nat) (s : Sys) : Option RotationOutcome × Sys :=
  -- the round that moves the live file needs some budget left
  if nextGen = 1 ∧ (ask env s).instant - start ≥ budget then
    (some .deferred, exceedRotationBudget s.tick)
  else
    match shiftGeneration env nextGen s.tick with
    | (.error e, s) => (some .complete, abandonRotation s e)
    | (.ok (), s) =>
      if nextGen > 1 then (none, s.setProgress (.renaming (nextGen - 1)))
      else
        match rotateLiveToFirst env s with
        | (.error e, s) => (some .complete, abandonRotation s e)
        | (.ok (), s) => (none, s.setProgress .finalizing)

variable (chainHash : Option (Bytes32 → Bytes → Bytes → Bytes32))

def swapSink (inode : Nat) (s : Sys) : Sys :=
  { s with log := { s.log with sink := ⟨inode, []⟩, bytesWritten := 0, writesSinceSync := 0 } }

/-- The header is in the buffer; the boot record's own cadence sync is put off, the sync
right after it covers both. -/
def headerWritten (s : Sys) : Sys :=
  let s := (bufWrite s (.raw auditHeaderV2)).tick
  { s with log := { s.log with
    bytesWritten := auditHeaderV2.length, deferredFsyncInDrain := true } }

def syncGeneration (s : Sys) : Sys :=
  match flushAndSync env s with
  | (.error e, s) => (s.latch e).setProgress .syncingDir
  | (.ok _, s) => { s with log := { s.log with writesSinceSync := 0 } }.setProgress .syncingDir

/-- The new generation from the sink swap to its boot record, which nothing interrupts. -/
def openGeneration (inode : Nat) (finalChain : Bytes32) (s : Sys) : Sys :=
  let s := swapSink inode s
  match (ask env s).headerWrite with
  | some f => (s.tick.latch (.fault f)).setProgress .syncingDir
  | none =>
    syncGeneration env (emitBoot chainHash env (headerWritten s) .rotation (some finalChain))

/-- The `Finalizing` arm. -/
def driveFinalizing (s : Sys) : Option RotationOutcome × Sys :=
  let s := { s with log := { s.log with deferredFsyncInDrain := false } }
  match drainLines env start budget s.log.pendingLines s with
  | (.budget, s) => (some .deferred, exceedRotationBudget s)
  | (.rejected, s) => (some .deferred, s)
  | (.empty, s) =>
    if (ask env s).instant - start ≥ budget then (some .deferred, exceedRotationBudget s.tick)
    else
      let s := s.tick
      -- the chain of the last record of this file, named by the next boot record
      let finalChain := s.log.prevChain
      match flushAndSync env s with
      | (.error e, s) => (some .deferred, s.latch e)
      | (.ok _, s) =>
        match s.fs.createLive (ask env s) with
        -- no new live file yet: the sink stays on `PATH.1` and the next call tries again
        | (.error e, fs) => (some .deferred, { s with fs := fs }.tick.latch e)
        | (.ok inode, fs) =>
          (none, openGeneration env chainHash inode finalChain { s with fs := fs }.tick)

/-- The `SyncingDir` arm. -/
def driveSyncingDir (s : Sys) : Option RotationOutcome × Sys :=
  if (ask env s).instant - start ≥ budget then (some .deferred, exceedRotationBudget s.tick)
  else
    let s := s.tick
    let synced := match (ask env s).syncDir with
      | some f => s.tick.latch (.fault f)
      | none => s.tick
    -- a failed directory sync is latched, but the rotation is over
    (some .complete, { synced with log := { synced.log with
      rotationProgress := .idle, needsRotation := false } })

/-- One round of the loop. -/
def driveRound (s : Sys) : Option RotationOutcome × Sys :=
  -- a strict comparison, unlike the checks inside the arms
  if (ask env s).instant - start > budget then (some .deferred, exceedRotationBudget s.tick)
  else
    let s := s.tick
    match s.log.rotationProgress with
    | .idle => (some .complete, s)
    | .renaming nextGen => driveRenaming env start budget nextGen s
    | .finalizing => driveFinalizing env start budget chainHash s
    | .syncingDir => driveSyncingDir env start budget s

/-- The loop, for at most `fuel` rounds. -/
def driveLoop : Nat → Sys → RotationOutcome × Sys
  | 0, s => (.deferred, s)
  | fuel + 1, s =>
    match driveRound env start budget chainHash s with
    | (some outcome, s) => (outcome, s)
    | (none, s) => driveLoop fuel s

/-- Rounds left until the loop must return. -/
def RotationProgress.rank : RotationProgress → Nat
  | .idle => 0
  | .syncingDir => 1
  | .finalizing => 2
  | .renaming nextGen => nextGen + 3

/-- Drain the ring and sync the file that is about to be rotated. -/
def beginRotation (s : Sys) : Option RotationOutcome × Sys :=
  let s := { s with log := { s.log with deferredFsyncInDrain := false } }
  match drainLines env start budget s.log.pendingLines s with
  | (.budget, s) => (some .deferred, exceedRotationBudget s)
  | (.rejected, s) => (some .deferred, s)
  | (.empty, s) =>
    match flushAndSync env s with
    | (.error e, s) => (some .deferred, s.latch e)
    | (.ok _, s) => (none, s.setProgress (.renaming auditRotationGenerations))

def driveAuditRotation (s : Sys) : RotationOutcome × Sys :=
  if s.log.rotationProgress = .idle ∧ s.log.needsRotation = false then (.notNeeded, s)
  else
    let start := (ask env s).instant
    let s := s.tick
    let begun :=
      -- a rotation put off by an earlier call is taken up where it stopped
      if s.log.rotationProgress = .idle then beginRotation env start budget s else (none, s)
    match begun with
    | (some outcome, s) => (outcome, s)
    | (none, s) => driveLoop env start budget chainHash (s.log.rotationProgress.rank + 1) s

/-! ### Termination -/

@[simp] theorem Sys.setProgress_progress (s : Sys) (progress : RotationProgress) :
    (s.setProgress progress).log.rotationProgress = progress := rfl

theorem openGeneration_progress (inode : Nat) (finalChain : Bytes32) (s : Sys) :
    (openGeneration env chainHash inode finalChain s).log.rotationProgress = .syncingDir := by
  unfold openGeneration
  dsimp only
  split
  · rfl
  · unfold syncGeneration
    split <;> rfl

theorem driveRenaming_rank {nextGen : Nat} {s t : Sys}
    (more : driveRenaming env start budget nextGen s = (none, t)) :
    t.log.rotationProgress.rank < nextGen + 3 := by
  unfold driveRenaming at more
  repeat' split at more
  -- the branches that go on lead to a lower generation or to none
  all_goals cases more
  all_goals simp only [Sys.setProgress_progress, RotationProgress.rank]
  all_goals omega

theorem driveFinalizing_rank {s t : Sys}
    (more : driveFinalizing env start budget chainHash s = (none, t)) :
    t.log.rotationProgress.rank < 2 := by
  unfold driveFinalizing at more
  dsimp only at more
  repeat' split at more
  -- only the branch that opened the new generation lets the loop go on
  all_goals cases more
  rw [openGeneration_progress]
  decide

/-- A round after which the loop goes on has come closer to the end. -/
theorem driveRound_rank {s t : Sys} (more : driveRound env start budget chainHash s = (none, t)) :
    t.log.rotationProgress.rank < s.log.rotationProgress.rank := by
  unfold driveRound at more
  split at more
  · cases more
  · dsimp only at more
    split at more
    · cases more
    next nextGen at_gen =>
      rw [show s.log.rotationProgress = .renaming nextGen from at_gen]
      exact driveRenaming_rank env start budget more
    next finalizing =>
      rw [show s.log.rotationProgress = .finalizing from finalizing]
      exact driveFinalizing_rank env start budget chainHash more
    next =>
      unfold driveSyncingDir at more
      split at more <;> cases more

/-- The loop does not run out of the rounds it is given: one of the first `rank + 1` rounds returns,
and that is what the loop returns, also with more rounds. -/
theorem driveLoop_returns (s : Sys) :
    ∃ rounds ≤ s.log.rotationProgress.rank, ∃ outcome t,
      driveRound env start budget chainHash
          ((fun s => (driveRound env start budget chainHash s).2)^[rounds] s) = (some outcome, t) ∧
        ∀ more, driveLoop env start budget chainHash (s.log.rotationProgress.rank + 1 + more) s =
          (outcome, t) := by
  induction rank : s.log.rotationProgress.rank using Nat.strongRecOn generalizing s with
  | ind n ih =>
    cases round : driveRound env start budget chainHash s with
    | mk answer t =>
      cases answer with
      | some outcome =>
        refine ⟨0, Nat.zero_le _, outcome, t, round, fun more => ?_⟩
        rw [Nat.add_right_comm, driveLoop, round]
      | none =>
        have closer := rank ▸ driveRound_rank env start budget chainHash round
        obtain ⟨rounds, within, outcome, u, returns, same⟩ := ih _ closer t rfl
        refine ⟨rounds + 1, Nat.lt_of_le_of_lt within closer, outcome, u, ?_, fun more => ?_⟩
        · rw [Function.iterate_succ_apply, round]
          exact returns
        -- the loop goes on from `t` with more rounds than its rank
        · obtain ⟨left, rfl⟩ := Nat.exists_eq_add_of_le closer
          rw [Nat.add_right_comm, driveLoop, round, Nat.add_assoc]
          exact same _

end

end Varta.Audit
