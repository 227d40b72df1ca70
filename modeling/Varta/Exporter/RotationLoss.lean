import Varta.Exporter.Retention

/-!
# What the exporter's rotations remove

A rotation removes an existing `PATH.5` first and moves the live file last. What fails in between
has removed a generation for nothing, and since the live file is still full, the next line rotates
again. Every removal is paid for by a move or by such a failure.
-/
namespace Varta.Exporter

open Audit (DirEvent)

/-- `PATH.5` is removed, and the rotation fails later. -/
def wastesRemoval (a : Answers) (fs : Files Path Piece) : Bool :=
  removesOldest a fs && rotationFails a fs

def opWastesRemoval (s : Sys) (op : Op) : Bool :=
  (op.rotation s).any fun (a, t) => wastesRemoval a t.fs

theorem Writes.events {s t : Sys} (writes : Writes s t) : t.events = s.events := by
  induction writes with
  | refl => rfl
  | handOver n before ih => exact ih
  | adjust before same ih => exact same.events.trans ih

theorem reopenLive_events (a : Answers) (s : Sys) : (reopenLive a s).2.events = s.events := by
  rcases reopenLive_cases a s with ⟨_, n, same⟩ | ⟨_, missing⟩
  · exact same.events
  · exact missing.events

theorem Removed.removals_le {a : Answers} {s t : Sys} {rest : List DirEvent}
    (removed : Removed a s t rest) (quiet : rest.count .oldestRemoved = 0) :
    t.removals ≤ s.removals + (removesOldest a s.fs).toNat := by
  unfold Sys.removals
  rcases removed with events | ⟨there, events⟩
  · rw [events, List.count_append, quiet]
    exact Nat.le_add_right _ _
  · rw [events, there, List.count_append, List.count_cons_self, quiet]
    exact Nat.le_refl _

/-- One rotation: what it removes is paid for, or wasted. -/
theorem afterRotation_pays {s : Sys} (a : Answers) (opened : Opened s)
    (idle : s.exporter.rotationReopenPending = false) :
    (afterRotation a s).removals + s.moves ≤
      s.removals + (afterRotation a s).moves + (wastesRemoval a s.fs).toNat := by
  have outcome := rotate_isOk a (opened.live idle)
  unfold afterRotation
  rcases rotate_cases a (opened.live idle) opened.below with
    ⟨e, t, failed, shuffled, removed⟩ | ⟨t, done, rotated, removed⟩
  · rw [failed] at outcome ⊢
    have fails : rotationFails a s.fs = true := (Bool.not_eq_eq_eq_not ..).mp outcome.symm
    have removals := removed.removals_le rfl
    rw [wastesRemoval, fails, Bool.and_true]
    change t.removals + s.moves ≤ s.removals + t.moves + _
    rw [shuffled.moves]
    omega
  · rw [done]
    -- one removal at most, and the move pays for it
    have removals := removed.removals_le rfl
    have moves := rotated.moves
    have once := Bool.toNat_le (removesOldest a s.fs)
    unfold Sys.removals Sys.moves at *
    dsimp only
    rw [reopenLive_events]
    omega

/-- Step lemma: one call. -/
theorem applyOp_pays (s : Sys) (op : Op) (opened : Opened s) :
    (applyOp s op).removals + s.moves ≤
      s.removals + (applyOp s op).moves + (opWastesRemoval s op).toNat := by
  have called := applyOp_called s op
  unfold opWastesRemoval
  generalize op.rotation s = rotation at called
  generalize applyOp s op = t at called
  cases called with
  | wrote writes =>
    unfold Sys.removals Sys.moves
    rw [writes.events]
    exact Nat.le_add_right _ _
  | reopened a writes pending =>
    unfold Sys.removals Sys.moves
    rw [reopenLive_events, writes.events]
    exact Nat.le_add_right _ _
  | @rotated u a writes idle empty =>
    have pays := afterRotation_pays a (opened.writes writes) idle
    have removals : u.removals = s.removals := congrArg (List.count _) writes.events
    have moves : u.moves = s.moves := congrArg (List.count _) writes.events
    rw [removals, moves] at pays
    exact pays

/-- Removals exceed the moves by one at most, if no second rotation fails after it has removed
`PATH.5`. -/
theorem exporter_removals_le {o : OpenAnswers} {maxBytes : Option Nat} {syncEvery : Nat}
    {fs : Files Path Bytes} {s : Sys} (wf : fs.Wf)
    (made : create o maxBytes syncEvery fs = .ok s) (ops : List Op)
    (once : Steps.count applyOp opWastesRemoval s ops ≤ 1) :
    (Steps.run applyOp s ops).removals ≤ (Steps.run applyOp s ops).moves + 1 := by
  have fresh := create_fresh wf made
  have paid := Steps.spent_le_earned_add_count Opened.applyOp applyOp_pays ops fresh.toOpened
  have removals : s.removals = 0 := congrArg (List.count _) fresh.events
  rw [removals] at paid
  omega

/-! ### A live file that cannot be moved -/

/-- The live file cannot be renamed, and not for being on another device. -/
def moveFails : Answers := { quietAnswers with renameLive := some (.other 13) }

def removalsAndMoves (generations : Nat) (ops : List Op) : Option (Nat × Nat) :=
  match fullExporter generations with
  | .ok s => some ((Steps.run applyOp s ops).removals, (Steps.run applyOp s ops).moves)
  | .error _ => none

set_option maxRecDepth 20000 in
/-- The second attempt removes the generation that the first one has shifted to `PATH.5`. -/
theorem failed_moves_remove_twice :
    removalsAndMoves 5 [beatLine 1 moveFails, beatLine 2 moveFails] = some (2, 0) := by
  decide +kernel

def wastedRemovals (generations : Nat) (ops : List Op) : Option Nat :=
  match fullExporter generations with
  | .ok s => some (Steps.count applyOp opWastesRemoval s ops)
  | .error _ => none

set_option maxRecDepth 20000 in
theorem exporter_removals_le_oneFailure :
    removalsAndMoves 5 [beatLine 1 moveFails, beatLine 2 quietAnswers] = some (2, 1) ∧
      ∃ s, fullExporter 5 = .ok s ∧
        (Steps.run applyOp s [beatLine 1 moveFails, beatLine 2 quietAnswers]).removals ≤
          (Steps.run applyOp s [beatLine 1 moveFails, beatLine 2 quietAnswers]).moves + 1 := by
  refine ⟨by decide +kernel, ?_⟩
  have wasted : wastedRemovals 5 [beatLine 1 moveFails, beatLine 2 quietAnswers] = some 1 := by
    decide +kernel
  unfold wastedRemovals at wasted
  split at wasted
  next s made =>
    exact ⟨s, made, exporter_removals_le (fullDirectory_wf 5) made _
      (Nat.le_of_eq (Option.some.inj wasted))⟩
  next => cases wasted

end Varta.Exporter
