import Varta.Lib.Steps
import Varta.Watch.RecoveryChild

/-!
# The bounds of a capture

`drain_outstanding_capture` takes what the pipes of a child have, up to the budget of a tick and
to the cap on both streams together. Once the cap is reached the pipes are closed for good.
-/
namespace Varta.Watch

open Machine

section

variable (env : Nat → Answer) {cap : Nat}

/-- The loop is over after as many rounds as the budget has bytes, and one. -/
theorem drainCaptureStream_rounds (cap : Nat) {rounds : Nat} {s : CaptureStream} (w : World)
    (enough : s.budget < rounds) (more : Nat) :
    drainCaptureStream env cap (rounds + more) s w = drainCaptureStream env cap rounds s w := by
  induction rounds generalizing s w with
  | zero => cases enough
  | succ rounds ih =>
    rw [Nat.succ_add, drainCaptureStream, drainCaptureStream]
    split
    · rfl
    split
    · rfl
    split
    · rfl
    dsimp only
    split
    next n answered =>
      split
      · rfl
      next some =>
        split
        · rfl
        -- the round has taken at least one byte from the budget
        · refine ih _ ?_
          dsimp only
          omega
    · rfl

/-- Some bytes come in, at most as many as the budget allows and the cap leaves room for. -/
structure Drains (cap : Nat) (s t : CaptureStream) : Prop where
  read : ∃ n, t.capturedLen = s.capturedLen + n ∧ t.total = s.total + n ∧ t.budget + n = s.budget
  within : t.total ≤ cap
  noticed : (s.total = cap → s.truncated = true ∨ 0 < s.budget) → t.total = cap → t.truncated = true

theorem drainCaptureStream_drains (fits : cap < 2 ^ 32) (rounds : Nat) {s : CaptureStream} (w : World)
    (enough : s.budget < rounds) (within : s.total ≤ cap) (counted : s.capturedLen ≤ s.total) :
    Drains cap s (drainCaptureStream env cap rounds s w).1 := by
  induction rounds generalizing s w with
  | zero => cases enough
  | succ rounds ih =>
    rw [drainCaptureStream]
    split
    next spent =>
      refine ⟨⟨0, rfl, rfl, rfl⟩, within, fun ready full => ?_⟩
      simp only [Bool.or_eq_true, beq_iff_eq] at spent
      rcases ready full with done | left
      · exact done
      · exact spent.resolve_right (Nat.ne_of_gt left)
    split
    · exact ⟨⟨0, rfl, rfl, rfl⟩, within, fun _ _ => rfl⟩
    next room =>
    have idle (t : CaptureStream) (total : t.total = s.total) (same : t.capturedLen = s.capturedLen)
        (budget : t.budget = s.budget) : Drains cap s t :=
      ⟨⟨0, same, total, budget⟩, total ▸ within, fun _ full => absurd (total ▸ full.ge) room⟩
    split
    · exact idle _ rfl rfl rfl
    dsimp only
    split
    next n answered =>
      split
      · exact idle _ rfl rfl rfl
      next some =>
      generalize got : min n (min (min (cap - s.total) s.budget) captureBufferLen) = k at some ⊢
      have plain : u32SaturatingAdd s.capturedLen k = s.capturedLen + k := by
        rw [u32SaturatingAdd]
        omega
      rw [plain]
      split
      · exact ⟨⟨k, rfl, rfl, by dsimp only; omega⟩, by dsimp only; omega, fun _ _ => rfl⟩
      next left =>
        obtain ⟨⟨m, length, total, budget⟩, below, noticed⟩ :=
          @ih ⟨s.handle, s.capturedLen + k, s.total + k, s.budget - k, s.truncated⟩ w.tick
            (by dsimp only; omega) (by dsimp only; omega) (by dsimp only; omega)
        dsimp only at length total budget left noticed
        refine ⟨⟨k + m, by omega, by omega, by omega⟩, below, fun _ => noticed fun full => ?_⟩
        exact absurd full.ge left
    · split <;> exact idle _ rfl rfl rfl

namespace Outstanding

/-- The bytes that were captured of both streams. -/
def captured (entry : Outstanding) : Nat := entry.stdoutLen + entry.stderrLen

variable {entry : Outstanding}

/-- What has been truncated stays as it is. -/
theorem drainCapture_truncated (positive : cap ≠ 0) (truncated : entry.truncated = true) (w : World) :
    (entry.drainCapture env cap w).1 = entry.closeCaptureHandles := by
  rw [drainCapture, if_neg positive, if_pos truncated]

theorem drainCapture_live (fits : cap < 2 ^ 32) (positive : cap ≠ 0) (within : entry.captured ≤ cap)
    (live : ¬ entry.truncated = true) {t : Outstanding} {w w' : World}
    (drained : entry.drainCapture env cap w = (t, w')) :
    ∃ n ≤ captureDrainBytesPerTick, t.captured = entry.captured + n ∧ entry.captured + n ≤ cap ∧
      (entry.captured + n = cap → t.truncated = true) ∧
      (t.truncated = true → t.stdoutHandle = false ∧ t.stderrHandle = false) := by
  have before : entry.captured = entry.stdoutLen + entry.stderrLen := rfl
  rw [drainCapture, if_neg positive, if_neg live] at drained
  extract_lets total at drained
  split at drained
  next out w₁ ranOut =>
  split at drained
  next err w₂ ranErr =>
  dsimp only at drained
  have first := drainCaptureStream_drains env fits (captureDrainBytesPerTick + 1)
    (s := ⟨entry.stdoutHandle, entry.stdoutLen, entry.stdoutLen + entry.stderrLen,
      captureDrainBytesPerTick, false⟩) w (Nat.lt_succ_self _) within (Nat.le_add_right ..)
  rw [ranOut] at first
  obtain ⟨⟨n, outLen, outTotal, outBudget⟩, outWithin, outNoticed⟩ := first
  dsimp only at outLen outTotal outBudget outWithin outNoticed
  have second := drainCaptureStream_drains env fits (captureDrainBytesPerTick + 1)
    (s := ⟨entry.stderrHandle, entry.stderrLen, out.total, out.budget, out.truncated⟩) w₁
    (by dsimp only; omega) outWithin (by dsimp only; omega)
  rw [ranErr] at second
  obtain ⟨⟨m, errLen, errTotal, errBudget⟩, errWithin, errNoticed⟩ := second
  dsimp only at errLen errTotal errBudget errWithin errNoticed
  -- stderr starts with an empty budget and a full capture only if stdout has noticed
  have noticed : entry.captured + (n + m) = cap → err.truncated = true := by
    intro full
    refine errNoticed (fun reached => .inl (outNoticed (fun _ => .inr ?_) reached)) (by omega)
    decide
  split at drained
  next truncated =>
    cases drained
    refine ⟨n + m, by omega, ?_, by omega, fun _ => truncated, fun _ => ⟨rfl, rfl⟩⟩
    simp only [captured, closeCaptureHandles]
    omega
  next not =>
    cases drained
    refine ⟨n + m, by omega, ?_, by omega, noticed, fun truncated => absurd truncated not⟩
    simp only [captured]
    omega

/-- A capture with a cap is bounded in each tick and as a whole, and ends for good when it is
full. -/
theorem capture_bounded (cap : UInt32) (positive : cap ≠ 0) (entry : Outstanding)
    (within : entry.captured ≤ cap.toNat) (w : World) :
    let t := (entry.drainCapture env cap.toNat w).1
    (∀ s w more, s.budget ≤ captureDrainBytesPerTick →
      drainCaptureStream env cap.toNat (captureDrainBytesPerTick + 1 + more) s w =
        drainCaptureStream env cap.toNat (captureDrainBytesPerTick + 1) s w) ∧
      (∃ n ≤ captureDrainBytesPerTick, t.captured = entry.captured + n) ∧
      t.captured ≤ cap.toNat ∧ (t.captured = cap.toNat → t.truncated = true) ∧
      (t.truncated = true → t.stdoutHandle = false ∧ t.stderrHandle = false ∧
        ∀ ticks, Steps.run (fun e w => (e.drainCapture env cap.toNat w).1) t ticks = t) := by
  intro t
  have some : cap.toNat ≠ 0 := fun none => positive (UInt32.toNat_inj.mp none)
  have rounds : ∀ s w more, s.budget ≤ captureDrainBytesPerTick →
      drainCaptureStream env cap.toNat (captureDrainBytesPerTick + 1 + more) s w =
        drainCaptureStream env cap.toNat (captureDrainBytesPerTick + 1) s w :=
    fun s w more budget => drainCaptureStream_rounds env _ w (Nat.lt_succ_of_le budget) more
  have ended {e : Outstanding} (truncated : e.truncated = true) (out : e.stdoutHandle = false)
      (err : e.stderrHandle = false) (ticks : List World) :
      Steps.run (fun e w => (e.drainCapture env cap.toNat w).1) e ticks = e := by
    have closed : e.closeCaptureHandles = e := by
      cases e
      cases out
      cases err
      rfl
    induction ticks with
    | nil => rfl
    | cons w ticks ih =>
      rw [Steps.run_cons, drainCapture_truncated env some truncated w, closed]
      exact ih
  refine ⟨rounds, ?_⟩
  by_cases truncated : entry.truncated = true
  · have closed : t = entry.closeCaptureHandles := drainCapture_truncated env some truncated w
    rw [closed]
    exact ⟨⟨0, Nat.zero_le _, rfl⟩, within, fun _ => truncated,
      fun _ => ⟨rfl, rfl, ended truncated rfl rfl⟩⟩
  · obtain ⟨n, few, read, below, noticed, closed⟩ :=
      drainCapture_live env cap.toNat_lt some within truncated rfl
    refine ⟨⟨n, few, read⟩, read ▸ below, fun full => noticed (read ▸ full), fun done => ?_⟩
    obtain ⟨out, err⟩ := closed done
    exact ⟨out, err, ended done out err⟩

/-- A child with two open pipes, of which nothing has been read. -/
def piped : Outstanding :=
  ⟨⟨0, 100⟩, 0, false, none, 0, true, true, 0, 0, false, none, none⟩

/-- Pipes that have five bytes for every read. -/
def chatty (_ : Nat) : Answer :=
  ⟨0, 0, .ok ⟨100, true⟩, true, .ok none, .ok (), .ok 5⟩

theorem capture_bounded_chatty :
    let t := (piped.drainCapture chatty 8 ⟨0, []⟩).1
    t.captured = 8 ∧ t.truncated = true ∧ t.stdoutHandle = false ∧ t.stderrHandle = false ∧
      ∀ ticks, Steps.run (fun e w => (e.drainCapture chatty 8 w).1) t ticks = t := by
  intro t
  have full : t.captured = 8 := by decide
  obtain ⟨-, -, -, noticed, ended⟩ :=
    capture_bounded chatty 8 (by decide) piped (Nat.zero_le _) ⟨0, []⟩
  exact ⟨full, noticed full, ended (noticed full)⟩

/-- A cap of zero turns the capture off: nothing is read, and nothing is cut off. -/
theorem capture_off_not_truncated :
    ¬∀ (env : Nat → Answer) (cap : UInt32) (entry : Outstanding), entry.captured ≤ cap.toNat →
      ∀ w, (entry.drainCapture env cap.toNat w).1.captured = cap.toNat →
        (entry.drainCapture env cap.toNat w).1.truncated = true := by
  intro all
  have truncated := all chatty 0 piped (Nat.zero_le _) ⟨0, []⟩ rfl
  exact absurd truncated (by decide)

end Outstanding

end

end Varta.Watch
