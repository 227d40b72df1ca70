import Varta.Watch.TrackerStructure

/-!
# Trust in the origin of a slot

A tracker that remembers, for each pid, the beats its slot has taken since it was made. The
slot's origin is the origin of all of them. It becomes a weaker one only where a start time
proves that the pid belongs to another process.
-/
namespace Varta.Watch.Tracker

/-- The beat makes the slot of its pid anew: `Slot::from_frame`. -/
def recreates (t : Tracker) (b : Arrival) : Bool :=
  match t.slotOf b.frame.pid with
  | none => true
  | some slot =>
    match slot.record b with
    | .recycle _ => true
    | .replace _ => true
    | _ => false

structure Remembering where
  tracker : Tracker
  /-- The beats accepted into the slot of a pid since it was made. -/
  since : UInt32 → List Arrival

def Remembering.step (w : Remembering) : Action → Remembering
  | .record b =>
    let (update, t) := w.tracker.recordWithGeneration b
    let beats := if w.tracker.recreates b then [b] else w.since b.frame.pid ++ [b]
    ⟨t, if update.accepted then Function.update w.since b.frame.pid beats else w.since⟩
  | a => ⟨w.tracker.step a, w.since⟩

/-! ### One beat -/

section

variable {t : Tracker} {b : Arrival} {slot slot' : Slot}

theorem trustRank_lt_of_canReplace {origin pinned : BeatOrigin}
    (stronger : origin.canReplace pinned = true) : pinned.trustRank < origin.trustRank := by
  simpa [BeatOrigin.canReplace] using stronger

/-- The slot that a beat leaves for its pid, where there was one. -/
theorem record_own (wf : t.Wf) (known : t.slotOf b.frame.pid = some slot) :
    (t.recordWithGeneration b).1 = (slot.record b).answer ∧
      (t.recordWithGeneration b).2.slotOf b.frame.pid = some ((slot.record b).slot?.getD slot) := by
  refine ⟨recordWithGeneration_known wf known, ?_⟩
  have answer := recordWithGeneration_known wf known
  cases (recordWithGeneration_spec wf b).2 with
  | refused rejected same =>
    rw [same.slotOf, known]
    rw [answer, SlotUpdate.answer_accepted, Option.isSome_eq_false_iff, Option.isNone_iff_eq_none]
      at rejected
    simp [rejected]
  | updated known' recorded _ after =>
    rw [known] at known'
    cases known'
    simp [after, recorded]
  | inserted unknown =>
    rw [known] at unknown
    cases unknown

/-- A slot for a new pid is made by the beat. -/
theorem record_unknown (wf : t.Wf) (unknown : t.slotOf b.frame.pid = none)
    (known' : (t.recordWithGeneration b).2.slotOf b.frame.pid = some slot') :
    (t.recordWithGeneration b).1.accepted = true ∧ slot' = Slot.fromFrame b := by
  cases (recordWithGeneration_spec wf b).2 with
  | refused _ same =>
    rw [same.slotOf, unknown] at known'
    cases known'
  | updated known =>
    rw [unknown] at known
    cases known
  | inserted _ answer _ _ after =>
    rw [answer]
    exact ⟨rfl, by simpa [after, eq_comm] using known'⟩

/-- A beat changes no other slot but by evicting it. -/
theorem record_other (wf : t.Wf) {pid : UInt32} (other : pid ≠ b.frame.pid)
    (known' : (t.recordWithGeneration b).2.slotOf pid = some slot') : t.slotOf pid = some slot' := by
  cases (recordWithGeneration_spec wf b).2 with
  | refused _ same => rwa [same.slotOf] at known'
  | updated _ _ _ after => simpa [after, other] using known'
  | inserted _ _ victim _ after =>
    simp only [after, other, if_false] at known'
    split at known'
    · cases known'
    · exact known'

/-- Without a change of the start time the origin stays or becomes stronger. -/
theorem record_trustRank (own : slot.generationMismatch b.generation = false) :
    slot.origin.trustRank ≤ ((slot.record b).slot?.getD slot).origin.trustRank := by
  have shape := Slot.recordShape slot b
  cases recorded : slot.record b with
  | recycle new =>
    rw [recorded] at shape
    obtain ⟨reason, rfl⟩ := shape
    -- without a change of the start time only a network beat of the same origin recycles
    simp only [own, Bool.false_eq_true, false_or, Slot.networkRecycles, Bool.and_eq_true,
      decide_eq_true_eq] at reason
    simp [SlotUpdate.slot?, Slot.fromFrame, reason.1.1.1.1.1.2]
  | replace new =>
    rw [recorded] at shape
    obtain ⟨⟨_, stronger⟩, rfl⟩ := shape
    exact Nat.le_of_lt (trustRank_lt_of_canReplace stronger)
  | refresh new wrapped =>
    rw [recorded] at shape
    exact Nat.le_of_eq (congrArg BeatOrigin.trustRank shape.sameOrigin.symm)
  | _ => exact Nat.le_refl _

/-- A beat of another, not stronger origin is not recorded. -/
theorem record_untouched (own : slot.generationMismatch b.generation = false)
    (differs : b.origin ≠ slot.origin) (weak : b.origin.canReplace slot.origin = false) :
    (slot.record b).slot? = none := by
  have network : slot.networkRecycles b = false := by
    simp [Slot.networkRecycles, Ne.symm differs]
  simp [Slot.record, own, network, Ne.symm differs, weak, SlotUpdate.slot?]

/-- The beats of a slot after one more. -/
theorem record_origin (accepted : (slot.record b).slot? = some slot') :
    slot'.origin = b.origin ∧
      ((∃ new, slot.record b = .recycle new ∨ slot.record b = .replace new) ∨
        slot.origin = slot'.origin) := by
  have shape := Slot.recordShape slot b
  cases recorded : slot.record b with
  | recycle new =>
    rw [recorded] at shape accepted
    cases accepted
    exact ⟨by rw [shape.2, Slot.fromFrame], .inl ⟨_, .inl rfl⟩⟩
  | replace new =>
    rw [recorded] at shape accepted
    cases accepted
    exact ⟨by rw [shape.2, Slot.fromFrame], .inl ⟨_, .inr rfl⟩⟩
  | refresh new wrapped =>
    rw [recorded] at shape accepted
    cases accepted
    exact ⟨shape.sameOrigin.trans shape.origin, .inr shape.sameOrigin.symm⟩
  | _ =>
    rw [recorded] at accepted
    cases accepted

end

/-! ### Whole runs -/

namespace Remembering

structure Sound (w : Remembering) : Prop where
  wf : w.tracker.Wf
  origins : ∀ pid slot, w.tracker.slotOf pid = some slot →
    w.since pid ≠ [] ∧ ∀ b ∈ w.since pid, b.origin = slot.origin

variable {w : Remembering}

theorem since_record_of_ne (b : Arrival) {pid : UInt32} (other : pid ≠ b.frame.pid) :
    (w.step (.record b)).since pid = w.since pid := by
  simp only [step]
  split
  · exact Function.update_of_ne other _ _
  · rfl

theorem Sound.record (sound : w.Sound) (b : Arrival) : (w.step (.record b)).Sound := by
  have wf := sound.wf
  refine ⟨(recordWithGeneration_spec wf b).1, ?_⟩
  intro pid slot' known'
  by_cases own : pid = b.frame.pid
  · subst own
    simp only [step] at known' ⊢
    cases known : w.tracker.slotOf b.frame.pid with
    | none =>
      obtain ⟨accepted, rfl⟩ := record_unknown wf known known'
      simp [accepted, recreates, known, Slot.fromFrame]
    | some slot =>
      obtain ⟨answer, after⟩ := record_own wf known
      obtain ⟨nonempty, origins⟩ := sound.origins _ slot known
      rw [after] at known'
      rw [answer, SlotUpdate.answer_accepted]
      cases recorded : (slot.record b).slot? with
      | none =>
        obtain rfl : slot = slot' := by simpa [recorded] using known'
        simpa using ⟨nonempty, origins⟩
      | some new =>
        obtain rfl : new = slot' := by simpa [recorded] using known'
        obtain ⟨origin, anew | kept⟩ := record_origin recorded
        -- the memory of the slot starts again with the beat that makes it anew
        · have made : w.tracker.recreates b = true := by
            obtain ⟨new, how | how⟩ := anew <;> simp [recreates, known, how]
          simp [made, origin]
        · simp only [Option.isSome_some, if_true, Function.update_self]
          split
          · simp [origin]
          · refine ⟨by simp, ?_⟩
            intro b' member
            rcases List.mem_append.mp member with before | now
            · exact (origins b' before).trans kept
            · rw [List.mem_singleton.mp now, origin]
  · rw [since_record_of_ne b own]
    exact sound.origins pid slot' (record_other wf own known')

end Remembering

/-- Besides recording, nothing changes a slot but its latch. -/
theorem step_slot {t : Tracker} (wf : t.Wf) {a : Action} (quiet : ∀ b, a ≠ .record b)
    {pid : UInt32} {slot' : Slot} (known' : (t.step a).slotOf pid = some slot') :
    ∃ slot, t.slotOf pid = some slot ∧ (slot' = slot ∨ slot' = { slot with stallEmitted := true }) := by
  cases a with
  | record b => exact absurd rfl (quiet b)
  | drainStalledSlots nowNs thresholdNs generationRecycled =>
    rcases (drainStalledSlots_spec wf nowNs thresholdNs generationRecycled).entries pid with
      same | ⟨slot, known, _, gone | latched⟩
    · exact ⟨slot', same ▸ known', .inl rfl⟩
    · simp only [step] at known'
      rw [gone] at known'
      cases known'
    · simp only [step] at known'
      rw [latched] at known'
      cases known'
      exact ⟨slot, known, .inr rfl⟩
  | takeEvictedPid => exact ⟨slot', known', .inl rfl⟩
  | take counter =>
    have same := (sameMap_take t counter).slotOf pid
    exact ⟨slot', same ▸ known', .inl rfl⟩

namespace Remembering

variable {w : Remembering}

theorem Sound.step (sound : w.Sound) (a : Action) : (w.step a).Sound := by
  by_cases beat : ∃ b, a = .record b
  · obtain ⟨b, rfl⟩ := beat
    exact sound.record b
  · have quiet : ∀ b, a ≠ .record b := fun b same => beat ⟨b, same⟩
    have shape : w.step a = ⟨w.tracker.step a, w.since⟩ := by
      cases a with
      | record b => exact absurd rfl (quiet b)
      | _ => rfl
    rw [shape]
    refine ⟨step_wf sound.wf a, ?_⟩
    intro pid slot' known'
    -- the latch says nothing about the origin
    obtain ⟨slot, known, rfl | rfl⟩ := step_slot sound.wf quiet known'
    · exact sound.origins pid slot' known
    · exact sound.origins pid slot known

def new (hash32 : UInt32 → UInt32) (capacity : Nat) (policy : EvictionPolicy) (window : Nat) :
    Remembering :=
  ⟨Tracker.new hash32 capacity policy window, fun _ => []⟩

theorem sound_new (hash32 : UInt32 → UInt32) (capacity : Nat) (policy : EvictionPolicy)
    (window : Nat) : (new hash32 capacity policy window).Sound := by
  have wf := wf_new hash32 capacity policy window
  refine ⟨wf, ?_⟩
  intro pid slot known
  have member := (wf.slotOf_eq_some_iff.mp known).1
  simp [Tracker.new] at member

/-- What is promised of the origins of the slots. -/
structure OriginTrust (w : Remembering) : Prop where
  /-- All beats of a slot are of its origin. -/
  origins : ∀ pid slot, w.tracker.slotOf pid = some slot →
    w.since pid ≠ [] ∧ ∀ b ∈ w.since pid, b.origin = slot.origin
  /-- As long as there is a slot, its rank goes down only with a change of the start time. -/
  rank : ∀ a pid slot slot', w.tracker.slotOf pid = some slot →
    (w.tracker.step a).slotOf pid = some slot' →
      slot.origin.trustRank ≤ slot'.origin.trustRank ∨
        ∃ b, a = .record b ∧ b.frame.pid = pid ∧ slot.generationMismatch b.generation = true
  /-- A beat of another origin that is not stronger leaves the slot alone. -/
  untouched : ∀ b slot, w.tracker.slotOf b.frame.pid = some slot → b.origin ≠ slot.origin →
    b.origin.canReplace slot.origin = false → slot.generationMismatch b.generation = false →
      (w.tracker.recordWithGeneration b).2.slotOf b.frame.pid = some slot

theorem Sound.originTrust (sound : w.Sound) : w.OriginTrust := by
  have wf := sound.wf
  refine ⟨sound.origins, ?_, ?_⟩
  · intro a pid slot slot' known known'
    by_cases beat : ∃ b, a = .record b
    · obtain ⟨b, rfl⟩ := beat
      by_cases own : pid = b.frame.pid
      · subst own
        cases mismatch : slot.generationMismatch b.generation with
        | true => exact .inr ⟨b, rfl, rfl, mismatch⟩
        | false =>
          left
          have after := (record_own wf known).2
          obtain rfl : (slot.record b).slot?.getD slot = slot' :=
            Option.some.inj (after.symm.trans known')
          exact record_trustRank mismatch
      · have same := record_other wf own known'
        rw [known] at same
        cases same
        exact .inl (Nat.le_refl _)
    · left
      obtain ⟨same, before, latch⟩ := step_slot wf (fun b same => beat ⟨b, same⟩) known'
      rw [known] at before
      cases before
      rcases latch with rfl | rfl <;> exact Nat.le_refl _
  · intro b slot known differs weak own
    rw [(record_own wf known).2, record_untouched own differs weak, Option.getD_none]

theorem origin_trust (hash32 : UInt32 → UInt32) (capacity : Nat) (policy : EvictionPolicy)
    (window : Nat) (actions : List Action) :
    (Steps.run Remembering.step (new hash32 capacity policy window) actions).OriginTrust := by
  have keeps (w : Remembering) (a : Action) (sound : w.Sound) : (w.step a).Sound := sound.step a
  have sound := Steps.run_invariant keeps actions (sound_new hash32 capacity policy window)
  exact sound.originTrust

/-- A beat of the slot's own origin cannot replace it, carries no new start time, and is
recorded in the slot. -/
theorem own_origin_touches :
    let first : Arrival := ⟨⟨.ok, 42, 1, 1, 0⟩, 0, 5, .kernelAttested, none, some 7⟩
    let second : Arrival := ⟨⟨.ok, 42, 2, 2, 0⟩, 3, 5, .kernelAttested, none, some 7⟩
    let w := Steps.run Remembering.step (new mix32 1 .strict 1) [.record first]
    ¬∀ slot, w.tracker.slotOf second.frame.pid = some slot →
      second.origin.canReplace slot.origin = false →
      slot.generationMismatch second.generation = false →
        (w.tracker.recordWithGeneration second).2.slotOf second.frame.pid = some slot := by
  intro first second w untouched
  have known : w.tracker.slotOf second.frame.pid = some (Slot.fromFrame first) := by
    decide +kernel
  have after := untouched _ known (by decide) (by decide)
  revert after
  decide +kernel

end Remembering

end Varta.Watch.Tracker
