import Varta.Watch.TrackerStructure

/-!
# One stall per silence

A tracker that records beats and drains stalls leaves a history of accepted beats, removed
slots and announced stalls. A pid that was announced is latched until the next beat of it is
accepted or its slot is removed; that is why no second stall comes in between.
-/
namespace Varta.Watch.Tracker

open Machine

/-! ### One drain -/

/-- The slots whose stall a drain announces. -/
def announces (nowNs thresholdNs : Nat) (generationRecycled : UInt32 → Nat → Bool)
    (slot : Slot) : Bool :=
  newlyStalled nowNs thresholdNs slot && !retires generationRecycled slot

/-- A drain announces the slots from its position on, whatever moves on the way. -/
theorem drainFrom_perm (nowNs thresholdNs : Nat) (generationRecycled : UInt32 → Nat → Bool)
    (rounds idx : Nat) {t : Tracker} (wf : t.Wf) (enough : t.len ≤ idx + rounds) :
    (drainFrom nowNs thresholdNs generationRecycled rounds idx t).1.Perm
      (((t.entries.drop idx).filter (announces nowNs thresholdNs generationRecycled)).map
        (stallOf nowNs)) := by
  have len_eq := wf.len_eq
  -- each round moves the position on or takes an entry out, so `len` rounds are enough
  induction rounds generalizing idx t with
  | zero =>
    rw [List.drop_eq_nil_of_le (by omega)]
    exact .refl _
  | succ rounds ih =>
    unfold drainFrom
    split
    next inside =>
      have bound : idx < t.entries.length := wf.len_eq ▸ inside
      obtain ⟨slot, held⟩ : ∃ slot, t.entries[idx]? = some slot :=
        ⟨_, List.getElem?_eq_getElem bound⟩
      have rest : t.entries.drop idx = slot :: t.entries.drop (idx + 1) := by
        obtain ⟨_, rfl⟩ := List.getElem?_eq_some_iff.mp held
        exact List.drop_eq_getElem_cons bound
      rw [held, rest]
      dsimp only
      split
      next calm =>
        have passed : announces nowNs thresholdNs generationRecycled slot = false := by
          simp [announces, calm]
        rw [List.filter_cons_of_neg (by simp [passed])]
        exact ih (idx + 1) wf (by omega) len_eq
      next stalled =>
        have stalled : newlyStalled nowNs thresholdNs slot = true := Bool.of_not_eq_false stalled
        split
        next retired =>
          have passed : announces nowNs thresholdNs generationRecycled slot = false := by
            simp [announces, retired]
          rw [List.filter_cons_of_neg (by simp [passed])]
          -- the entries behind the retired one are the ones the drain still comes to
          obtain ⟨len', perm⟩ := retireSlotAt_entries wf held
          have wf' := (retireSlotAt_spec wf held).1
          have later := @ih idx { t.retireSlotAt idx with
            pidRecycles := u64SaturatingAdd (t.retireSlotAt idx).pidRecycles 1 }
            { wf' with } (by dsimp only; omega) wf'.len_eq
          exact later.trans ((perm.filter _).map _)
        next kept =>
          have passed : announces nowNs thresholdNs generationRecycled slot = true := by
            simp [announces, stalled, kept]
          rw [List.filter_cons_of_pos passed, List.map_cons]
          have later := ih (idx + 1) (latchSlot_spec wf held).1 (by simp [latchSlot]; omega)
            (latchSlot_spec wf held).1.len_eq
          rw [latchSlot, List.drop_set_of_lt (by omega)] at later
          exact later.cons _
    next beyond =>
      rw [List.drop_eq_nil_of_le (by omega)]
      exact .refl _

theorem drainStalledSlots_perm {t : Tracker} (wf : t.Wf) (nowNs thresholdNs : Nat)
    (generationRecycled : UInt32 → Nat → Bool) :
    (t.drainStalledSlots nowNs thresholdNs generationRecycled).1.Perm
      ((t.entries.filter (announces nowNs thresholdNs generationRecycled)).map (stallOf nowNs)) := by
  have sound : ¬t.len > t.entries.length := by simp [wf.len_eq]
  unfold drainStalledSlots
  rw [if_neg sound]
  simpa using drainFrom_perm nowNs thresholdNs generationRecycled t.len 0 wf (by omega)

/-- An announced slot was silent for the threshold and not latched. -/
theorem mem_drainStalledSlots {t : Tracker} (wf : t.Wf) {nowNs thresholdNs : Nat}
    {generationRecycled : UInt32 → Nat → Bool} {stall : StallEvent}
    (member : stall ∈ (t.drainStalledSlots nowNs thresholdNs generationRecycled).1) :
    ∃ slot, t.slotOf stall.pid = some slot ∧ stall = stallOf nowNs slot ∧
      slot.stallEmitted = false ∧ thresholdNs ≤ nowNs - slot.lastNs := by
  have perm := drainStalledSlots_perm wf nowNs thresholdNs generationRecycled
  obtain ⟨slot, found, rfl⟩ := List.mem_map.mp (perm.mem_iff.mp member)
  obtain ⟨present, announced⟩ := List.mem_filter.mp found
  simp only [announces, newlyStalled, Bool.and_eq_true, Bool.not_eq_true', decide_eq_true_eq]
    at announced
  exact ⟨slot, wf.slotOf_eq_some_iff.mpr ⟨present, rfl⟩, rfl, announced.1.1.2, announced.1.2⟩

theorem nodup_drainStalledSlots {t : Tracker} (wf : t.Wf) (nowNs thresholdNs : Nat)
    (generationRecycled : UInt32 → Nat → Bool) :
    ((t.drainStalledSlots nowNs thresholdNs generationRecycled).1.map (·.pid)).Nodup := by
  have perm := drainStalledSlots_perm wf nowNs thresholdNs generationRecycled
  rw [(perm.map _).nodup_iff, List.map_map]
  exact (List.filter_sublist.map _).nodup wf.nodup_pids

/-- A slot that a drain leaves is of the same beat as before. -/
theorem Drained.observed {t : Tracker} {result : List StallEvent × Tracker}
    (drained : Drained t result) {pid : UInt32} {slot : Slot}
    (known : result.2.slotOf pid = some slot) :
    ∃ before, t.slotOf pid = some before ∧ slot.lastNs = before.lastNs ∧
      slot.lastObservedNonce = before.lastObservedNonce := by
  rcases drained.entries pid with same | ⟨before, known', _, gone | latched⟩
  · exact ⟨slot, same ▸ known, rfl, rfl⟩
  · simp [known] at gone
  · obtain rfl : slot = { before with stallEmitted := true } := by simpa [known] using latched
    exact ⟨before, known', rfl, rfl⟩

/-! ### Histories -/

inductive Event where
  | accepted (b : Arrival)
  | removed (pid : UInt32)
  | stalled (thresholdNs : Nat) (stall : StallEvent)

/-- The event ends a silence of the pid. -/
def Event.Restarts (pid : UInt32) : Event → Prop
  | .accepted b => b.frame.pid = pid
  | .removed gone => gone = pid
  | .stalled _ _ => False

/-- A stall of the pid has been announced in its present silence. Histories are newest first. -/
def Announced (pid : UInt32) : List Event → Prop
  | [] => False
  | .stalled _ stall :: older => stall.pid = pid ∨ Announced pid older
  | .accepted b :: older => b.frame.pid ≠ pid ∧ Announced pid older
  | .removed gone :: older => gone ≠ pid ∧ Announced pid older

def lastAccepted (pid : UInt32) : List Event → Option Arrival
  | [] => none
  | .accepted b :: older => if b.frame.pid = pid then some b else lastAccepted pid older
  | .removed _ :: older => lastAccepted pid older
  | .stalled _ _ :: older => lastAccepted pid older

/-- The stall tells of the last accepted beat and of a silence of the threshold since. -/
def Tells (thresholdNs : Nat) (stall : StallEvent) (older : List Event) : Prop :=
  ∃ b, lastAccepted stall.pid older = some b ∧ stall.lastNs = b.nowNs ∧
    stall.lastNonce = b.frame.nonce ∧ stall.lastNs ≤ stall.observerNs ∧
    thresholdNs ≤ stall.observerNs - stall.lastNs

/-- Each stall is the first of its silence and tells the truth about it. -/
def Justified : List Event → Prop
  | [] => True
  | .stalled thresholdNs stall :: older =>
    ¬Announced stall.pid older ∧ Tells thresholdNs stall older ∧ Justified older
  | .accepted _ :: older => Justified older
  | .removed _ :: older => Justified older

section

variable {pid : UInt32} {history : List Event}

variable {gone : List UInt32} {thresholdNs : Nat} {stalls : List StallEvent}

theorem announced_removed :
    Announced pid (gone.map .removed ++ history) ↔ pid ∉ gone ∧ Announced pid history := by
  induction gone with
  | nil => simp
  | cons first gone ih =>
    simp only [List.map_cons, List.cons_append, Announced, ih, List.mem_cons, not_or, @eq_comm _ pid,
      and_assoc]

theorem announced_stalled :
    Announced pid (stalls.map (.stalled thresholdNs) ++ history) ↔
      (∃ stall ∈ stalls, stall.pid = pid) ∨ Announced pid history := by
  induction stalls with
  | nil => simp
  | cons first stalls ih => simp [Announced, ih, or_assoc]

@[simp] theorem lastAccepted_removed :
    lastAccepted pid (gone.map .removed ++ history) = lastAccepted pid history := by
  induction gone with
  | nil => rfl
  | cons first gone ih => exact ih

@[simp] theorem lastAccepted_stalled :
    lastAccepted pid (stalls.map (.stalled thresholdNs) ++ history) = lastAccepted pid history := by
  induction stalls with
  | nil => rfl
  | cons first stalls ih => exact ih

theorem justified_removed (justified : Justified history) :
    Justified (gone.map .removed ++ history) := by
  induction gone with
  | nil => exact justified
  | cons first gone ih => exact ih

/-- The stalls of one drain are justified by what came before it. -/
theorem justified_stalled (distinct : (stalls.map (·.pid)).Nodup)
    (first : ∀ stall ∈ stalls, ¬Announced stall.pid history ∧ Tells thresholdNs stall history)
    (justified : Justified history) :
    Justified (stalls.map (.stalled thresholdNs) ++ history) := by
  induction stalls with
  | nil => exact justified
  | cons stall stalls ih =>
    obtain ⟨unannounced, b, tells⟩ := first stall (by simp)
    simp only [List.map_cons, List.nodup_cons, List.mem_map, not_exists, not_and] at distinct
    simp only [List.map_cons, List.cons_append, Justified]
    refine ⟨?_, ⟨b, ?_, tells.2⟩, ih distinct.2 fun other member => first other (by simp [member])⟩
    · rw [announced_stalled]
      rintro (⟨other, member, same⟩ | before)
      · exact distinct.1 other member same
      · exact unannounced before
    · rw [lastAccepted_stalled]
      exact tells.1

/-- Nothing between the announcement and now has ended the silence. -/
theorem announced_of_quiet {stall : StallEvent} {between : List Event}
    (quiet : ∀ event ∈ between, ¬event.Restarts stall.pid) :
    Announced stall.pid (between ++ .stalled thresholdNs stall :: history) := by
  induction between with
  | nil => exact .inl rfl
  | cons event between ih =>
    have later := ih fun other member => quiet other (by simp [member])
    have here := quiet event (by simp)
    cases event with
    | accepted | removed => exact ⟨here, later⟩
    | stalled _ other => exact .inr later

theorem Justified.older {newer : List Event} (justified : Justified (newer ++ history)) :
    Justified history := by
  induction newer with
  | nil => exact justified
  | cons event newer ih =>
    cases event with
    | accepted | removed => exact ih justified
    | stalled _ stall => exact ih justified.2.2

end

/-! ### A tracker with its history -/

inductive Call where
  | record (b : Arrival)
  | drain (nowNs thresholdNs : Nat) (generationRecycled : UInt32 → Nat → Bool)

def Call.nowNs : Call → Nat
  | .record b => b.nowNs
  | .drain nowNs _ _ => nowNs

structure Watched where
  tracker : Tracker
  /-- The time of the last call. -/
  clock : Nat
  history : List Event

/-- The pids whose slots are gone. -/
def removedBetween (t t' : Tracker) : List UInt32 :=
  (t.entries.map (·.pid)).filter fun pid => (t'.slotOf pid).isNone

def Watched.step (w : Watched) : Call → Watched
  | .record b =>
    let (update, t) := w.tracker.recordWithGeneration b
    ⟨t, b.nowNs, (if update.accepted then [.accepted b] else []) ++
      ((removedBetween w.tracker t).map .removed ++ w.history)⟩
  | .drain nowNs thresholdNs generationRecycled =>
    let (stalls, t) := w.tracker.drainStalledSlots nowNs thresholdNs generationRecycled
    ⟨t, nowNs, stalls.reverse.map (.stalled thresholdNs) ++
      ((removedBetween w.tracker t).map .removed ++ w.history)⟩

/-- Calls come with times that do not go back. -/
def Watched.InOrder (w : Watched) (call : Call) : Prop := w.clock ≤ call.nowNs

instance (w : Watched) (call : Call) : Decidable (w.InOrder call) :=
  inferInstanceAs (Decidable (w.clock ≤ call.nowNs))

/-- A slot of the last accepted beat of its pid. -/
def FromBeat (slot : Slot) (b : Arrival) : Prop :=
  slot.lastNs = b.nowNs ∧ slot.lastObservedNonce = b.frame.nonce

structure Watched.Sound (w : Watched) : Prop where
  wf : w.tracker.Wf
  latched : ∀ pid, Announced pid w.history → Latched (w.tracker.slotOf pid)
  beats : ∀ pid slot, w.tracker.slotOf pid = some slot →
    ∃ b, lastAccepted pid w.history = some b ∧ FromBeat slot b ∧ b.nowNs ≤ w.clock
  justified : Justified w.history

theorem mem_removedBetween {t t' : Tracker} (wf : t.Wf) {pid : UInt32} :
    pid ∈ removedBetween t t' ↔ (∃ slot, t.slotOf pid = some slot) ∧ t'.slotOf pid = none := by
  simp only [removedBetween, List.mem_filter, List.mem_map, Option.isNone_iff_eq_none,
    wf.slotOf_eq_some_iff]

/-- What a recorded beat does to the slots: its own is of this beat if it was accepted, and
the others stay or go. -/
theorem Recorded.effect {t : Tracker} {b : Arrival} {result : Update × Tracker}
    (recorded : Recorded t b result) :
    (result.1.accepted = true → ∃ new, result.2.slotOf b.frame.pid = some new ∧ FromBeat new b) ∧
    ∀ q, (result.1.accepted = true → q ≠ b.frame.pid) →
      result.2.slotOf q = t.slotOf q ∨ result.2.slotOf q = none := by
  cases recorded with
  | refused rejected same =>
    constructor
    · simp [rejected]
    · intro q _
      exact .inl (same.slotOf q)
  | @updated slot new known recorded answer after =>
    have accepted : result.1.accepted = true := by
      rw [answer, SlotUpdate.answer_accepted, recorded]
      rfl
    constructor
    · intro _
      exact ⟨new, by simp [after], Slot.record_observed recorded⟩
    · intro q other
      simp [after, other accepted]
  | inserted unknown answer victim full after =>
    have accepted : result.1.accepted = true := by
      rw [answer]
      rfl
    constructor
    · intro _
      exact ⟨Slot.fromFrame b, by simp [after], rfl, rfl⟩
    · intro q other
      simp only [after, other accepted, if_false]
      split
      · exact .inr rfl
      · exact .inl rfl

namespace Watched

variable {w : Watched}

theorem Sound.record (sound : w.Sound) {b : Arrival} (inOrder : w.clock ≤ b.nowNs) :
    (w.step (.record b)).Sound := by
  obtain ⟨wf', recorded⟩ := recordWithGeneration_spec sound.wf b
  obtain ⟨own, others⟩ := recorded.effect
  generalize made : w.tracker.recordWithGeneration b = result at *
  obtain ⟨update, t⟩ := result
  -- a slot that the beat leaves alone keeps its latch and its last beat
  have stays {pid : UInt32} (other : update.accepted = true → pid ≠ b.frame.pid)
      (still : pid ∉ removedBetween w.tracker t) (latched : Latched (w.tracker.slotOf pid)) :
      Latched (t.slotOf pid) := by
    rcases others pid other with same | gone
    · rwa [same]
    · obtain ⟨slot, known, _⟩ := latched
      exact absurd ((mem_removedBetween sound.wf).mpr ⟨⟨slot, known⟩, gone⟩) still
  have keeps {pid : UInt32} {slot : Slot} (other : update.accepted = true → pid ≠ b.frame.pid)
      (known : t.slotOf pid = some slot) :
      ∃ b', lastAccepted pid w.history = some b' ∧ FromBeat slot b' ∧ b'.nowNs ≤ b.nowNs := by
    rcases others pid other with same | gone
    · obtain ⟨b', last, from_, past⟩ := sound.beats pid slot (same ▸ known)
      exact ⟨b', last, from_, Nat.le_trans past inOrder⟩
    · rw [known] at gone
      cases gone
  simp only [step, made]
  cases accepted : update.accepted with
  | true =>
    constructor
    · exact wf'
    · intro pid announced
      simp only [if_true, List.singleton_append, Announced, announced_removed] at announced
      obtain ⟨other, still, before⟩ := announced
      exact stays (fun _ => Ne.symm other) still (sound.latched pid before)
    · intro pid slot known
      by_cases here : b.frame.pid = pid
      · obtain ⟨new, known', from_⟩ := own accepted
        subst here
        obtain rfl : new = slot := by simpa [known'] using known
        exact ⟨b, by simp [lastAccepted], from_, Nat.le_refl _⟩
      · obtain ⟨b', last, from_, past⟩ := keeps (fun _ => Ne.symm here) known
        exact ⟨b', by simpa [lastAccepted, here] using last, from_, past⟩
    · exact justified_removed sound.justified
  | false =>
    constructor
    · exact wf'
    · intro pid announced
      simp only [Bool.false_eq_true, if_false, List.nil_append, announced_removed] at announced
      exact stays (by simp [accepted]) announced.1 (sound.latched pid announced.2)
    · intro pid slot known
      obtain ⟨b', last, from_, past⟩ := keeps (by simp [accepted]) known
      exact ⟨b', by simpa using last, from_, past⟩
    · exact justified_removed sound.justified

/-- A slot that is not latched has no stall announced in its present silence. -/
theorem Sound.unannounced (sound : w.Sound) {pid : UInt32} {slot : Slot}
    (known : w.tracker.slotOf pid = some slot) (silent : slot.stallEmitted = false) :
    ¬Announced pid w.history := by
  intro before
  obtain ⟨_, also, latched⟩ := sound.latched pid before
  rw [known] at also
  cases also
  rw [silent] at latched
  cases latched

theorem Sound.drain (sound : w.Sound) {nowNs : Nat} (inOrder : w.clock ≤ nowNs) (thresholdNs : Nat)
    (generationRecycled : UInt32 → Nat → Bool) :
    (w.step (.drain nowNs thresholdNs generationRecycled)).Sound := by
  have drained := drainStalledSlots_spec sound.wf nowNs thresholdNs generationRecycled
  have told (stall : StallEvent) := @mem_drainStalledSlots w.tracker sound.wf nowNs thresholdNs
    generationRecycled stall
  have distinct := nodup_drainStalledSlots sound.wf nowNs thresholdNs generationRecycled
  generalize made : w.tracker.drainStalledSlots nowNs thresholdNs generationRecycled = result at *
  obtain ⟨stalls, t⟩ := result
  simp only [step, made]
  constructor
  · exact drained.wf
  · intro pid announced
    rw [announced_stalled, announced_removed] at announced
    rcases announced with ⟨stall, member, rfl⟩ | ⟨_, before⟩
    · exact drained.announced stall (by simpa using member)
    · -- a latched slot is not looked at again
      have latched := sound.latched pid before
      rw [(drained.entries pid).latched latched]
      exact latched
  · intro pid slot known
    obtain ⟨before, known', same⟩ := drained.observed known
    obtain ⟨b, last, from_, past⟩ := sound.beats pid before known'
    refine ⟨b, ?_, ⟨same.1.trans from_.1, same.2.trans from_.2⟩, Nat.le_trans past inOrder⟩
    rw [lastAccepted_stalled, lastAccepted_removed]
    exact last
  · refine justified_stalled ?_ ?_ (justified_removed sound.justified)
    · rw [((List.reverse_perm stalls).map _).nodup_iff]
      exact distinct
    · intro stall member
      obtain ⟨slot, known, shape, silent, long⟩ := told stall (by simpa using member)
      constructor
      · rw [announced_removed]
        exact fun before => sound.unannounced known silent before.2
      · obtain ⟨b, last, from_, past⟩ := sound.beats _ slot known
        have lastNs := from_.1
        refine ⟨b, by simpa using last, ?_, ?_, ?_, ?_⟩
        · simp [shape, stallOf, from_.1]
        · simp [shape, stallOf, from_.2]
        · simp only [shape, stallOf]
          omega
        · simpa [shape, stallOf] using long

theorem Sound.step {call : Call} (sound : w.Sound) (inOrder : w.InOrder call) :
    (w.step call).Sound := by
  cases call with
  | record b => exact sound.record inOrder
  | drain nowNs thresholdNs generationRecycled =>
    exact sound.drain inOrder thresholdNs generationRecycled

def new (hash32 : UInt32 → UInt32) (capacity : Nat) (policy : EvictionPolicy) (window : Nat) :
    Watched :=
  ⟨Tracker.new hash32 capacity policy window, 0, []⟩

theorem sound_new (hash32 : UInt32 → UInt32) (capacity : Nat) (policy : EvictionPolicy)
    (window : Nat) : (new hash32 capacity policy window).Sound := by
  have wf := wf_new hash32 capacity policy window
  refine ⟨wf, fun _ => False.elim, ?_, trivial⟩
  intro pid slot known
  have member := (wf.slotOf_eq_some_iff.mp known).1
  simp [Tracker.new] at member

/-- What is promised of the stalls: between two of one pid its silence has ended; each tells of
the last accepted beat and of a silence of the threshold since; a drain announces every slot
that has a stall to announce, once, and nothing else. -/
structure OneStallPerSilence (w : Watched) : Prop where
  between : ∀ newer thresholdNs stall between thresholdNs' stall' older,
    w.history = newer ++ .stalled thresholdNs stall ::
      (between ++ .stalled thresholdNs' stall' :: older) →
    stall.pid = stall'.pid → ∃ event ∈ between, event.Restarts stall.pid
  tells : ∀ newer thresholdNs stall older,
    w.history = newer ++ .stalled thresholdNs stall :: older → Tells thresholdNs stall older
  complete : ∀ nowNs thresholdNs generationRecycled,
    (w.tracker.drainStalledSlots nowNs thresholdNs generationRecycled).1.Perm
      ((w.tracker.entries.filter (announces nowNs thresholdNs generationRecycled)).map
        (stallOf nowNs))

theorem Sound.oneStallPerSilence (sound : w.Sound) : w.OneStallPerSilence := by
  refine ⟨?_, ?_, drainStalledSlots_perm sound.wf⟩
  · intro newer thresholdNs stall between thresholdNs' stall' older shape same
    have justified := sound.justified
    rw [shape] at justified
    -- in an unbroken silence the older stall would still count as announced
    by_contra quiet
    simp only [not_exists, not_and] at quiet
    rw [same] at quiet
    exact justified.older.1 (same ▸ announced_of_quiet quiet)
  · intro newer thresholdNs stall older shape
    have justified := sound.justified
    rw [shape] at justified
    exact justified.older.2.1

theorem one_stall_per_silence (hash32 : UInt32 → UInt32) (capacity : Nat) (policy : EvictionPolicy)
    (window : Nat) (calls : List Call)
    (inOrder : Steps.Guarded Watched.step InOrder (new hash32 capacity policy window) calls) :
    (Steps.run Watched.step (new hash32 capacity policy window) calls).OneStallPerSilence := by
  have sound := inOrder.invariant (fun _ _ sound inOrder => Sound.step sound inOrder)
    (sound_new hash32 capacity policy window)
  exact sound.oneStallPerSilence

/-- A process beats, falls silent for two drains, beats again and falls silent once more. -/
def silentTwice : List Call :=
  [.record ⟨⟨.ok, 42, 1, 1, 0⟩, 0, 5, .kernelAttested, none, some 7⟩, .drain 10 5 fun _ _ => false,
    .drain 20 5 fun _ _ => false,
    .record ⟨⟨.ok, 42, 2, 2, 0⟩, 30, 5, .kernelAttested, none, some 7⟩, .drain 40 5 fun _ _ => false]

theorem one_stall_per_silence_silentTwice :
    let w := Steps.run Watched.step (new mix32 1 .strict 1) silentTwice
    w.history.length = 4 ∧ w.OneStallPerSilence :=
  ⟨by decide +kernel, one_stall_per_silence mix32 1 .strict 1 silentTwice (by decide +kernel)⟩

end Watched

end Varta.Watch.Tracker
