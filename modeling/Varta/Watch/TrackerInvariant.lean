import Varta.Watch.EvictionScan

/-!
# The tracker as a map

The index finds exactly the slots of the table. Under this invariant the tracker is a partial
map from pids to slots, and each operation is described by what it does to the map.
-/
namespace Varta.Watch

open Machine

/-! ### One slot -/

theorem Update.accepted_iff {update : Update} :
    update.accepted = true ↔ update = .inserted ∨ update = .refreshed := by
  cases update <;> simp [Update.accepted]

namespace SlotUpdate

/-- The slot an accepted frame leaves. -/
def slot? : SlotUpdate → Option Slot
  | .recycle slot => some slot
  | .replace slot => some slot
  | .refresh slot _ => some slot
  | _ => none

def answer : SlotUpdate → Update
  | .recycle _ => .inserted
  | .replace _ => .refreshed
  | .refresh _ _ => .refreshed
  | .originConflict => .originConflict
  | .namespaceConflict => .namespaceConflict
  | .outOfOrder => .outOfOrder

theorem answer_accepted (update : SlotUpdate) : update.answer.accepted = update.slot?.isSome := by
  cases update <;> rfl

end SlotUpdate

namespace Slot

/-- The reasons to make a slot anew. -/
def Resets (slot : Slot) (b : Arrival) : Prop :=
  slot.generationMismatch b.generation = true ∨ slot.networkRecycles b = true ∨
    (slot.origin ≠ b.origin ∧ b.origin.canReplace slot.origin = true)

/-- A frame accepted into the slot of the same process. -/
structure Refreshed (slot : Slot) (b : Arrival) (new : Slot) : Prop where
  origin : slot.origin = b.origin
  pid : new.pid = slot.pid
  used : new.used = slot.used
  sameOrigin : new.origin = slot.origin
  lastNs : new.lastNs = b.nowNs
  unlatched : new.stallEmitted = false
  pidNsInode : new.pidNsInode = slot.pidNsInode ∨
    (slot.pidNsInode = none ∧ new.pidNsInode = b.pidNsInode)
  generation : new.generation = slot.generation ∨
    (slot.generation = none ∧ new.generation = b.generation)
  observed : new.lastObservedNonce = b.frame.nonce

variable {b : Arrival} {new slot : Slot} {upgrade : Bool}

/-- What the steps between the checks and the new slot have in common. -/
theorem refreshed_settle {fresh : Slot} (origin : slot.origin = b.origin)
    (checked : slot.namespaceUpgrade b = some upgrade)
    (accepted : slot.refreshTerminal b = some fresh ∨ fresh = slot.acceptRegular b) :
    Refreshed slot b (fresh.settle b upgrade (slot.generationUpgrade b)) := by
  have kept : fresh.pid = slot.pid ∧ fresh.used = slot.used ∧ fresh.origin = slot.origin ∧
      fresh.lastNs = b.nowNs ∧ fresh.pidNsInode = slot.pidNsInode ∧
      fresh.generation = slot.generation ∧ fresh.lastObservedNonce = b.frame.nonce := by
    -- neither kind of frame touches pid, origin or identity
    rcases accepted with terminal | rfl
    · unfold refreshTerminal at terminal
      split at terminal <;> cases terminal
      exact ⟨rfl, rfl, rfl, rfl, rfl, rfl, rfl⟩
    · exact ⟨rfl, rfl, rfl, rfl, rfl, rfl, rfl⟩
  obtain ⟨pid, used, sameOrigin, lastNs, namespaces, generation, observed⟩ := kept
  refine ⟨origin, pid, used, sameOrigin, lastNs, rfl, ?_, ?_, observed⟩
  · cases upgrade with
    | false => exact Or.inl namespaces
    | true =>
      right
      refine ⟨?_, rfl⟩
      -- an upgrade is only asked for where nothing was pinned
      unfold namespaceUpgrade at checked
      split at checked
      · split at checked <;> cases checked
      · split at checked <;> cases checked
      next unpinned _ => exact unpinned
      · cases checked
  · cases pinning : slot.generationUpgrade b with
    | false => exact Or.inl generation
    | true =>
      right
      refine ⟨?_, rfl⟩
      unfold generationUpgrade at pinning
      rw [Bool.and_eq_true, Option.isNone_iff_eq_none] at pinning
      exact pinning.1

/-- A wrapped nonce is accepted with the same assignments. -/
theorem refreshRegular_cases (slot : Slot) (b : Arrival) :
    slot.refreshRegular b = .accepted (slot.acceptRegular b) ∨
      slot.refreshRegular b = .wrapped (slot.acceptRegular b) ∨ slot.refreshRegular b = .outOfOrder := by
  unfold refreshRegular
  split
  · split
    · exact Or.inr (Or.inl rfl)
    · exact Or.inr (Or.inr rfl)
  · exact Or.inl rfl

/-- The checks a frame passes before its place in a sequence counts. -/
structure Passes (slot : Slot) (b : Arrival) (upgrade : Bool) : Prop where
  generation : slot.generationMismatch b.generation = false
  recycle : slot.networkRecycles b = false
  origin : slot.origin = b.origin
  checked : slot.namespaceUpgrade b = some upgrade

theorem Passes.record (passes : slot.Passes b upgrade) :
    slot.record b =
      if b.frame.isTerminal then
        match slot.refreshTerminal b with
        | none => .outOfOrder
        | some fresh => .refresh (fresh.settle b upgrade (slot.generationUpgrade b)) false
      else
        match slot.refreshRegular b with
        | .accepted fresh => .refresh (fresh.settle b upgrade (slot.generationUpgrade b)) false
        | .wrapped fresh => .refresh (fresh.settle b upgrade (slot.generationUpgrade b)) true
        | .outOfOrder => .outOfOrder := by
  have origin := passes.origin
  unfold Slot.record
  rw [passes.generation, passes.recycle, if_neg Bool.false_ne_true, if_neg Bool.false_ne_true,
    if_neg (not_not.mpr origin)]
  split
  next conflict => cases passes.checked.symm.trans conflict
  next checked =>
    cases passes.checked.symm.trans checked
    rfl

/-- A frame that passes is a question of its sequence; for any other one the gate that it meets
first gives the answer. -/
theorem record_gates (slot : Slot) (b : Arrival) :
    (∃ upgrade, slot.Passes b upgrade) ∨
      (slot.record b = .recycle (fromFrame b) ∧
        (slot.generationMismatch b.generation = true ∨ slot.networkRecycles b = true)) ∨
      (slot.record b = .replace (fromFrame b) ∧
        (slot.origin ≠ b.origin ∧ b.origin.canReplace slot.origin = true)) ∨
      (slot.record b = .originConflict ∧ slot.origin ≠ b.origin) ∨
      (slot.record b = .namespaceConflict ∧ slot.origin = b.origin) := by
  unfold Slot.record
  -- the branches of `record` in their order
  split
  next mismatch => simp [mismatch]
  next generation =>
    split
    next recycles => simp [recycles]
    next recycle =>
      split
      next differs =>
        split
        next stronger => simp [differs, stronger]
        next => simp [differs]
      next same =>
        split
        next => simp [not_not.mp same]
        next upgrade checked =>
          exact .inl ⟨upgrade, Bool.eq_false_iff.mpr generation, Bool.eq_false_iff.mpr recycle,
            not_not.mp same, checked⟩

/-- Why each answer is given, and the slot that comes with it. -/
def RecordShape (slot : Slot) (b : Arrival) : SlotUpdate → Prop
  | .recycle new =>
    (slot.generationMismatch b.generation = true ∨ slot.networkRecycles b = true) ∧ new = fromFrame b
  | .replace new =>
    (slot.origin ≠ b.origin ∧ b.origin.canReplace slot.origin = true) ∧ new = fromFrame b
  | .refresh new _ => Refreshed slot b new
  | .originConflict => slot.origin ≠ b.origin
  | .namespaceConflict => slot.origin = b.origin
  | .outOfOrder => slot.origin = b.origin

theorem Passes.recordShape (passes : slot.Passes b upgrade) :
    RecordShape slot b (slot.record b) := by
  rw [passes.record]
  split
  next =>
    split
    next => exact passes.origin
    next fresh terminal => exact refreshed_settle passes.origin passes.checked (Or.inl terminal)
  next =>
    rcases refreshRegular_cases slot b with regular | regular | regular <;> rw [regular]
    · exact refreshed_settle passes.origin passes.checked (Or.inr rfl)
    · exact refreshed_settle passes.origin passes.checked (Or.inr rfl)
    · exact passes.origin

theorem recordShape (slot : Slot) (b : Arrival) : RecordShape slot b (slot.record b) := by
  rcases record_gates slot b with ⟨upgrade, passes⟩ | ⟨recorded, reason⟩ | ⟨recorded, reason⟩ |
    ⟨recorded, reason⟩ | ⟨recorded, reason⟩
  · exact passes.recordShape
  all_goals rw [recorded]
  · exact ⟨reason, rfl⟩
  · exact ⟨reason, rfl⟩
  · exact reason
  · exact reason

/-- Every accepted frame makes the slot anew or refreshes it. -/
theorem record_cases (accepted : (slot.record b).slot? = some new) :
    (slot.Resets b ∧ new = fromFrame b) ∨ Refreshed slot b new := by
  have shape := recordShape slot b
  cases recorded : slot.record b with
  | recycle made =>
    rw [recorded] at shape accepted
    cases accepted
    exact Or.inl ⟨shape.1.imp id Or.inl, shape.2⟩
  | replace made =>
    rw [recorded] at shape accepted
    cases accepted
    exact Or.inl ⟨Or.inr (Or.inr shape.1), shape.2⟩
  | refresh made wrapped =>
    rw [recorded] at shape accepted
    cases accepted
    exact Or.inr shape
  | _ =>
    rw [recorded] at accepted
    cases accepted

theorem record_observed (accepted : (slot.record b).slot? = some new) :
    new.lastNs = b.nowNs ∧ new.lastObservedNonce = b.frame.nonce := by
  rcases record_cases accepted with ⟨_, rfl⟩ | refreshed
  · exact ⟨rfl, rfl⟩
  · exact ⟨refreshed.lastNs, refreshed.observed⟩

theorem record_kept (own : slot.pid = b.frame.pid) (used : slot.used = true)
    (accepted : (slot.record b).slot? = some new) :
    new.pid = slot.pid ∧ new.used = true ∧ new.stallEmitted = false ∧ new.lastNs = b.nowNs := by
  rcases record_cases accepted with ⟨_, rfl⟩ | refreshed
  · exact ⟨own.symm, rfl, rfl, rfl⟩
  · exact ⟨refreshed.pid, refreshed.used.trans used, refreshed.unlatched, refreshed.lastNs⟩

end Slot

/-! ### The invariant -/

namespace Tracker

structure Wf (t : Tracker) : Prop where
  indexed : Indexed.Indexes (fun slot : Slot => slot.pid) t.pidToIndex.get t.entries
  len_eq : t.len = t.entries.length
  bounded : t.len ≤ t.capacity
  used : ∀ slot ∈ t.entries, slot.used = true

theorem wf_new (hash32 : UInt32 → UInt32) (capacity : Nat) (policy : EvictionPolicy)
    (window : Nat) : (new hash32 capacity policy window).Wf := by
  refine ⟨Indexed.Indexes.nil fun pid => BoundedIndex.get_new _ _ _, rfl, Nat.zero_le _, ?_⟩
  intro slot member
  cases member

/-- Nothing of the map has changed. -/
structure SameMap (t t' : Tracker) : Prop where
  entries : t'.entries = t.entries
  len : t'.len = t.len
  capacity : t'.capacity = t.capacity
  index : ∀ pid, t'.pidToIndex.get pid = t.pidToIndex.get pid

theorem SameMap.refl (t : Tracker) : SameMap t t := ⟨rfl, rfl, rfl, fun _ => rfl⟩

variable {t t' : Tracker} {idx : Nat} {slot : Slot}

theorem SameMap.trans {t'' : Tracker} (first : SameMap t t') (second : SameMap t' t'') :
    SameMap t t'' :=
  ⟨second.entries.trans first.entries, second.len.trans first.len,
    second.capacity.trans first.capacity, fun pid => (second.index pid).trans (first.index pid)⟩

theorem SameMap.wf (same : SameMap t t') (wf : t.Wf) : t'.Wf := by
  have index : t'.pidToIndex.get = t.pidToIndex.get := funext same.index
  refine ⟨?_, ?_, ?_, ?_⟩
  · rw [index, same.entries]
    exact wf.indexed
  · rw [same.len, same.entries]
    exact wf.len_eq
  · rw [same.len, same.capacity]
    exact wf.bounded
  · rw [same.entries]
    exact wf.used

theorem SameMap.slotOf (same : SameMap t t') (pid : UInt32) : t'.slotOf pid = t.slotOf pid := by
  have index : t'.pidToIndex.get = t.pidToIndex.get := funext same.index
  -- the map is what the index finds in the table
  rw [Tracker.slotOf, index, same.entries]
  rfl

theorem sameMap_rememberRemovedPid (t : Tracker) (pid : UInt32) :
    SameMap t (t.rememberRemovedPid pid) := by
  unfold rememberRemovedPid
  split <;> exact ⟨rfl, rfl, rfl, fun _ => rfl⟩

theorem sameMap_exceeded (t : Tracker) : SameMap t t.exceeded.2 :=
  ⟨rfl, rfl, rfl, fun _ => rfl⟩

namespace Wf

variable {t : Tracker}

theorem slotOf_eq_some_iff (wf : t.Wf) {pid : UInt32} {slot : Slot} :
    t.slotOf pid = some slot ↔ slot ∈ t.entries ∧ slot.pid = pid :=
  wf.indexed.lookup_eq_some_iff

theorem usedSlotOf (wf : t.Wf) (pid : UInt32) : t.usedSlotOf pid = t.slotOf pid := by
  unfold Tracker.usedSlotOf
  cases found : t.slotOf pid with
  | none => rfl
  | some slot =>
    have used := wf.used slot (wf.slotOf_eq_some_iff.mp found).1
    rw [Option.filter_some, if_pos used]

theorem isTracked (wf : t.Wf) (pid : UInt32) : t.isTracked pid = (t.slotOf pid).isSome := by
  unfold Tracker.isTracked generationOf
  rw [wf.usedSlotOf, Option.isSome_map]

/-- The slot of a pid is overwritten by one of the same pid. -/
theorem putSlot (wf : t.Wf) {idx : Nat} {old new : Slot} (held : t.entries[idx]? = some old)
    (pid : new.pid = old.pid) (used : new.used = true) :
    (t.putSlot idx old new).Wf ∧ ∀ q, (t.putSlot idx old new).slotOf q =
      if q = old.pid then some new else t.slotOf q := by
  obtain ⟨indexed, lookup⟩ := wf.indexed.set_same held pid
  refine ⟨⟨indexed, ?_, wf.bounded, fun slot member => ?_⟩, lookup⟩
  · exact wf.len_eq.trans (List.length_set ..).symm
  · rcases List.mem_or_eq_of_mem_set member with before | rfl
    · exact wf.used slot before
    · exact used

end Wf

/-! ### Recording -/

/-- What `record_with_generation` does to the map. -/
inductive Recorded (t : Tracker) (b : Arrival) (result : Update × Tracker) : Prop
  /-- A refused beat changes no slot. -/
  | refused (rejected : result.1.accepted = false) (same : SameMap t result.2)
  /-- An accepted beat of a tracked pid changes its slot. -/
  | updated {slot new : Slot} (known : t.slotOf b.frame.pid = some slot)
    (recorded : (slot.record b).slot? = some new) (answer : result.1 = (slot.record b).answer)
    (after : ∀ q, result.2.slotOf q = if q = b.frame.pid then some new else t.slotOf q)
  /-- An accepted beat of a new pid makes a slot; a full tracker evicts another pid for it. -/
  | inserted (unknown : t.slotOf b.frame.pid = none) (answer : result.1 = .inserted)
    (victim : Option UInt32) (full : victim ≠ none → t.capacity ≤ t.len)
    (after : ∀ q, result.2.slotOf q = if q = b.frame.pid then some (Slot.fromFrame b)
      else if victim = some q then none else t.slotOf q)

theorem Recorded.congr {b : Arrival} {result : Update × Tracker} (same : SameMap t t')
    (recorded : Recorded t' b result) : Recorded t b result := by
  cases recorded with
  | refused rejected unchanged => exact .refused rejected (same.trans unchanged)
  | updated known recorded answer after =>
    refine .updated ((same.slotOf _).symm.trans known) recorded answer fun q => ?_
    rw [after q, same.slotOf q]
  | inserted unknown answer victim full after =>
    rw [same.capacity, same.len] at full
    refine .inserted ((same.slotOf _).symm.trans unknown) answer victim full fun q => ?_
    rw [after q, same.slotOf q]

theorem exceeded_spec (same : SameMap t t') (wf : t.Wf) (b : Arrival) :
    t'.exceeded.2.Wf ∧ Recorded t b t'.exceeded := by
  have same := same.trans (sameMap_exceeded t')
  exact ⟨same.wf wf, .refused rfl same⟩

/-- The answer is the slot's, and only counters change besides the slot. -/
theorem recordKnown_cases (t : Tracker) (idx : Nat) (slot : Slot) (b : Arrival) :
    (t.recordKnown idx slot b).1 = (slot.record b).answer ∧
      SameMap ((slot.record b).slot?.elim t (t.putSlot idx slot)) (t.recordKnown idx slot b).2 := by
  unfold recordKnown
  cases slot.record b with
  -- a wrap differs by its counter alone
  | refresh new wrapped => cases wrapped <;> exact ⟨rfl, rfl, rfl, rfl, fun _ => rfl⟩
  | recycle | replace | originConflict | namespaceConflict | outOfOrder =>
    exact ⟨rfl, rfl, rfl, rfl, fun _ => rfl⟩

theorem recordKnown_spec (wf : t.Wf) (b : Arrival) (held : t.entries[idx]? = some slot)
    (own : slot.pid = b.frame.pid) :
    (t.recordKnown idx slot b).2.Wf ∧ Recorded t b (t.recordKnown idx slot b) := by
  have known : t.slotOf b.frame.pid = some slot := own ▸ wf.indexed.lookup_key held
  have used := wf.used slot (List.mem_of_getElem? held)
  obtain ⟨answer, same⟩ := recordKnown_cases t idx slot b
  cases recorded : (slot.record b).slot? with
  | none =>
    rw [recorded] at same
    refine ⟨same.wf wf, .refused ?_ same⟩
    rw [answer, SlotUpdate.answer_accepted, recorded]
    rfl
  | some new =>
    rw [recorded] at same
    obtain ⟨pid, used, _⟩ := Slot.record_kept own used recorded
    obtain ⟨wf', after⟩ := wf.putSlot held pid used
    refine ⟨same.wf wf', .updated known recorded answer fun q => ?_⟩
    rw [same.slotOf q, ← own]
    exact after q

theorem Rescanned.sameMap (scan : Rescanned t t') : SameMap t t' := by
  obtain ⟨_, _, rfl⟩ := scan
  exact ⟨rfl, rfl, rfl, fun _ => rfl⟩

theorem sameMap_findEvictableSlot (t : Tracker) (nowNs thresholdNs : Nat) :
    SameMap t (t.findEvictableSlot nowNs thresholdNs).2 :=
  (findEvictableSlot_sought t nowNs thresholdNs).kept.sameMap

/-- The index after an eviction. -/
theorem get_evicted {index index' : BoundedIndex UInt32} {old new : UInt32}
    (inserted : (index.remove old).1.insert new idx = (index', true)) (k : UInt32) :
    index'.get k = if k = new then some idx else if k = old then none else index.get k := by
  rw [BoundedIndex.get_of_insert inserted k, (index.get_remove old k).2]

/-- A rolled-back eviction finds the place of the old pid free. -/
theorem get_rolledBack {index refused index' : BoundedIndex UInt32} {old new : UInt32}
    {repinned : Bool} (present : index.get old = some idx)
    (exhausted : (index.remove old).1.insert new idx = (refused, false))
    (again : refused.insert old idx = (index', repinned)) :
    repinned = true ∧ ∀ k, index'.get k = index.get k := by
  have admitted : refused.admits old := by
    -- the refused insertion wrote nothing, so the tombstone is still there
    have kept := BoundedIndex.admits_of_insert_refused (index.remove old).1
      (by rw [exhausted] : ((index.remove old).1.insert new idx).2 = false) old
    rw [exhausted] at kept
    exact kept.mpr (index.admits_of_removed present)
  have success := (refused.insert_eq_true_iff old idx).mpr admitted
  rw [again] at success
  refine ⟨success, fun k => ?_⟩
  cases success
  rw [BoundedIndex.get_of_insert again k, BoundedIndex.get_of_insert_refused exhausted k,
    (index.get_remove old k).2]
  split
  next here => rw [here, present]
  next => rfl

theorem evictFor_spec (wf : t.Wf) (idx : Nat) (b : Arrival) (unknown : t.slotOf b.frame.pid = none)
    (full : t.capacity ≤ t.len) : (t.evictFor idx b).2.Wf ∧ Recorded t b (t.evictFor idx b) := by
  have fresh := wf.indexed.lookup_eq_none_iff.mp unknown
  unfold evictFor
  split
  · -- the scan returned a position past the table; the beat is refused
    refine exceeded_spec ?_ wf b
    exact ⟨rfl, rfl, rfl, fun _ => rfl⟩
  next evicted held =>
    have present := wf.indexed.get_key held
    dsimp only
    split
    next index inserted =>
      obtain ⟨indexed, lookup⟩ := wf.indexed.replace held (.fromFrame b) fresh (get_evicted inserted)
      constructor
      · refine (sameMap_rememberRemovedPid _ _).wf ⟨indexed, ?_, wf.bounded, ?_⟩
        · exact wf.len_eq.trans (List.length_set ..).symm
        · intro slot member
          rcases List.mem_or_eq_of_mem_set member with before | rfl
          · exact wf.used slot before
          · rfl
      · refine .inserted unknown rfl (some evicted.pid) (fun _ => full) fun q => ?_
        refine ((sameMap_rememberRemovedPid _ _).slotOf q).trans ?_
        refine (lookup q).trans ?_
        simp only [Option.some.injEq, @eq_comm _ evicted.pid]
        rfl
    next index exhausted =>
      split
      next index' again =>
        refine exceeded_spec ?_ wf b
        exact ⟨rfl, rfl, rfl, (get_rolledBack present exhausted again).2⟩
      -- the second failure of the source cannot happen
      next index' again => cases (get_rolledBack present exhausted again).1

theorem recordNew_spec (wf : t.Wf) (b : Arrival) (unknown : t.slotOf b.frame.pid = none) :
    (t.recordNew b).2.Wf ∧ Recorded t b (t.recordNew b) := by
  have fresh := wf.indexed.lookup_eq_none_iff.mp unknown
  unfold recordNew
  split
  -- the scan moves its cursor and nothing else
  next full =>
    have same := sameMap_findEvictableSlot t b.nowNs b.thresholdNs
    split
    next idx t' found =>
      rw [found] at same
      have spec := evictFor_spec (same.wf wf) idx b ((same.slotOf _).trans unknown)
        (by rw [same.capacity, same.len]; exact full)
      exact ⟨spec.1, spec.2.congr same⟩
    next t' missed =>
      rw [missed] at same
      exact exceeded_spec same wf b
  next room =>
    split
    next index exhausted =>
      refine exceeded_spec ?_ wf b
      exact ⟨rfl, rfl, rfl, BoundedIndex.get_of_insert_refused exhausted⟩
    next index inserted =>
      have added := BoundedIndex.get_of_insert inserted
      rw [wf.len_eq] at added
      obtain ⟨indexed, lookup⟩ := wf.indexed.append (.fromFrame b) fresh added
      refine ⟨⟨indexed, ?_, Nat.not_le.mp room, ?_⟩,
        .inserted unknown rfl none (fun absurd => (absurd rfl).elim) fun q => ?_⟩
      · rw [List.length_append, List.length_singleton, wf.len_eq]
      · intro slot member
        rcases List.mem_append.mp member with before | last
        · exact wf.used slot before
        · rw [List.mem_singleton.mp last]
          rfl
      · refine (lookup q).trans ?_
        simp only [reduceCtorEq, if_false]
        rfl

/-- The specification of `record_with_generation`. -/
theorem recordWithGeneration_spec (wf : t.Wf) (b : Arrival) :
    (t.recordWithGeneration b).2.Wf ∧ Recorded t b (t.recordWithGeneration b) := by
  unfold recordWithGeneration
  split
  next missing => exact recordNew_spec wf b (wf.indexed.lookup_eq_none_iff.mpr missing)
  next idx found =>
    obtain ⟨slot, held, own⟩ := wf.indexed.exists_of_get found
    rw [held]
    dsimp only
    -- every entry of the table is in use
    rw [if_pos (wf.used slot (List.mem_of_getElem? held))]
    exact recordKnown_spec wf b held own

/-- The answer for a tracked pid is its slot's. -/
theorem recordWithGeneration_known (wf : t.Wf) {b : Arrival}
    (known : t.slotOf b.frame.pid = some slot) :
    (t.recordWithGeneration b).1 = (slot.record b).answer := by
  obtain ⟨idx, found, held⟩ := Option.bind_eq_some_iff.mp known
  unfold recordWithGeneration
  rw [found]
  dsimp only
  rw [held]
  dsimp only
  rw [if_pos (wf.used slot (List.mem_of_getElem? held))]
  exact (recordKnown_cases t idx slot b).1

/-! ### Draining stalls -/

/-- The entry is a slot whose stall has been announced. -/
def Latched (entry : Option Slot) : Prop := ∃ slot, entry = some slot ∧ slot.stallEmitted = true

/-- What a drain may do to one entry of the map: announce its stall or retire it, and only if
its stall has not been announced. -/
def Drains (before after : Option Slot) : Prop :=
  after = before ∨ ∃ slot, before = some slot ∧ slot.stallEmitted = false ∧
    (after = none ∨ after = some { slot with stallEmitted := true })

theorem Drains.trans {first second third : Option Slot} (before : Drains first second)
    (after : Drains second third) : Drains first third := by
  rcases before with rfl | ⟨slot, known, silent, rfl | rfl⟩
  · exact after
  · right
    refine ⟨slot, known, silent, Or.inl ?_⟩
    rcases after with same | ⟨_, absurd, _⟩
    · exact same
    · cases absurd
  · right
    refine ⟨slot, known, silent, Or.inr ?_⟩
    -- a slot that is latched is not drained a second time
    rcases after with same | ⟨_, latched, unlatched, _⟩
    · exact same
    · cases latched
      cases unlatched

theorem Drains.latched {before after : Option Slot} (drained : Drains before after)
    (latched : Latched before) : after = before := by
  rcases drained with same | ⟨slot, known, silent, _⟩
  · exact same
  · obtain ⟨_, also, emitted⟩ := latched
    rw [known] at also
    cases also
    rw [silent] at emitted
    cases emitted

/-- The tracker after the slot of `removed` was taken out, with the index and the entries that
are left. -/
def withoutSlot (t : Tracker) (removed : Slot) (index : BoundedIndex UInt32)
    (entries : List Slot) : Tracker :=
  { t with
    pidToIndex := index
    stallEmittedCount :=
      if removed.stallEmitted then t.stallEmittedCount - 1 else t.stallEmittedCount
    entries := entries
    len := t.len - 1
    evictionScanCursor := if t.len - 1 = 0 then 0 else t.evictionScanCursor % (t.len - 1)
      }.rememberRemovedPid removed.pid

/-- The retired slot is the last one, or the last one takes its place. -/
theorem retireSlotAt_cases (wf : t.Wf) {removed : Slot} (held : t.entries[idx]? = some removed) :
    (idx = t.entries.length - 1 ∧ t.retireSlotAt idx =
        t.withoutSlot removed (t.pidToIndex.remove removed.pid).1 t.entries.dropLast) ∨
      ∃ moved index, t.entries[t.entries.length - 1]? = some moved ∧
        idx ≠ t.entries.length - 1 ∧
        (t.pidToIndex.remove removed.pid).1.insert moved.pid idx = (index, true) ∧
        t.retireSlotAt idx = t.withoutSlot removed index (t.entries.set idx moved).dropLast := by
  have bound := (List.getElem?_eq_some_iff.mp held).1
  have len_eq := wf.len_eq
  have inside : idx < t.len := len_eq ▸ bound
  unfold retireSlotAt
  rw [if_pos inside, held]
  dsimp only
  split
  next is_last => exact .inl ⟨len_eq ▸ is_last, rfl⟩
  next inner =>
    obtain ⟨moved, at_last⟩ : ∃ moved, t.entries[t.len - 1]? = some moved :=
      ⟨_, List.getElem?_eq_getElem (by omega)⟩
    rw [at_last]
    dsimp only
    rw [len_eq] at at_last
    -- the entry that fills the gap belongs to another pid
    have distinct : moved.pid ≠ removed.pid := fun same =>
      inner (len_eq ▸ wf.indexed.index_unique held at_last same.symm)
    -- the moved pid is in the index, so that its new position is only an overwrite
    have admitted : (t.pidToIndex.remove removed.pid).1.admits moved.pid := by
      have present := (t.pidToIndex.get_remove removed.pid moved.pid).2
      rw [if_neg distinct, wf.indexed.get_key at_last] at present
      exact BoundedIndex.admits_of_get _ present
    have success := (BoundedIndex.insert_eq_true_iff _ moved.pid idx).mpr admitted
    split
    next index inserted => exact .inr ⟨moved, index, at_last, len_eq ▸ inner, inserted, rfl⟩
    next index refused =>
      rw [refused] at success
      cases success

theorem retireSlotAt_spec (wf : t.Wf) {removed : Slot} (held : t.entries[idx]? = some removed) :
    (t.retireSlotAt idx).Wf ∧ ∀ q, (t.retireSlotAt idx).slotOf q =
      if q = removed.pid then none else t.slotOf q := by
  have fewer : t.len - 1 = t.entries.length - 1 := congrArg (· - 1) wf.len_eq
  have bounded := (Nat.sub_le t.len 1).trans wf.bounded
  rcases retireSlotAt_cases wf held with
    ⟨is_last, retired⟩ | ⟨moved, index, at_last, inner, inserted, retired⟩
  · rw [is_last] at held
    obtain ⟨indexed, lookup⟩ :=
      wf.indexed.dropLast held fun k => (t.pidToIndex.get_remove removed.pid k).2
    rw [retired]
    constructor
    · refine (sameMap_rememberRemovedPid _ _).wf ⟨indexed, ?_, bounded, fun slot member => ?_⟩
      · exact fewer.trans (List.length_dropLast ..).symm
      · exact wf.used slot ((List.dropLast_subset _) member)
    · intro q
      exact ((sameMap_rememberRemovedPid _ _).slotOf q).trans (lookup q)
  · obtain ⟨indexed, lookup⟩ :=
      wf.indexed.swapRemove held at_last inner (get_evicted inserted)
    rw [retired]
    constructor
    · refine (sameMap_rememberRemovedPid _ _).wf ⟨indexed, ?_, bounded, fun slot member => ?_⟩
      · refine fewer.trans ?_
        rw [List.length_dropLast, List.length_set]
      · rcases List.mem_or_eq_of_mem_set ((List.dropLast_subset _) member) with before | rfl
        · exact wf.used slot before
        · exact wf.used _ (List.mem_of_getElem? at_last)
    · intro q
      exact ((sameMap_rememberRemovedPid _ _).slotOf q).trans (lookup q)

theorem latchSlot_spec (wf : t.Wf) (held : t.entries[idx]? = some slot) :
    (t.latchSlot idx slot).Wf ∧ ∀ q, (t.latchSlot idx slot).slotOf q =
      if q = slot.pid then some { slot with stallEmitted := true } else t.slotOf q := by
  have used := wf.used slot (List.mem_of_getElem? held)
  obtain ⟨wf', after⟩ := @Wf.putSlot t wf idx slot { slot with stallEmitted := true } held rfl used
  have same : SameMap (t.putSlot idx slot { slot with stallEmitted := true })
      (t.latchSlot idx slot) := ⟨rfl, rfl, rfl, fun _ => rfl⟩
  exact ⟨same.wf wf', fun q => (same.slotOf q).trans (after q)⟩

/-- What a drain does to the map, and that every announced stall is latched. -/
structure Drained (t : Tracker) (result : List StallEvent × Tracker) : Prop where
  wf : result.2.Wf
  entries : ∀ q, Drains (t.slotOf q) (result.2.slotOf q)
  announced : ∀ stall ∈ result.1, Latched (result.2.slotOf stall.pid)

/-- Step lemma: a step that drains the entries in front of a drain. -/
theorem Drained.after {result : List StallEvent × Tracker}
    (step : ∀ q, Drains (t.slotOf q) (t'.slotOf q)) (drained : Drained t' result) :
    Drained t result :=
  ⟨drained.wf, fun q => (step q).trans (drained.entries q), drained.announced⟩

/-- Retiring or latching one slot that has not been announced drains it. -/
theorem drains_slot (wf : t.Wf) {after : Option Slot} (held : t.entries[idx]? = some slot)
    (silent : slot.stallEmitted = false)
    (fate : after = none ∨ after = some { slot with stallEmitted := true })
    (spec : ∀ q, t'.slotOf q = if q = slot.pid then after else t.slotOf q) :
    ∀ q, Drains (t.slotOf q) (t'.slotOf q) := by
  intro q
  rw [spec q]
  split
  next here => exact Or.inr ⟨slot, here ▸ wf.indexed.lookup_key held, silent, fate⟩
  next => exact Or.inl rfl

theorem Drained.nothing (wf : t.Wf) : Drained t ([], t) :=
  ⟨wf, fun _ => Or.inl rfl, fun _ member => by cases member⟩

/-- Latching a slot and announcing its stall, in front of a drain that keeps it latched. -/
theorem Drained.announce {result : List StallEvent × Tracker} {stall : StallEvent}
    (step : ∀ q, Drains (t.slotOf q) (t'.slotOf q)) (latched : Latched (t'.slotOf stall.pid))
    (rest : Drained t' result) : Drained t (stall :: result.1, result.2) := by
  have drained := Drained.after step rest
  refine ⟨drained.wf, drained.entries, fun announced member => ?_⟩
  rcases List.mem_cons.mp member with rfl | member
  · exact (rest.entries _).latched latched ▸ latched
  · exact drained.announced announced member

theorem drainFrom_spec (nowNs thresholdNs : Nat) (generationRecycled : UInt32 → Nat → Bool)
    (rounds idx : Nat) (wf : t.Wf) :
    Drained t (drainFrom nowNs thresholdNs generationRecycled rounds idx t) := by
  -- on the rounds left; the invariant is that the table is well formed
  induction rounds generalizing idx t with
  | zero => exact Drained.nothing wf
  | succ rounds ih =>
    unfold drainFrom
    split
    next inside =>
      have bound : idx < t.entries.length := wf.len_eq ▸ inside
      obtain ⟨slot, held⟩ : ∃ slot, t.entries[idx]? = some slot :=
        ⟨_, List.getElem?_eq_getElem bound⟩
      rw [held]
      dsimp only
      split
      · exact ih (idx + 1) wf
      next stalled =>
        have silent : slot.stallEmitted = false := by
          simp only [newlyStalled, Bool.not_eq_false, Bool.and_eq_true, Bool.not_eq_true'] at stalled
          exact stalled.1.2
        split
        · -- a recycled pid is retired without a stall, and the last slot moves under the cursor
          obtain ⟨wf', spec⟩ := retireSlotAt_spec wf held
          have same : SameMap (t.retireSlotAt idx) { t.retireSlotAt idx with
              pidRecycles := u64SaturatingAdd (t.retireSlotAt idx).pidRecycles 1 } :=
            ⟨rfl, rfl, rfl, fun _ => rfl⟩
          refine Drained.after (drains_slot wf held silent (Or.inl rfl) fun q => ?_)
            (ih idx (same.wf wf'))
          exact (same.slotOf q).trans (spec q)
        · obtain ⟨wf', spec⟩ := latchSlot_spec wf held
          refine Drained.announce (drains_slot wf held silent (Or.inr rfl) spec) ?_ (ih (idx + 1) wf')
          exact ⟨_, (spec slot.pid).trans (if_pos rfl), rfl⟩
    · exact Drained.nothing wf

theorem drainStalledSlots_spec (wf : t.Wf) (nowNs thresholdNs : Nat)
    (generationRecycled : UInt32 → Nat → Bool) :
    Drained t (t.drainStalledSlots nowNs thresholdNs generationRecycled) := by
  have sound : ¬ t.len > t.entries.length := by
    rw [wf.len_eq]
    exact lt_irrefl _
  unfold drainStalledSlots
  rw [if_neg sound]
  exact drainFrom_spec nowNs thresholdNs generationRecycled t.len 0 wf

end Tracker

end Varta.Watch
