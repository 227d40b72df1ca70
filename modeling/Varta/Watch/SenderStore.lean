import Varta.Lib.Indexed
import Varta.Lib.Steps
import Varta.Watch.SecureListener

/-!
# The sender store as a map

Slab, free list and index together are a partial map from identities to sender states.
Recording a frame updates one entry, the sweep drops stale entries, and nothing else
changes.
-/
namespace Varta.Watch

namespace SecureUdpListener

def stateOf (l : SecureUdpListener) (identity : UInt32) : Option SenderState :=
  (l.index.get identity).bind fun slot => l.slab[slot]?.join

/-- Index and slab agree, and the free list has every empty slot once. -/
structure StoreWf (l : SecureUdpListener) : Prop where
  stored : ∀ p slot, l.index.get p = some slot →
    ∃ state, l.slab[slot]? = some (some state) ∧ state.identity = p
  indexed : ∀ (slot : Nat) state, l.slab[slot]? = some (some state) →
    l.index.get state.identity = some slot
  listed : Indexed.Free l.slab l.freeList
  sized : l.slab.length = maxSenderStates

section

variable (hash32 : UInt32 → UInt32) (trust : TransportTrust) (gap now : Nat)

theorem new_slab : (new hash32 trust gap now).slab = List.replicate maxSenderStates none := by
  simp only [new]

theorem new_freeList : (new hash32 trust gap now).freeList = List.range maxSenderStates := by
  simp only [new]

theorem new_get (p : UInt32) : (new hash32 trust gap now).index.get p = none :=
  BoundedIndex.get_new _ _ _

end

theorem storeWf_new (hash32 : UInt32 → UInt32) (trust : TransportTrust) (gap now : Nat) :
    StoreWf (new hash32 trust gap now) where
  stored p slot found := by
    rw [new_get] at found
    cases found
  indexed slot state held := by
    rw [new_slab, List.getElem?_replicate] at held
    split at held <;> cases held
  listed := by
    rw [new_slab, new_freeList]
    exact ⟨fun slot => by simp [List.getElem?_replicate], List.nodup_range⟩
  sized := by rw [new_slab, List.length_replicate]

variable {l : SecureUdpListener} {state : SenderState}

/-- The map sees only the slab and the index. -/
theorem StoreWf.congr {l' : SecureUdpListener} (wf : StoreWf l) (slab : l'.slab = l.slab)
    (index : l'.index = l.index) (freeList : l'.freeList = l.freeList) : StoreWf l' where
  stored := by rw [slab, index]; exact wf.stored
  indexed := by rw [slab, index]; exact wf.indexed
  listed := by rw [slab, freeList]; exact wf.listed
  sized := by rw [slab, wf.sized]

theorem stateOf_congr {l' : SecureUdpListener} (slab : l'.slab = l.slab)
    (index : l'.index = l.index) (p : UInt32) : l'.stateOf p = l.stateOf p := by
  rw [stateOf, stateOf, slab, index]

/-- The store as cells under an index. -/
theorem StoreWf.holds (wf : StoreWf l) :
    Indexed.Holds SenderState.identity l.index.get (l.slab[·]?.join) := by
  intro p slot
  constructor
  · intro found
    obtain ⟨state, in_slab, owner⟩ := wf.stored p slot found
    exact ⟨state, congrArg Option.join in_slab, owner⟩
  · rintro ⟨state, held, rfl⟩
    exact wf.indexed slot state (Option.join_eq_some_iff.mp held)

theorem storeWf_of_holds (holds : Indexed.Holds SenderState.identity l.index.get (l.slab[·]?.join))
    (listed : Indexed.Free l.slab l.freeList) (sized : l.slab.length = maxSenderStates) :
    StoreWf l where
  stored p slot found := by
    obtain ⟨state, held, owner⟩ := (holds p slot).mp found
    exact ⟨state, Option.join_eq_some_iff.mp held, owner⟩
  indexed slot state in_slab := holds.get_key (congrArg Option.join in_slab)
  listed := listed
  sized := sized

theorem stateOf_eq_some_iff {p : UInt32} :
    l.stateOf p = some state ↔
      ∃ slot, l.index.get p = some slot ∧ l.slab[slot]? = some (some state) := by
  simp only [stateOf, Option.bind_eq_some_iff, Option.join_eq_some_iff]

theorem StoreWf.identity (wf : StoreWf l) {p : UInt32} (found : l.stateOf p = some state) :
    state.identity = p := by
  obtain ⟨slot, held, owner⟩ := wf.holds.find_eq_some_iff.mp found
  exact owner

/-- Absent from the map is absent from the index. -/
theorem StoreWf.get_eq_none_iff (wf : StoreWf l) {p : UInt32} :
    l.index.get p = none ↔ l.stateOf p = none :=
  wf.holds.find_eq_none_iff.symm

/-! ### Writing a slot -/

section Write

variable {l : SecureUdpListener} {p : UInt32} {slot : Nat} {rest : List Nat}
  {index : BoundedIndex UInt32} {state : SenderState}

/-- A slot is written for `p`, its own or an empty one, and the index follows. -/
theorem StoreWf.write {l' : SecureUdpListener} {old new : Option SenderState} (wf : StoreWf l)
    (held : l.slab[slot]? = some old) (slab : l'.slab = l.slab.set slot new)
    (keyed : ∀ state, new = some state → state.identity = p)
    (own : l.index.get p = some slot ∨ old = none ∧ new.isSome ∧ l.index.get p = none)
    (index : ∀ k, l'.index.get k = if k = p then new.map fun _ => slot else l.index.get k)
    (listed : Indexed.Free l'.slab l'.freeList) :
    StoreWf l' ∧ ∀ q, l'.stateOf q = if q = p then new else l.stateOf q := by
  have update : Indexed.Holds SenderState.identity l'.index.get (l'.slab[·]?.join) ∧
      ∀ q, l'.stateOf q = if q = p then new else l.stateOf q := by
    unfold stateOf
    rw [slab]
    exact wf.holds.update_slab held keyed own index
  exact ⟨storeWf_of_holds update.1 listed (by rw [slab, List.length_set, wf.sized]), update.2⟩

/-- The slot of a sender is written with another state of the sender. -/
theorem StoreWf.set_slot (wf : StoreWf l) (at_slot : l.index.get p = some slot)
    (same : state.identity = p) : StoreWf { l with slab := l.slab.set slot (some state) } ∧
      ∀ q, stateOf { l with slab := l.slab.set slot (some state) } q =
        if q = p then some state else l.stateOf q := by
  obtain ⟨held, in_slab, _⟩ := wf.stored p slot at_slot
  refine wf.write in_slab rfl ?_ (.inl at_slot) (fun k => ?_) (wf.listed.overwrite in_slab state)
  · rintro _ ⟨rfl⟩
    exact same
  -- the index does not change: the sender keeps its slot
  · split
    next here => rw [here, at_slot, Option.map_some]
    next => rfl

/-- The first free slot is written with the state of a new sender. -/
theorem StoreWf.fill (wf : StoreWf l) (shape : l.freeList = slot :: rest)
    (absent : l.index.get p = none) (inserted : l.index.insert p slot = (index, true))
    (same : state.identity = p) :
    StoreWf { l with slab := l.slab.set slot (some state), freeList := rest, index := index } ∧
      ∀ q, stateOf { l with
          slab := l.slab.set slot (some state), freeList := rest, index := index } q =
        if q = p then some state else l.stateOf q := by
  -- the head of the free list is free, so nothing is overwritten
  have listed := wf.listed
  rw [shape] at listed
  refine wf.write listed.head rfl ?_ (.inr ⟨rfl, rfl, absent⟩) (BoundedIndex.get_of_insert inserted)
    (listed.fill state)
  rintro _ ⟨rfl⟩
  exact same

theorem allocateSenderSlot_spec (wf : StoreWf l) (absent : l.index.get p = none)
    (same : state.identity = p) :
    StoreWf (l.allocateSenderSlot p state).2 ∧
      ∀ q, (l.allocateSenderSlot p state).2.stateOf q =
        if q = p ∧ (l.allocateSenderSlot p state).1 = true then some state else l.stateOf q := by
  unfold allocateSenderSlot
  split
  · -- no slot is free
    exact ⟨wf, fun q => by simp⟩
  next slot rest shape =>
    have vacant := (wf.listed.mem slot).mp (shape ▸ List.mem_cons_self)
    have bound := (List.getElem?_eq_some_iff.mp vacant).1
    obtain ⟨⟨index, ok⟩, inserted⟩ : ∃ result, l.index.insert p slot = result := ⟨_, rfl⟩
    cases ok with
    | false =>
      -- the index is full and finds what it found before
      have kept := BoundedIndex.get_of_insert_refused inserted
      simp only [inserted, Bool.false_eq_true, and_false, if_false]
      constructor
      · refine ⟨fun q i found => ?_, fun i other held => ?_, wf.listed, wf.sized⟩
        · exact wf.stored q i (by rw [← kept q]; exact found)
        · rw [kept]
          exact wf.indexed i other held
      · intro q
        simp only [stateOf, kept q]
    | true =>
      simp only [inserted, if_pos bound, and_true]
      exact wf.fill shape absent inserted same

end Write

end SecureUdpListener

/-! ### Recording -/

namespace SenderState

theorem observeFrameClock_identity (state : SenderState) (nonce timestamp : Nat) :
    (state.observeFrameClock nonce timestamp).identity = state.identity := by
  unfold observeFrameClock
  split <;> rfl

theorem seen_identity (state : SenderState) (d : Sealed) (now nowNs : Nat) :
    (state.seen d now nowNs).identity = state.identity :=
  observeFrameClock_identity state _ _

theorem new_identity (d : Sealed) (now nowNs : Nat) :
    (SenderState.new d now nowNs).identity = d.frame.pid :=
  observeFrameClock_identity _ _ _

/-- How a known sender's frame is accepted without a restart. -/
inductive Advances (state : SenderState) (d : Sealed) (now nowNs : Nat) : SenderState → Prop
  | current (same : state.ivRandom = d.ivRandom) (newer : state.lastCounter < d.counter) :
    Advances state d now nowNs ({ state with lastCounter := d.counter }.seen d now nowNs)
  | previous (other : state.ivRandom ≠ d.ivRandom) (same : state.prevIvRandom = d.ivRandom)
    (newer : state.prevLastCounter < d.counter) :
    Advances state d now nowNs ({ state with prevLastCounter := d.counter }.seen d now nowNs)
  | rotate (other : state.ivRandom ≠ d.ivRandom) (older : state.prevIvRandom ≠ d.ivRandom)
    (newer : state.acceptsAgedOutPrefix d.frame.nonce d.frame.timestamp = true) :
    Advances state d now nowNs ({ state with
      prevIvRandom := state.ivRandom
      prevLastCounter := state.lastCounter
      ivRandom := d.ivRandom
      lastCounter := d.counter }.seen d now nowNs)

/-- An accepted frame restarts the session or advances it. -/
theorem record_cases {state state' : SenderState} {gap now nowNs : Nat} {d : Sealed}
    (accepted : state.record gap now nowNs d = some state') :
    (state.restarts gap nowNs d = true ∧ state' = SenderState.new d now nowNs) ∨
      (state.restarts gap nowNs d = false ∧ Advances state d now nowNs state') := by
  unfold record at accepted
  split at accepted
  -- a known prefix never restarts the session
  next same =>
    split at accepted <;> cases accepted
    next newer => exact Or.inr ⟨by simp [restarts, knows, same], .current same newer⟩
  next other =>
    split at accepted
    next same =>
      split at accepted <;> cases accepted
      next newer => exact Or.inr ⟨by simp [restarts, knows, same], .previous other same newer⟩
    next older =>
      split at accepted
      next newer =>
        cases accepted
        exact Or.inr ⟨by simp [restarts, newer], .rotate other older newer⟩
      -- unknown prefix, behind the marks: refused, unless the sender was silent for the gap
      next stale =>
        split at accepted <;> cases accepted
        next quiet =>
          refine Or.inl ⟨?_, rfl⟩
          simp only [not_or, not_lt] at quiet
          simp [restarts, knows, other, older, stale, quiet.1, quiet.2]

/-- An accepted frame leaves the identity it was looked up by. -/
theorem record_identity {state state' : SenderState} {gap now nowNs : Nat} {d : Sealed}
    (own : state.identity = d.frame.pid)
    (accepted : state.record gap now nowNs d = some state') : state'.identity = d.frame.pid := by
  obtain ⟨-, rfl⟩ | ⟨-, advances⟩ := record_cases accepted
  · exact new_identity d now nowNs
  · cases advances with
    | current | previous | rotate =>
      rw [seen_identity]
      exact own

end SenderState

namespace SecureUdpListener

variable {l : SecureUdpListener} {state : SenderState}

section Record

variable (now nowNs : Nat) (d : Sealed)

/-- A frame of a known sender. -/
theorem tryRecordReplayStateAt_known (wf : StoreWf l) (known : l.stateOf d.frame.pid = some state) :
    StoreWf (l.tryRecordReplayStateAt now nowNs d).2 ∧
      (l.tryRecordReplayStateAt now nowNs d).1 =
        (state.record l.sessionRestartGap now nowNs d).isSome ∧
      ∀ q, (l.tryRecordReplayStateAt now nowNs d).2.stateOf q =
        if q = d.frame.pid then some ((state.record l.sessionRestartGap now nowNs d).getD state)
        else l.stateOf q := by
  obtain ⟨slot, at_slot, in_slab⟩ := stateOf_eq_some_iff.mp known
  unfold tryRecordReplayStateAt
  simp only [at_slot, in_slab, Option.join_some]
  cases verdict : state.record l.sessionRestartGap now nowNs d with
  -- a refusal writes nothing
  | none =>
    refine ⟨wf, rfl, fun q => ?_⟩
    by_cases here : q = d.frame.pid
    · rw [if_pos here, here]
      exact known
    · rw [if_neg here]
  | some state' =>
    have own := SenderState.record_identity (wf.identity known) verdict
    obtain ⟨wf', states⟩ := wf.set_slot at_slot own
    exact ⟨wf', rfl, states⟩

/-- A frame of an unknown sender. -/
theorem tryRecordReplayStateAt_unknown (wf : StoreWf l) (unknown : l.stateOf d.frame.pid = none) :
    StoreWf (l.tryRecordReplayStateAt now nowNs d).2 ∧
      ∀ q, (l.tryRecordReplayStateAt now nowNs d).2.stateOf q =
        if q = d.frame.pid ∧ (l.tryRecordReplayStateAt now nowNs d).1 = true then
          some (SenderState.new d now nowNs)
        else l.stateOf q := by
  have absent := wf.get_eq_none_iff.mpr unknown
  unfold tryRecordReplayStateAt
  simp only [absent]
  exact allocateSenderSlot_spec wf absent (SenderState.new_identity d now nowNs)

theorem tryRecordReplayStateAt_wf (wf : StoreWf l) :
    StoreWf (l.tryRecordReplayStateAt now nowNs d).2 := by
  cases known : l.stateOf d.frame.pid with
  | none => exact (tryRecordReplayStateAt_unknown now nowNs d wf known).1
  | some state => exact (tryRecordReplayStateAt_known now nowNs d wf known).1

/-- No other sender is touched. -/
theorem stateOf_tryRecord_of_ne (wf : StoreWf l) {q : UInt32} (differs : q ≠ d.frame.pid) :
    (l.tryRecordReplayStateAt now nowNs d).2.stateOf q = l.stateOf q := by
  cases known : l.stateOf d.frame.pid with
  | none =>
    rw [(tryRecordReplayStateAt_unknown now nowNs d wf known).2 q, if_neg fun h => differs h.1]
  | some state =>
    rw [(tryRecordReplayStateAt_known now nowNs d wf known).2.2 q, if_neg differs]

end Record

/-! ### The sweep -/

/-- Stale senders may be dropped, and nothing else happens to the map. -/
structure Shrunk (stale : SenderState → Prop) (l l' : SecureUdpListener) : Prop where
  wf : StoreWf l'
  gap : l'.sessionRestartGap = l.sessionRestartGap
  trust : l'.recoveryTrust = l.recoveryTrust
  states : ∀ q, l'.stateOf q = l.stateOf q ∨
    (l'.stateOf q = none ∧ ∃ state, l.stateOf q = some state ∧ stale state)

section

variable {stale : SenderState → Prop} {l' l'' : SecureUdpListener}

theorem Shrunk.refl (wf : StoreWf l) : Shrunk stale l l :=
  ⟨wf, rfl, rfl, fun _ => Or.inl rfl⟩

theorem Shrunk.trans (first : Shrunk stale l l') (second : Shrunk stale l' l'') :
    Shrunk stale l l'' := by
  refine ⟨second.wf, second.gap.trans first.gap, second.trust.trans first.trust, fun q => ?_⟩
  -- what the first part dropped stays dropped
  rcases first.states q with same | ⟨gone, dropped⟩
  · rw [← same]
    exact second.states q
  · right
    refine ⟨?_, dropped⟩
    rcases second.states q with same | ⟨gone', _⟩
    · rw [same, gone]
    · exact gone'

/-- Counters and flags are not part of the map. -/
theorem Shrunk.congr (wf : StoreWf l) (slab : l'.slab = l.slab) (index : l'.index = l.index)
    (freeList : l'.freeList = l.freeList) (gap : l'.sessionRestartGap = l.sessionRestartGap)
    (trust : l'.recoveryTrust = l.recoveryTrust) : Shrunk stale l l' :=
  ⟨wf.congr slab index freeList, gap, trust, fun q => Or.inl (stateOf_congr slab index q)⟩

/-- A sender that is still there was there before, with the same state. -/
theorem Shrunk.stateOf (shrunk : Shrunk stale l l') {q : UInt32} (held : l'.stateOf q = some state) :
    l.stateOf q = some state := by
  rcases shrunk.states q with same | ⟨gone, _⟩
  · exact same.symm.trans held
  · rw [gone] at held
    cases held

end

/-- The sender has not been seen for the TTL. -/
def Stale (now : Nat) (state : SenderState) : Prop := now - state.lastSeen ≥ evictionTtl

/-- A slot in use is emptied, and its sender forgotten. -/
theorem StoreWf.clear (wf : StoreWf l) {slot : Nat} (in_slab : l.slab[slot]? = some (some state)) :
    StoreWf { l with
        slab := l.slab.set slot none
        index := (l.index.remove state.identity).1
        freeList := slot :: l.freeList } ∧
      ∀ q, stateOf { l with
          slab := l.slab.set slot none
          index := (l.index.remove state.identity).1
          freeList := slot :: l.freeList } q =
        if q = state.identity then none else l.stateOf q := by
  exact wf.write in_slab rfl nofun (.inl (wf.indexed slot state in_slab))
    (fun k => (l.index.get_remove state.identity k).2) (wf.listed.clear in_slab)

theorem evictSlotAt_swept (wf : StoreWf l) (now slot : Nat) :
    Shrunk (Stale now) l (evictSlotAt now l slot) := by
  unfold evictSlotAt
  split
  · exact .refl wf
  next state joined =>
    split
    next stale =>
      have in_slab := Option.join_eq_some_iff.mp joined
      have at_slot := wf.indexed slot state in_slab
      obtain ⟨wf', states⟩ := wf.clear in_slab
      refine ⟨wf', rfl, rfl, fun q => ?_⟩
      rw [states q]
      split
      next here =>
        right
        refine ⟨rfl, state, ?_, stale⟩
        exact here ▸ stateOf_eq_some_iff.mpr ⟨slot, at_slot, in_slab⟩
      next => exact Or.inl rfl
    next => exact .refl wf

theorem evictStaleSendersAt_swept (wf : StoreWf l) (now : Nat) :
    Shrunk (Stale now) l (l.evictStaleSendersAt now) := by
  -- the sweep is a run over the slots, and each step may drop one sender
  have related : StoreWf l →
      Shrunk (Stale now) l (Steps.run (evictSlotAt now) l (List.range l.slab.length)) :=
    Steps.run_related (r := fun l l' => StoreWf l → Shrunk (Stale now) l l') (fun l => Shrunk.refl)
      (fun l l' l'' first second wf => (first wf).trans (second (first wf).wf))
      (fun l slot wf => evictSlotAt_swept wf now slot) l (List.range l.slab.length)
  exact related wf

end SecureUdpListener

end Varta.Watch
