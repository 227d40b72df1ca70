import Mathlib.Data.List.ReduceOption
import Varta.Lib.Lists
import Varta.Lib.Machine

/-!
# The debounce ledger

`recovery/debounce.rs`: when recovery last fired for a pid. The ledger has a fixed number of
slots; an entry leaves it only for an entry of the same pid, or when it is old enough to say
nothing any more.
-/
namespace Varta.Watch

open Machine

/-! ### Lineages -/

/-- Two start times name the same process unless both are known and differ. -/
def sameLineage (stored incoming : Option Nat) : Bool :=
  match stored, incoming with
  | some a, some b => !decide (a ≠ b)
  | _, _ => true

/-! ### The table -/

def maxLastFiredCapacity : Nat := 4096

structure LastFiredSlot where
  pid : UInt32
  generation : Option Nat
  firedAt : Nat
  deriving DecidableEq, Repr

inductive InsertOutcome where
  | inserted
  | evictedOldest (evictedPid : UInt32)
  | refusedCapacity
  deriving DecidableEq, Repr

inductive ReservationKind where
  | existing
  | empty
  | evictOldest (evictedPid : UInt32)
  deriving DecidableEq, Repr

structure LastFiredReservation where
  idx : Nat
  pid : UInt32
  generation : Option Nat
  firedAt : Nat
  kind : ReservationKind
  deriving DecidableEq, Repr

def LastFiredReservation.slot (r : LastFiredReservation) : LastFiredSlot :=
  ⟨r.pid, r.generation, r.firedAt⟩

structure LastFiredTable where
  slots : List (Option LastFiredSlot)
  occupied : Nat
  evictions : Nat
  invariantViolations : Nat
  recycleResets : Nat

/-- What the scan over the slots found: a slot of the pid, the first empty slot, the oldest
slot of another pid. -/
structure Scan where
  existingSlot : Option Nat
  firstEmpty : Option Nat
  oldest : Option (Nat × Nat)

namespace LastFiredTable

def withCapacity (cap : Nat) : LastFiredTable := ⟨List.replicate cap none, 0, 0, 0, 0⟩

def new : LastFiredTable := withCapacity maxLastFiredCapacity

def violate (t : LastFiredTable) : LastFiredTable :=
  { t with invariantViolations := u64SaturatingAdd t.invariantViolations 1 }

def get (t : LastFiredTable) (pid : UInt32) (generation : Option Nat) :
    Option Nat × LastFiredTable :=
  match t.slots.reduceOption.find? (fun s => s.pid == pid) with
  | none => (none, t)
  | some s =>
    if sameLineage s.generation generation then (some s.firedAt, t)
    else (none, { t with recycleResets := u64SaturatingAdd t.recycleResets 1 })

/-- The scan of `try_reserve` from slot `idx` on; it ends at a slot of the pid. -/
def scanFrom (pid : UInt32) :
    List (Option LastFiredSlot) → Nat → Option Nat → Option (Nat × Nat) → Scan
  | [], _, firstEmpty, oldest => ⟨none, firstEmpty, oldest⟩
  | none :: rest, idx, firstEmpty, oldest =>
    scanFrom pid rest (idx + 1) (firstEmpty.or (some idx)) oldest
  | some s :: rest, idx, firstEmpty, oldest =>
    if s.pid = pid then ⟨some idx, firstEmpty, oldest⟩
    else
      let oldest := match oldest with
        | some (oldestIdx, oldestAt) =>
          if s.firedAt ≥ oldestAt then some (oldestIdx, oldestAt) else some (idx, s.firedAt)
        | none => some (idx, s.firedAt)
      scanFrom pid rest (idx + 1) firstEmpty oldest

def tryReserve (t : LastFiredTable) (pid : UInt32) (generation : Option Nat) (now : Nat)
    (debounce : Duration) : Option LastFiredReservation × LastFiredTable :=
  let scan := scanFrom pid t.slots 0 none none
  match scan.existingSlot with
  | some idx => (some ⟨idx, pid, generation, now, .existing⟩, t)
  | none =>
    match scan.firstEmpty with
    | some idx => (some ⟨idx, pid, generation, now, .empty⟩, t)
    | none =>
      match scan.oldest with
      | some (idx, oldestAt) =>
        if now - oldestAt ≥ debounce.nanos then
          match t.slots[idx]?.join with
          | some s => (some ⟨idx, pid, generation, now, .evictOldest s.pid⟩, t)
          | none => (none, t.violate)
        else (none, t)
      -- only a table without slots has neither an empty nor an oldest one
      | none => (none, t.violate)

def commitReserved (t : LastFiredTable) (r : LastFiredReservation) :
    InsertOutcome × LastFiredTable :=
  match t.slots[r.idx]? with
  | none => (.refusedCapacity, t.violate)
  | some slot =>
    let slots := t.slots.set r.idx (some r.slot)
    match r.kind with
    | .existing => (.inserted, { t with slots := slots })
    | .empty =>
      match slot with
      | none => (.inserted, { t with slots := slots, occupied := t.occupied + 1 })
      | some _ => (.inserted, { t.violate with slots := slots })
    | .evictOldest evictedPid =>
      let evictions := u64SaturatingAdd t.evictions 1
      match slot with
      | none => (.evictedOldest evictedPid,
          { t.violate with slots := slots, occupied := t.occupied + 1, evictions := evictions })
      | some _ => (.evictedOldest evictedPid, { t with slots := slots, evictions := evictions })

/-- The loop of `prune_expired`, with the count of the entries that are left. -/
def pruneFrom (now : Nat) (threshold : Duration) :
    List (Option LastFiredSlot) → Nat → List (Option LastFiredSlot) × Nat
  | [], occupied => ([], occupied)
  | none :: rest, occupied =>
    let (rest, occupied) := pruneFrom now threshold rest occupied
    (none :: rest, occupied)
  | some s :: rest, occupied =>
    if now - s.firedAt ≥ threshold.nanos then
      let (rest, occupied) := pruneFrom now threshold rest (occupied - 1)
      (none :: rest, occupied)
    else
      let (rest, occupied) := pruneFrom now threshold rest occupied
      (some s :: rest, occupied)

def pruneExpired (t : LastFiredTable) (now : Nat) (threshold : Duration) : LastFiredTable :=
  let (slots, occupied) := pruneFrom now threshold t.slots t.occupied
  { t with slots := slots, occupied := occupied }

def takeEvictions (t : LastFiredTable) : Nat × LastFiredTable :=
  (t.evictions, { t with evictions := 0 })

def takeInvariantViolations (t : LastFiredTable) : Nat × LastFiredTable :=
  (t.invariantViolations, { t with invariantViolations := 0 })

def takeRecycleResets (t : LastFiredTable) : Nat × LastFiredTable :=
  (t.recycleResets, { t with recycleResets := 0 })

/-! ### Well-formed ledgers -/

/-- One entry for each pid, a right count, and nothing impossible has happened. -/
structure Wf (t : LastFiredTable) : Prop where
  distinct : ∀ (i j : Nat) (s s' : LastFiredSlot), t.slots[i]? = some (some s) →
    t.slots[j]? = some (some s') → s.pid = s'.pid → i = j
  counted : t.occupied = t.slots.countP Option.isSome
  nonempty : t.slots ≠ []
  clean : t.invariantViolations = 0

theorem wf_withCapacity {cap : Nat} (positive : 0 < cap) : (withCapacity cap).Wf where
  distinct i j s s' held := by simp [withCapacity, List.getElem?_replicate] at held
  counted := by simp [withCapacity, List.countP_replicate]
  nonempty := by simp [withCapacity, Nat.ne_of_gt positive]
  clean := rfl

section

variable {t : LastFiredTable} {pid : UInt32} {generation : Option Nat} {now : Nat}
  {debounce threshold : Duration} {s s' : LastFiredSlot}

theorem Wf.unique (wf : t.Wf) (mem : some s ∈ t.slots) (mem' : some s' ∈ t.slots)
    (same : s.pid = s'.pid) : s = s' := by
  obtain ⟨i, held⟩ := List.mem_iff_getElem?.mp mem
  obtain ⟨j, held'⟩ := List.mem_iff_getElem?.mp mem'
  obtain rfl := wf.distinct i j s s' held held' same
  rw [held] at held'
  simpa using held'

/-! ### Looking up -/

theorem get_fst (wf : t.Wf) (mem : some s ∈ t.slots) (generation : Option Nat) :
    (t.get s.pid generation).1 =
      if sameLineage s.generation generation then some s.firedAt else none := by
  have found : t.slots.reduceOption.find? (fun e => e.pid == s.pid) = some s := by
    cases first : t.slots.reduceOption.find? (fun e => e.pid == s.pid) with
    | none =>
      have absent := List.find?_eq_none.mp first s (List.reduceOption_mem_iff.mpr mem)
      simp at absent
    | some e =>
      have same : e.pid = s.pid := by simpa using List.find?_some first
      have mem' : some e ∈ t.slots :=
        List.reduceOption_mem_iff.mp (List.mem_of_find?_eq_some first)
      rw [wf.unique mem' mem same]
  simp only [get, found]
  split
  · rfl
  · rfl

/-- A lookup counts resets and changes nothing else. -/
theorem get_snd (t : LastFiredTable) (pid : UInt32) (generation : Option Nat) :
    ∃ resets, (t.get pid generation).2 = { t with recycleResets := resets } := by
  unfold get
  split
  · exact ⟨_, rfl⟩
  · split
    · exact ⟨_, rfl⟩
    · exact ⟨_, rfl⟩

/-! ### Reserving a slot -/

/-- The scan has passed `seen` without meeting the pid. -/
structure Passed (pid : UInt32) (seen : List (Option LastFiredSlot)) (firstEmpty : Option Nat)
    (oldest : Option (Nat × Nat)) : Prop where
  others : ∀ s, some s ∈ seen → s.pid ≠ pid
  vacant : ∀ i, firstEmpty = some i → seen[i]? = some none
  full : firstEmpty = none → none ∉ seen
  old : ∀ i at_, oldest = some (i, at_) → ∃ s, seen[i]? = some (some s) ∧ s.firedAt = at_
  bare : oldest = none → ∀ s, some s ∉ seen

theorem passed_nil (pid : UInt32) : Passed pid [] none none := by
  constructor <;> simp

variable {seen rest : List (Option LastFiredSlot)} {firstEmpty : Option Nat}
  {oldest : Option (Nat × Nat)}

theorem Passed.empty (passed : Passed pid seen firstEmpty oldest) :
    Passed pid (seen ++ [none]) (firstEmpty.or (some seen.length)) oldest := by
  constructor
  · intro s member
    exact passed.others s (by simpa using member)
  · intro i first
    cases firstEmpty with
    | none =>
      obtain rfl : seen.length = i := by simpa using first
      simp
    | some j =>
      obtain rfl : j = i := by simpa using first
      exact Lists.getElem?_append_of_some (passed.vacant j rfl) _
  · intro nothing
    cases firstEmpty <;> simp at nothing
  · intro i at_ oldest
    obtain ⟨s, held, fired⟩ := passed.old i at_ oldest
    exact ⟨s, Lists.getElem?_append_of_some held _, fired⟩
  · intro nothing s member
    exact passed.bare nothing s (by simpa using member)

/-- The oldest entry so far, or the one in the next slot. -/
theorem Passed.other {oldest' : Option (Nat × Nat)} (passed : Passed pid seen firstEmpty oldest)
    (differs : s.pid ≠ pid) (next : oldest' = oldest ∧ oldest ≠ none ∨
      oldest' = some (seen.length, s.firedAt)) :
    Passed pid (seen ++ [some s]) firstEmpty oldest' := by
  constructor
  · intro e member
    rcases List.mem_append.mp member with before | here
    · exact passed.others e before
    · obtain rfl : e = s := by simpa using here
      exact differs
  · intro i first
    exact Lists.getElem?_append_of_some (passed.vacant i first) _
  · intro nothing member
    exact passed.full nothing (by simpa using member)
  · intro i at_ found
    rcases next with ⟨rfl, _⟩ | rfl
    · obtain ⟨e, held, fired⟩ := passed.old i at_ found
      exact ⟨e, Lists.getElem?_append_of_some held _, fired⟩
    · obtain ⟨rfl, rfl⟩ : seen.length = i ∧ s.firedAt = at_ := by simpa using found
      exact ⟨s, by simp, rfl⟩
  · intro nothing
    rcases next with ⟨rfl, known⟩ | rfl
    · exact absurd nothing known
    · cases nothing

/-- The scan ends at the slot of the pid, or it passes all slots. -/
theorem scanFrom_cases (passed : Passed pid seen firstEmpty oldest) :
    let scan := scanFrom pid rest seen.length firstEmpty oldest
    (∃ i s, scan.existingSlot = some i ∧ (seen ++ rest)[i]? = some (some s) ∧ s.pid = pid) ∨
      scan.existingSlot = none ∧ Passed pid (seen ++ rest) scan.firstEmpty scan.oldest := by
  -- induction on the slots that are left, with what the scan knows of those it has passed
  induction rest generalizing seen firstEmpty oldest with
  | nil => exact .inr ⟨rfl, by simpa [scanFrom] using passed⟩
  | cons slot rest ih =>
    cases slot with
    | none =>
      have later := ih passed.empty
      simpa [scanFrom] using later
    | some s =>
      simp only [scanFrom]
      split
      next own => exact .inl ⟨seen.length, s, rfl, by simp, own⟩
      next differs =>
        have later (oldest') (next : oldest' = oldest ∧ oldest ≠ none ∨
            oldest' = some (seen.length, s.firedAt)) := ih (passed.other differs next)
        simp only [List.length_append, List.length_singleton, List.append_assoc,
          List.singleton_append] at later
        apply later
        -- of two entries with one time the first stays the oldest
        split
        · split
          · simp
          · simp
        · simp

/-- What a reservation stands for: the pid's own slot; or the pid has none, and the slot is
empty or its entry too old to matter. -/
inductive Reserved (t : LastFiredTable) (debounce : Duration) (fired : LastFiredSlot) :
    LastFiredReservation → Prop where
  | existing (idx : Nat) (s : LastFiredSlot) (held : t.slots[idx]? = some (some s))
      (own : s.pid = fired.pid) :
      Reserved t debounce fired ⟨idx, fired.pid, fired.generation, fired.firedAt, .existing⟩
  | empty (idx : Nat) (held : t.slots[idx]? = some none)
      (others : ∀ s, some s ∈ t.slots → s.pid ≠ fired.pid) :
      Reserved t debounce fired ⟨idx, fired.pid, fired.generation, fired.firedAt, .empty⟩
  | evictOldest (idx : Nat) (s : LastFiredSlot) (held : t.slots[idx]? = some (some s))
      (aged : debounce.nanos ≤ fired.firedAt - s.firedAt)
      (others : ∀ s, some s ∈ t.slots → s.pid ≠ fired.pid) :
      Reserved t debounce fired
        ⟨idx, fired.pid, fired.generation, fired.firedAt, .evictOldest s.pid⟩

/-- A ledger with slots is never caught in an impossible state. -/
theorem tryReserve_cases (wf : t.Wf) (pid : UInt32) (generation : Option Nat) (now : Nat)
    (debounce : Duration) :
    (t.tryReserve pid generation now debounce).2 = t ∧
      ∀ r ∈ (t.tryReserve pid generation now debounce).1,
        Reserved t debounce ⟨pid, generation, now⟩ r := by
  have scanned := @scanFrom_cases pid [] t.slots none none (passed_nil pid)
  simp only [List.length_nil, List.nil_append] at scanned
  unfold tryReserve
  rcases scanned with ⟨i, s, found, held, own⟩ | ⟨missing, passed⟩
  · simp only [found, Option.mem_def, Option.some.injEq, forall_eq', true_and]
    exact .existing i s held own
  · simp only [missing]
    cases vacant : (scanFrom pid t.slots 0 none none).firstEmpty with
    | some i =>
      simp only [Option.mem_def, Option.some.injEq, forall_eq', true_and]
      exact .empty i (passed.vacant i vacant) passed.others
    | none =>
      cases old : (scanFrom pid t.slots 0 none none).oldest with
      | none =>
        -- neither an empty nor a taken slot: there is no slot
        obtain ⟨slot, rest, shape⟩ := List.exists_cons_of_ne_nil wf.nonempty
        cases slot with
        | none => exact absurd (by simp [shape]) (passed.full vacant)
        | some s => exact absurd (by simp [shape]) (passed.bare old s)
      | some found =>
        obtain ⟨i, at_⟩ := found
        obtain ⟨s, held, rfl⟩ := passed.old i at_ old
        simp only [held, Option.join_some]
        split
        next aged =>
          simp only [Option.mem_def, Option.some.injEq, forall_eq', true_and]
          exact .evictOldest i s held aged passed.others
        next => simp

/-! ### Committing a reservation -/

section

variable {fired : LastFiredSlot} {r : LastFiredReservation}

/-- The fire is written into a slot that nobody else's window depends on. -/
theorem commitReserved_eq (reserved : Reserved t debounce fired r) :
    ∃ occupied evictions, (t.commitReserved r).2 =
      { t with slots := t.slots.set r.idx (some fired), occupied := occupied,
               evictions := evictions } ∧
      occupied + (t.slots[r.idx]?.join.isSome).toNat = t.occupied + 1 := by
  cases reserved with
  | existing idx s held | empty idx held | evictOldest idx s held =>
    refine ⟨_, _, by simp only [commitReserved, held, LastFiredReservation.slot]; rfl, ?_⟩
    simp [held]

/-- The slot is there; its entry is the pid's own or its window is over, and the pid has no
entry elsewhere. -/
theorem Reserved.slot (reserved : Reserved t debounce fired r) (wf : t.Wf) :
    ∃ slot, t.slots[r.idx]? = some slot ∧
      (∀ s ∈ slot, s.pid = fired.pid ∨ debounce.nanos ≤ fired.firedAt - s.firedAt) ∧
      ∀ (i : Nat) s, t.slots[i]? = some (some s) → s.pid = fired.pid → i = r.idx := by
  cases reserved with
  | existing idx s held own =>
    refine ⟨some s, held, by simp [own], ?_⟩
    intro i s' held' same
    exact wf.distinct i idx s' s held' held (same.trans own.symm)
  | empty idx held others =>
    refine ⟨none, held, by simp, ?_⟩
    intro i s' held' same
    exact absurd same (others s' (List.mem_of_getElem? held'))
  | evictOldest idx s held aged others =>
    refine ⟨some s, held, by simp [aged], ?_⟩
    intro i s' held' same
    exact absurd same (others s' (List.mem_of_getElem? held'))

theorem Wf.commitReserved (wf : t.Wf) (reserved : Reserved t debounce fired r) :
    (t.commitReserved r).2.Wf := by
  obtain ⟨slot, held, _, alone⟩ := reserved.slot wf
  obtain ⟨occupied, evictions, committed, count⟩ := commitReserved_eq reserved
  have bound := (List.getElem?_eq_some_iff.mp held).1
  rw [committed]
  constructor
  · intro i j s s' at_i at_j same
    simp only [List.getElem?_set] at at_i at_j
    -- the pid of the fire has no entry but the one that is written
    by_cases here : r.idx = i <;> by_cases there : r.idx = j
    · exact here.symm.trans there
    · rw [if_pos here, if_pos bound] at at_i
      rw [if_neg there] at at_j
      obtain rfl : fired = s := by simpa using at_i
      exact absurd (alone j s' at_j same.symm).symm there
    · rw [if_neg here] at at_i
      rw [if_pos there, if_pos bound] at at_j
      obtain rfl : fired = s' := by simpa using at_j
      exact absurd (alone i s at_i same).symm here
    · rw [if_neg here] at at_i
      rw [if_neg there] at at_j
      exact wf.distinct i j s s' at_i at_j same
  -- one entry more in the slot if it was empty, as `commit_reserved` counts it
  · have written := @Lists.countP_set_add _ t.slots r.idx Option.isSome slot (some fired) held
    have counted := wf.counted
    simp only [held, Option.join_some] at count
    simp only [Option.isSome_some, Bool.toNat_true] at written
    simp only
    omega
  · simpa using wf.nonempty
  · exact wf.clean

theorem mem_commitReserved (wf : t.Wf) (reserved : Reserved t debounce fired r) :
    some fired ∈ (t.commitReserved r).2.slots := by
  obtain ⟨slot, held, _⟩ := reserved.slot wf
  obtain ⟨occupied, evictions, committed, _⟩ := commitReserved_eq reserved
  rw [committed]
  exact List.mem_set (List.getElem?_eq_some_iff.mp held).1 _

/-- An entry leaves the ledger for one of its own pid, or when its window is over. -/
theorem mem_commitReserved_of_mem (wf : t.Wf) (reserved : Reserved t debounce fired r)
    (mem : some s ∈ t.slots) : some s ∈ (t.commitReserved r).2.slots ∨ s.pid = fired.pid ∨
      debounce.nanos ≤ fired.firedAt - s.firedAt := by
  obtain ⟨slot, held, elapsed, _⟩ := reserved.slot wf
  obtain ⟨occupied, evictions, committed, _⟩ := commitReserved_eq reserved
  obtain ⟨i, at_i⟩ := List.mem_iff_getElem?.mp mem
  by_cases here : r.idx = i
  · subst here
    rw [held] at at_i
    obtain rfl : slot = some s := Option.some.inj at_i
    exact .inr (elapsed s rfl)
  · left
    rw [committed]
    apply List.mem_iff_getElem?.mpr
    exact ⟨i, by rw [List.getElem?_set_ne here, at_i]⟩

end

/-! ### Pruning -/

theorem pruneFrom_fst (slots : List (Option LastFiredSlot)) (occupied : Nat) :
    (pruneFrom now threshold slots occupied).1 =
      slots.map (·.filter fun s => now - s.firedAt < threshold.nanos) := by
  induction slots generalizing occupied with
  | nil => rfl
  | cons slot slots ih =>
    cases slot with
    | none => simp [pruneFrom, ih]
    | some s =>
      simp only [pruneFrom]
      split
      next aged => simp [ih, Option.filter, Nat.not_lt.mpr aged]
      next young => simp [ih, Option.filter, Nat.lt_of_not_le young]

theorem pruneFrom_snd (slots : List (Option LastFiredSlot)) (more : Nat) :
    (pruneFrom now threshold slots (slots.countP Option.isSome + more)).2 =
      (pruneFrom now threshold slots (slots.countP Option.isSome + more)).1.countP Option.isSome +
        more := by
  -- `more` stands for the entries that were passed and kept, which the count includes
  induction slots generalizing more with
  | nil => simp [pruneFrom]
  | cons slot slots ih =>
    cases slot with
    | none => simpa [pruneFrom] using ih more
    | some s =>
      have total : (some s :: slots).countP Option.isSome + more =
          slots.countP Option.isSome + (more + 1) := by
        simp only [List.countP_cons, Option.isSome_some, if_true]
        omega
      rw [total]
      simp only [pruneFrom]
      split
      next aged =>
        have later := ih more
        simpa using later
      next young =>
        have later := ih (more + 1)
        simp only [later, List.countP_cons, Option.isSome_some, if_true]
        omega

theorem pruneExpired_slots (t : LastFiredTable) (now : Nat) (threshold : Duration) :
    (t.pruneExpired now threshold).slots =
      t.slots.map (·.filter fun s => now - s.firedAt < threshold.nanos) :=
  pruneFrom_fst _ _

theorem mem_pruneExpired :
    some s ∈ (t.pruneExpired now threshold).slots ↔
      some s ∈ t.slots ∧ now - s.firedAt < threshold.nanos := by
  simp [pruneExpired_slots, Option.filter_eq_some_iff]

theorem Wf.pruneExpired (wf : t.Wf) (now : Nat) (threshold : Duration) :
    (t.pruneExpired now threshold).Wf := by
  have kept (i : Nat) (s : LastFiredSlot)
      (held : (t.pruneExpired now threshold).slots[i]? = some (some s)) :
      t.slots[i]? = some (some s) := by
    rw [pruneExpired_slots, List.getElem?_map] at held
    obtain ⟨slot, held, filtered⟩ := Option.map_eq_some_iff.mp held
    rw [held, (Option.filter_eq_some_iff.mp filtered).1]
  constructor
  · intro i j s s' at_i at_j same
    exact wf.distinct i j s s' (kept i s at_i) (kept j s' at_j) same
  · have counted := @pruneFrom_snd now threshold t.slots 0
    simp only [Nat.add_zero, ← wf.counted] at counted
    exact counted
  · rw [pruneExpired_slots]
    simpa using wf.nonempty
  · exact wf.clean

end

end LastFiredTable

end Varta.Watch
