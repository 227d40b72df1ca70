import Varta.Watch.Tracker

/-!
# The scan for a victim

What `find_evictable_slot` looks at, what it finds and what it changes: said once, for all that
is proved about a full tracker.
-/
namespace Varta.Watch.Tracker

open Machine

/-! ### One scan -/

/-- All a scan changes of the tracker. -/
def Rescanned (t t' : Tracker) : Prop :=
  ∃ cursor truncated, t' =
    { t with evictionScanCursor := cursor, evictionScanTruncated := truncated }

theorem Rescanned.refl (t : Tracker) : Rescanned t t := ⟨_, _, rfl⟩

variable {t t' : Tracker}

theorem Rescanned.trans {t'' : Tracker} (first : Rescanned t t') (second : Rescanned t' t'') :
    Rescanned t t'' := by
  obtain ⟨_, _, rfl⟩ := first
  obtain ⟨_, _, rfl⟩ := second
  exact ⟨_, _, rfl⟩

theorem Rescanned.entries (scan : Rescanned t t') : t'.entries = t.entries := by
  obtain ⟨_, _, rfl⟩ := scan
  rfl

theorem Rescanned.window (scan : Rescanned t t') :
    t'.evictionScanWindow = t.evictionScanWindow := by
  obtain ⟨_, _, rfl⟩ := scan
  rfl

/-- What a search through `visited` for a slot that is `wanted` says. The cursor stays or is one
of a table of `n` slots. -/
structure Searched (wanted : Slot → Bool) (visited : List Nat) (n : Nat) (t : Tracker)
    (result : Option Nat × Tracker) : Prop where
  kept : Rescanned t result.2
  cursor : result.2.evictionScanCursor = t.evictionScanCursor ∨ result.2.evictionScanCursor < n
  found : ∀ idx, result.1 = some idx → ∃ slot, t.entries[idx]? = some slot ∧ wanted slot = true
  missed : result.1 = none → ∀ idx ∈ visited, ∀ slot, t.entries[idx]? = some slot →
    wanted slot = false

/-- Inside the table there is no entry to miss. -/
theorem scanFrom_searched (nowNs evictThreshold : Nat) (requireStall : Bool) {n : Nat}
    (positive : 0 < n) {visited : List Nat} (inside : ∀ idx ∈ visited, idx < t.entries.length) :
    Searched (evictable nowNs evictThreshold requireStall) visited n t
      (scanFrom nowNs evictThreshold requireStall n visited t) := by
  induction visited with
  | nil => exact ⟨.refl t, .inl rfl, by simp [scanFrom], by simp⟩
  | cons idx later ih =>
    rw [List.forall_mem_cons] at inside
    obtain ⟨slot, held⟩ : ∃ slot, t.entries[idx]? = some slot :=
      ⟨_, List.getElem?_eq_getElem inside.1⟩
    unfold scanFrom
    rw [held]
    dsimp only
    split
    next taken =>
      refine ⟨⟨_, _, rfl⟩, .inr (Nat.mod_lt _ positive), ?_, by simp⟩
      rintro _ ⟨⟩
      exact ⟨slot, held, taken⟩
    next passed =>
      have rest := ih inside.2
      refine ⟨rest.kept, rest.cursor, rest.found, fun nothing => ?_⟩
      rw [List.forall_mem_cons]
      refine ⟨fun slot' held' => ?_, rest.missed nothing⟩
      cases held.symm.trans held'
      exact Bool.eq_false_iff.mpr passed

/-- The slots the next scan looks among. -/
def scanSize (t : Tracker) : Nat := min t.len t.entries.length

/-- The positions the next scan visits. -/
def scanPositions (t : Tracker) : List Nat :=
  (List.range (min t.evictionScanWindow t.scanSize)).map fun i =>
    (t.evictionScanCursor % t.scanSize + i) % t.scanSize

theorem scanPositions_lt (positive : 0 < t.scanSize) :
    ∀ idx ∈ t.scanPositions, idx < t.entries.length := by
  intro idx there
  obtain ⟨i, _, rfl⟩ := List.mem_map.mp there
  exact Nat.lt_of_lt_of_le (Nat.mod_lt _ positive) (Nat.min_le_right _ _)

/-- Where the scan after a scan without a victim starts. -/
def cursorBehind (t : Tracker) : Nat :=
  (t.evictionScanCursor % t.scanSize + min t.evictionScanWindow t.scanSize) % t.scanSize

theorem scanWindow_eq (nonempty : t.scanSize ≠ 0) (nowNs evictThreshold : Nat)
    (requireStall : Bool) :
    t.scanWindow nowNs evictThreshold requireStall =
      match scanFrom nowNs evictThreshold requireStall t.scanSize t.scanPositions t with
      | (some idx, t') => (some idx, t')
      | (none, t') => (none, { t' with evictionScanCursor := t.cursorBehind }) :=
  if_neg nonempty

/-- A pass over the window: a search that moves the cursor behind the window if it fails. -/
structure Passed (wanted : Slot → Bool) (t : Tracker) (result : Option Nat × Tracker) : Prop
    extends Searched wanted t.scanPositions t.scanSize t result where
  behind : result.1 = none → result.2.evictionScanCursor = t.cursorBehind

theorem scanWindow_passed (t : Tracker) (nowNs evictThreshold : Nat) (requireStall : Bool) :
    Passed (evictable nowNs evictThreshold requireStall) t
      (t.scanWindow nowNs evictThreshold requireStall) := by
  by_cases nonempty : t.scanSize = 0
  · have scan : t.scanWindow nowNs evictThreshold requireStall = (none, t) := if_pos nonempty
    rw [scan]
    exact ⟨⟨.refl t, .inl rfl, by simp, by simp [scanPositions, nonempty]⟩,
      by simp [cursorBehind, nonempty]⟩
  · rw [scanWindow_eq nonempty]
    have positive := Nat.pos_of_ne_zero nonempty
    have scan := scanFrom_searched nowNs evictThreshold requireStall positive
      (scanPositions_lt positive)
    generalize scanFrom nowNs evictThreshold requireStall t.scanSize t.scanPositions t = result
      at scan ⊢
    obtain ⟨found, t'⟩ := result
    cases found with
    | some idx => exact ⟨scan, by simp⟩
    | none =>
      exact ⟨⟨scan.kept.trans ⟨_, _, rfl⟩, .inr (Nat.mod_lt _ positive), by simp, scan.missed⟩,
        fun _ => rfl⟩

/-- With the cursor put back, a second pass is a pass over the window of the first. -/
theorem Passed.restored {wanted : Slot → Bool} {result : Option Nat × Tracker}
    (kept : Rescanned t t')
    (second : Passed wanted { t' with evictionScanCursor := t.evictionScanCursor } result) :
    Passed wanted t result := by
  obtain ⟨_, _, rfl⟩ := kept
  exact ⟨⟨Rescanned.trans ⟨_, _, rfl⟩ second.kept, second.cursor, second.found, second.missed⟩,
    second.behind⟩

/-! ### One search for a victim -/

/-- Long silent: `EVICTION_MULTIPLIER` times the threshold. -/
def longSilent (nowNs thresholdNs : Nat) (slot : Slot) : Bool :=
  decide (nowNs - slot.lastNs ≥ u64SaturatingMul thresholdNs evictionMultiplier)

/-- The slots that may be evicted under a policy. -/
def eligible (policy : EvictionPolicy) (nowNs thresholdNs : Nat) (slot : Slot) : Bool :=
  longSilent nowNs thresholdNs slot && (decide (policy = .balanced) || slot.stallEmitted)

/-- What `find_evictable_slot` says. It moves the cursor and looks at the window only if there
is a slot the policy could evict. -/
structure Sought (t : Tracker) (nowNs thresholdNs : Nat) (result : Option Nat × Tracker) : Prop where
  kept : Rescanned t result.2
  cursor : result.2.evictionScanCursor = t.evictionScanCursor ∨
    result.2.evictionScanCursor < t.scanSize
  found : ∀ idx, result.1 = some idx → ∃ slot, t.entries[idx]? = some slot ∧
    eligible t.evictionPolicy nowNs thresholdNs slot = true
  missed : result.1 = none → t.stallEmittedCount > 0 ∨ t.evictionPolicy = .balanced →
    result.2.evictionScanCursor = t.cursorBehind ∧
      ∀ idx ∈ t.scanPositions, ∀ slot, t.entries[idx]? = some slot →
        eligible t.evictionPolicy nowNs thresholdNs slot = false

theorem eligible_of_evictable {nowNs thresholdNs : Nat} {slot : Slot} (policy : EvictionPolicy)
    (taken : evictable nowNs (u64SaturatingMul thresholdNs evictionMultiplier) true slot = true) :
    eligible policy nowNs thresholdNs slot = true := by
  simp only [evictable, Bool.not_true, Bool.false_or, Bool.and_eq_true] at taken
  simp only [eligible, longSilent, taken.1, taken.2, Bool.or_true, Bool.and_self]

theorem eligible_strict (nowNs thresholdNs : Nat) :
    eligible .strict nowNs thresholdNs =
      evictable nowNs (u64SaturatingMul thresholdNs evictionMultiplier) true := by
  funext slot
  simp [eligible, evictable, longSilent]

theorem eligible_balanced (nowNs thresholdNs : Nat) :
    eligible .balanced nowNs thresholdNs =
      evictable nowNs (u64SaturatingMul thresholdNs evictionMultiplier) false := by
  funext slot
  simp [eligible, evictable, longSilent]

section

variable {nowNs thresholdNs : Nat}

theorem Passed.hit {idx : Nat}
    (pass : Passed (eligible t.evictionPolicy nowNs thresholdNs) t (some idx, t')) :
    Sought t nowNs thresholdNs (some idx, t') :=
  ⟨pass.kept, pass.cursor, pass.found, by simp⟩

/-- A miss is counted. -/
theorem Passed.miss (pass : Passed (eligible t.evictionPolicy nowNs thresholdNs) t (none, t'))
    (truncated : Nat) :
    Sought t nowNs thresholdNs (none, { t' with evictionScanTruncated := truncated }) :=
  ⟨pass.kept.trans ⟨_, _, rfl⟩, pass.cursor, by simp,
    fun _ _ => ⟨pass.behind rfl, pass.missed rfl⟩⟩

end

theorem findEvictableSlot_sought (t : Tracker) (nowNs thresholdNs : Nat) :
    Sought t nowNs thresholdNs (t.findEvictableSlot nowNs thresholdNs) := by
  have pass := scanWindow_passed t nowNs (u64SaturatingMul thresholdNs evictionMultiplier) true
  unfold findEvictableSlot
  dsimp only
  split
  next idx t' taken =>
    -- only a pass that is made finds something
    split at taken
    next made =>
      rw [taken] at pass
      refine ⟨pass.kept, pass.cursor, ?_, by simp⟩
      rintro _ ⟨⟩
      obtain ⟨slot, held, wanted⟩ := pass.found idx rfl
      exact ⟨slot, held, eligible_of_evictable _ wanted⟩
    next => cases taken
  next t' nothing =>
    cases policy : t.evictionPolicy with
    | balanced =>
      have kept : Rescanned t t' := by
        split at nothing
        next => rw [nothing] at pass; exact pass.kept
        next => cases nothing; exact .refl t
      have again := (scanWindow_passed { t' with evictionScanCursor := t.evictionScanCursor } nowNs
        (u64SaturatingMul thresholdNs evictionMultiplier) false).restored kept
      rw [← eligible_balanced, ← policy] at again
      simp only [decide_true, if_true, Bool.or_true]
      split
      next idx t' taken => exact Passed.hit (taken ▸ again)
      next t' missed => exact Passed.miss (missed ▸ again) _
    | strict =>
      simp only [reduceCtorEq, decide_false, Bool.false_eq_true, if_false, Bool.or_false]
      split
      next latched =>
        rw [if_pos latched] at nothing
        rw [nothing, ← eligible_strict, ← policy] at pass
        exact pass.miss _
      next silent =>
        -- nothing is latched, and nothing else is looked for
        rw [if_neg silent] at nothing
        cases nothing
        refine ⟨.refl t, .inl rfl, by simp, fun _ possible => ?_⟩
        rcases possible with latched | balanced
        · exact absurd (decide_eq_true latched) silent
        · cases policy.symm.trans balanced

end Varta.Watch.Tracker
