import Varta.Watch.ReapWrites

/-!
# Every orphan is examined

`drain_orphan_reaps` walks around the list of orphans with a cursor that is kept from call to
call. An orphan that is done with is swapped out, so that the others change their places.
-/
namespace Varta.Watch

open Rotation (Walk wrapped)
open Vlp (Bytes32)

namespace Recovery

/-- One round of the loop of `drain_orphan_reaps`. -/
structure OrphanVisit where
  position : Nat
  /-- The number of orphans when the visit begins. -/
  listed : Nat
  /-- The orphan was taken out of the list. -/
  taken : Bool
  deriving DecidableEq, Repr

/-- The orphans that the visits examine, by the names they have in the list at the start. -/
def examined {τ : Type} : List τ → List OrphanVisit → List τ
  | _, [] => []
  | names, visit :: rest => names[visit.position]?.toList ++
    examined (if visit.taken then Lists.swapRemove names visit.position else names) rest

section

variable (chainHash : Option (Bytes32 → Bytes → Bytes → Bytes32)) (env : Nat → Answer)

/-- The visits of one call that may make `visits` of them. -/
def orphanVisits (observerNs : UInt64) : Nat → Recovery → List OrphanVisit
  | 0, _ => []
  | visits + 1, r =>
    let i := if r.orphanReapCursor ≥ r.reapingOrphans.length then 0 else r.orphanReapCursor
    match r.reapingOrphans[i]? with
    | none => []
    | some (pid, entry) =>
      let after := (visitOrphan chainHash env { r with orphanReapCursor := i } i pid entry
        observerNs).2
      ⟨i, r.reapingOrphans.length,
        decide (after.reapingOrphans.length < r.reapingOrphans.length)⟩ ::
          orphanVisits observerNs visits after

/-- A call of `drain_orphan_reaps`. Between the call before it and this one, anything may
happen that pushes no orphan. -/
structure DrainCall where
  resume : Recovery → Recovery
  orphans : ∀ r, (resume r).reapingOrphans = r.reapingOrphans
  cursor : ∀ r, (resume r).orphanReapCursor = r.orphanReapCursor
  reapMax : ∀ r, (resume r).reapMax = r.reapMax
  observerNs : UInt64
  outcomes : List RecoveryOutcome

def drainCall (r : Recovery) (call : DrainCall) : Recovery :=
  (drainOrphanReaps chainHash env call.observerNs (call.resume r).reapMax (call.resume r)
    call.outcomes).1

/-- The visits of successive calls. -/
def callVisits : Recovery → List DrainCall → List OrphanVisit
  | _, [] => []
  | r, call :: rest =>
    orphanVisits chainHash env call.observerNs (call.resume r).reapMax (call.resume r) ++
      callVisits (drainCall chainHash env r call) rest

end

/-! ### Visits as a walk -/

section

variable {chainHash : Option (Bytes32 → Bytes → Bytes → Bytes32)} {env : Nat → Answer}
  {r r' : Recovery}

/-- The names of the orphans move as the orphans do. -/
structure Names {τ : Type} (w : Walk τ) (r : Recovery) : Prop where
  length : w.items.length = r.reapingOrphans.length
  cursor : w.cursor = r.orphanReapCursor

def nameVisit {τ : Type} (w : Walk τ) (visit : OrphanVisit) : Walk τ := w.visit visit.taken

/-- The visit looks where the walk is, and there is an orphan there. -/
def Looks {τ : Type} (w : Walk τ) (visit : OrphanVisit) : Prop :=
  visit.position = w.place ∧ visit.listed = w.items.length ∧ w.items ≠ []

variable {τ : Type}

/-- Step lemma: a visit of the loop is a step of the walk. -/
theorem names_visit {w : Walk τ} (names : Names w r) (pid : UInt32) (entry : Outstanding)
    (observerNs : UInt64) (some_orphan : r.reapingOrphans ≠ []) :
    let i := wrapped r.orphanReapCursor r.reapingOrphans.length
    let after := (visitOrphan chainHash env { r with orphanReapCursor := i } i pid entry
      observerNs).2
    let visit : OrphanVisit := ⟨i, r.reapingOrphans.length,
      decide (after.reapingOrphans.length < r.reapingOrphans.length)⟩
    Looks w visit ∧ Names (nameVisit w visit) after ∧ after.reapMax = r.reapMax := by
  intro i after visit
  have some_name : w.items ≠ [] := by
    rw [← List.length_pos_iff, names.length]
    exact List.length_pos_iff.mpr some_orphan
  have place : w.place = i := by
    rw [Walk.place, names.cursor, names.length]
  have inside : i < r.reapingOrphans.length := by
    rw [← place, ← names.length]
    exact Walk.place_lt some_name
  obtain ⟨-, orphans, cursor', sink, w', written, walked⟩ := @visitOrphan_writes chainHash env
    { r with orphanReapCursor := i } i pid entry observerNs inside
  have list : after.reapingOrphans = orphans := congrArg reapingOrphans written
  have moved : after.orphanReapCursor = cursor' := congrArg orphanReapCursor written
  refine ⟨⟨place.symm, names.length.symm, some_name⟩, ?_, by rw [show after = _ from written]⟩
  rw [← list, ← moved] at walked
  rcases walked with ⟨length, cursor⟩ | ⟨length, cursor⟩
  · have stays : visit.taken = false := by
      apply decide_eq_false
      rw [show after.reapingOrphans.length = r.reapingOrphans.length from length]
      exact Nat.lt_irrefl _
    rw [nameVisit, stays]
    exact ⟨names.length.trans length.symm, (congrArg (· + 1) place).trans cursor.symm⟩
  · have goes : visit.taken = true := by
      apply decide_eq_true
      rw [show after.reapingOrphans.length = r.reapingOrphans.length - 1 from length]
      exact Nat.sub_lt (Nat.zero_lt_of_lt inside) Nat.one_pos
    rw [nameVisit, goes]
    refine ⟨?_, place.trans cursor.symm⟩
    change (Lists.swapRemove w.items w.place).length = _
    rw [Lists.length_swapRemove (Walk.place_lt some_name), names.length]
    exact length.symm

/-- What a call, or a number of calls, does to a walk. -/
structure Walked {τ : Type} (w : Walk τ) (visits : List OrphanVisit) (budget : Nat)
    (after : Recovery) : Prop where
  looks : Steps.Guarded nameVisit Looks w visits
  names : Names (Steps.run nameVisit w visits) after
  /-- The visits are all made, unless no orphan is left. -/
  made : visits.length = budget ∨ after.reapingOrphans = []

theorem walked_nothing {w : Walk τ} (names : Names w r) : Walked w [] 0 r :=
  ⟨trivial, names, Or.inl rfl⟩

/-- Run lemma: the loop of one call is a walk. -/
theorem drainOrphanReaps_walked {w : Walk τ} (names : Names w r) (observerNs : UInt64)
    (visits : Nat) (outcomes : List RecoveryOutcome) :
    let after := (drainOrphanReaps chainHash env observerNs visits r outcomes).1
    Walked w (orphanVisits chainHash env observerNs visits r) visits after ∧
      after.reapMax = r.reapMax := by
  induction visits generalizing r w outcomes with
  | zero => exact ⟨walked_nothing names, rfl⟩
  | succ visits ih =>
    unfold drainOrphanReaps orphanVisits
    dsimp only
    cases found : r.reapingOrphans[if r.orphanReapCursor ≥ r.reapingOrphans.length then 0
        else r.orphanReapCursor]? with
    | none =>
      -- a cursor that is in the list or 0 finds nothing in an empty list only
      have none_left : r.reapingOrphans = [] := by
        rw [List.getElem?_eq_none_iff] at found
        apply List.length_eq_zero_iff.mp
        split at found <;> omega
      exact ⟨⟨trivial, names, Or.inr none_left⟩, rfl⟩
    | some orphan =>
      obtain ⟨pid, entry⟩ := orphan
      have some_orphan : r.reapingOrphans ≠ [] := List.ne_nil_of_mem (List.mem_of_getElem? found)
      obtain ⟨looks, named, limit⟩ := @names_visit chainHash env r τ w names pid entry observerNs
        some_orphan
      obtain ⟨later, limits⟩ := ih named (outcomes ++ (visitOrphan chainHash env
        { r with orphanReapCursor := wrapped r.orphanReapCursor r.reapingOrphans.length }
        (wrapped r.orphanReapCursor r.reapingOrphans.length) pid entry observerNs).1)
      refine ⟨⟨⟨looks, later.looks⟩, later.names, ?_⟩, limits.trans limit⟩
      exact later.made.imp (congrArg (· + 1)) id

/-- Without orphans there is nothing to visit. -/
theorem Walked.none_left {w : Walk τ} {visits : List OrphanVisit} {budget : Nat} {after : Recovery}
    (walked : Walked w visits budget after) (none_left : w.items = []) :
    after.reapingOrphans = [] := by
  cases visits with
  | nil =>
    apply List.length_eq_zero_iff.mp
    rw [← walked.names.length]
    exact congrArg List.length none_left
  | cons visit rest => exact absurd none_left walked.looks.1.2.2

/-- Run lemma: successive calls are one walk. -/
theorem callVisits_walked {w : Walk τ} (names : Names w r) (calls : List DrainCall) :
    Walked w (callVisits chainHash env r calls) (calls.length * r.reapMax)
      (Steps.run (drainCall chainHash env) r calls) := by
  induction calls generalizing r w with
  | nil =>
    rw [List.length_nil, Nat.zero_mul]
    exact walked_nothing names
  | cons call rest ih =>
    have resumed : Names w (call.resume r) :=
      ⟨names.length.trans (congrArg List.length (call.orphans r)).symm,
        names.cursor.trans (call.cursor r).symm⟩
    obtain ⟨first, limit⟩ := @drainOrphanReaps_walked chainHash env _ τ w resumed call.observerNs
      (call.resume r).reapMax call.outcomes
    have same : (drainCall chainHash env r call).reapMax = r.reapMax := limit.trans (call.reapMax r)
    have later := @ih (drainCall chainHash env r call) _ first.names
    refine ⟨Steps.guarded_append.mpr ⟨first.looks, later.looks⟩, ?_, ?_⟩
    · rw [callVisits, Steps.run_append]
      exact later.names
    · rcases first.made with all | empty
      · rcases later.made with rest_all | rest_empty
        · left
          rw [callVisits, List.length_append, List.length_cons, all, rest_all, same, call.reapMax r,
            Nat.succ_mul, Nat.add_comm]
        · exact Or.inr rest_empty
      · have nobody : (Steps.run nameVisit w (orphanVisits chainHash env call.observerNs
            (call.resume r).reapMax (call.resume r))).items = [] := by
          apply List.length_eq_zero_iff.mp
          rw [first.names.length, empty]
          rfl
        exact Or.inr (later.none_left nobody)

/-! ### Coverage -/

/-- Visits that follow a walk see what it sees. -/
theorem examined_eq_seen {w : Walk τ} {visits : List OrphanVisit}
    (looks : Steps.Guarded nameVisit Looks w visits) :
    examined w.items visits = w.seen (visits.map (·.taken)) := by
  induction visits generalizing w with
  | nil => rfl
  | cons visit rest ih =>
    obtain ⟨⟨position, -, -⟩, rest_looks⟩ := looks
    have moved : (nameVisit w visit).items =
        if visit.taken then Lists.swapRemove w.items visit.position else w.items := by
      rw [nameVisit, Walk.visit, position]
      split <;> rfl
    rw [examined, ← moved, ih rest_looks, List.map_cons, Walk.seen, position]
    rfl

theorem run_nameVisit (w : Walk τ) (visits : List OrphanVisit) :
    Steps.run nameVisit w visits = Steps.run Walk.visit w (visits.map (·.taken)) := by
  unfold Steps.run
  rw [List.foldl_map]
  rfl

/-- Whatever the children and the pipes answer, and whatever happens between the calls as long
as no orphan is pushed: each visit of successive calls is at a place of the list, and the first
2L visits have examined each of the L orphans. -/
theorem orphan_reap_coverage (chainHash : Option (Bytes32 → Bytes → Bytes → Bytes32))
    (env : Nat → Answer) (r : Recovery) (calls : List DrainCall) :
    let count := r.reapingOrphans.length
    let visits := callVisits chainHash env r calls
    (∀ visit ∈ visits, visit.position < visit.listed) ∧
      (2 * count ≤ calls.length * r.reapMax →
        ∀ orphan < count, orphan ∈ examined (List.range count) (visits.take (2 * count))) := by
  intro count visits
  let start : Walk Nat := ⟨List.range count, r.orphanReapCursor⟩
  have walked : Walked start visits (calls.length * r.reapMax) _ :=
    callVisits_walked ⟨List.length_range, rfl⟩ calls
  constructor
  · intro visit member
    obtain ⟨before, after, split⟩ := List.append_of_mem member
    have looks := walked.looks
    rw [split, Steps.guarded_append] at looks
    obtain ⟨position, listed, some_orphan⟩ := looks.2.1
    rw [position, listed]
    exact Walk.place_lt some_orphan
  · intro enough orphan named
    have held : start.items[orphan]? = some orphan := List.getElem?_range named
    have looks : Steps.Guarded nameVisit Looks start (visits.take (2 * count)) := by
      have whole := walked.looks
      rw [← List.take_append_drop (2 * count) visits, Steps.guarded_append] at whole
      exact whole.1
    have same := examined_eq_seen looks
    rw [show start.items = List.range count from rfl] at same
    rw [same]
    apply Walk.mem_seen held
    rw [List.length_map, List.length_take, show start.items.length = count from List.length_range]
    by_cases long : 2 * count ≤ visits.length
    · left
      omega
    -- fewer visits than twice the orphans: the list ran empty
    · right
      have empty := walked.made.resolve_left (by omega)
      rw [List.take_of_length_le (by omega), ← run_nameVisit]
      apply List.length_eq_zero_iff.mp
      rw [walked.names.length, empty]
      rfl

end

/-! ### Three orphans -/

/-- A child with closed pipes that has not been waited for. -/
def wedged (serial : Nat) : Outstanding where
  child := ⟨serial, 100⟩
  spawnedAt := 0
  killed := true
  generation := some 1
  wallclockAtSpawnMs := 0
  stdoutHandle := false
  stderrHandle := false
  stdoutLen := 0
  stderrLen := 0
  truncated := false
  completedStatus := none
  completedAt := none

def orphaned : Recovery :=
  { withTimeout (.exec ⟨Bytes.ofString "/bin/true", bin_true_valid⟩ []) (.ofMillis 1) none with
    reapMax := 2
    reapingOrphans := [(7, wedged 0), (8, wedged 1), (9, wedged 2)]
    orphanReapCursor := 1 }

/-- The first child that is asked has exited, and the others are still running. -/
def firstExits (asked : Nat) : Answer where
  instant := 0
  wallclockMs := 0
  spawn := .ok ⟨100, false⟩
  setNonblocking := true
  tryWait := .ok (if asked = 0 then some ⟨some 0, none⟩ else none)
  kill := .ok ()
  read := .ok 0

def plainDrain : DrainCall where
  resume := id
  orphans _ := rfl
  cursor _ := rfl
  reapMax _ := rfl
  observerNs := 0
  outcomes := []

/-- The orphan in the middle is taken out and the last one is put there and examined next. -/
theorem orphan_reap_coverage_swapped :
    (callVisits none firstExits orphaned [plainDrain, plainDrain, plainDrain]).take 3 =
        [⟨1, 3, true⟩, ⟨1, 2, false⟩, ⟨0, 2, false⟩] ∧
      ∀ orphan < 3, orphan ∈ examined (List.range 3)
        ((callVisits none firstExits orphaned [plainDrain, plainDrain, plainDrain]).take 6) :=
  ⟨by decide +kernel,
    (orphan_reap_coverage none firstExits orphaned [plainDrain, plainDrain, plainDrain]).2
      (by decide)⟩

end Recovery

end Varta.Watch
