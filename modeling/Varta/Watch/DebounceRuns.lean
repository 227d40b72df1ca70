import Varta.Watch.RecoveryRuns

/-!
# The debounce over whole runs

The ledger has few slots and forgets: entries are pruned, and others take their slots. What it
forgets is over, so that the last fire of a pid is in the ledger or at least `debounce` old.
-/
namespace Varta.Watch.Recovery

open Machine
open Vlp (Bytes32)

/-! ### Fires of one pid -/

/-- The latest of the fires for `pid`; the list starts with the latest fire. -/
def lastFire (fires : List Firing) (pid : UInt32) : Option Firing := fires.find? (·.pid == pid)

theorem lastFire_pid {fires : List Firing} {pid : UInt32} {f : Firing}
    (last : lastFire fires pid = some f) : f.pid = pid := by
  simpa using List.find?_some last

theorem lastFire_mem {fires : List Firing} {pid : UInt32} {f : Firing}
    (last : lastFire fires pid = some f) : f ∈ fires :=
  List.mem_of_find?_eq_some last

/-- Each fire is a whole window after the fire before it for the same process. -/
def Spaced (debounce : Duration) (fires : List Firing) : Prop :=
  ∀ b earlier, b :: earlier <:+ fires → ∀ a, lastFire earlier b.pid = some a →
    sameLineage a.generation b.generation = true → a.firedAt + debounce.nanos ≤ b.firedAt

theorem Spaced.cons {debounce : Duration} {fires : List Firing} (spaced : Spaced debounce fires)
    (f : Firing) (waited : ∀ a, lastFire fires f.pid = some a →
      sameLineage a.generation f.generation = true → a.firedAt + debounce.nanos ≤ f.firedAt) :
    Spaced debounce (f :: fires) := by
  intro b earlier recent a last lineage
  rcases List.suffix_cons_iff.mp recent with same | before
  · obtain ⟨rfl, rfl⟩ := List.cons.inj same
    exact waited a last lineage
  · exact spaced b earlier before a last lineage

/-! ### What the ledger forgets -/

section

variable {env : Nat → Answer} {r r' : Recovery} {pid : UInt32} {generation : Option Nat}
  {slot : LastFiredSlot}

/-- An entry is pruned at ten windows, or not at all. -/
theorem mem_debounces (mem : some slot ∈ r.lastFired.slots) (now : Nat) :
    some slot ∈ (r.debounces pid generation now).2.slots ∨
      (r.debounce.saturatingMul 10).nanos ≤ now - slot.firedAt := by
  obtain ⟨resets, looked⟩ := r.debounces_snd pid generation now
  rw [looked]
  by_cases fresh : now - slot.firedAt < (r.debounce.saturatingMul 10).nanos
  · exact .inl (LastFiredTable.mem_pruneExpired.mpr ⟨mem, fresh⟩)
  · exact .inr (Nat.not_lt.mp fresh)

/-- A fire that the ledger knows of and does not hold back is a whole window later. -/
theorem waited_of_free (ordered : r.lastFired.Wf) (mem : some slot ∈ r.lastFired.slots)
    (now : Nat) (lineage : sameLineage slot.generation generation = true)
    (free : ¬(r.debounces slot.pid generation now).1 = true) :
    r.debounce.nanos ≤ now - slot.firedAt := by
  have pruned := ordered.pruneExpired now (r.debounce.saturatingMul 10)
  by_cases fresh : now - slot.firedAt < (r.debounce.saturatingMul 10).nanos
  · have found := LastFiredTable.get_fst pruned (LastFiredTable.mem_pruneExpired.mpr ⟨mem, fresh⟩)
      generation
    rw [if_pos lineage] at found
    -- the stall is let through although the lookup finds the entry, so the entry is old enough
    unfold debounces at free
    dsimp only at free
    generalize (r.lastFired.pruneExpired now (r.debounce.saturatingMul 10)).get slot.pid generation
      = result at found free
    obtain ⟨prev, lastFired⟩ := result
    obtain rfl : prev = some slot.firedAt := found
    simpa using free
  · exact (Duration.le_saturatingMul _ (by decide)).trans (Nat.not_lt.mp fresh)

/-- An entry leaves the ledger when its window is over, or for a new fire of its own pid. -/
theorem Stalled.mem_slots (stalled : Stalled env r pid generation r') (ordered : r.lastFired.Wf)
    (mem : some slot ∈ r.lastFired.slots) :
    some slot ∈ r'.lastFired.slots ∨
      r.debounce.nanos ≤ (r.world.answer env).instant - slot.firedAt ∨
      ∃ f, r'.world.fires = f :: r.world.fires ∧ f.pid = slot.pid := by
  cases stalled with
  | refused none_new lastFired => exact .inl (lastFired ▸ mem)
  | looked ledger held =>
    rcases @mem_debounces r pid generation slot mem (r.world.answer env).instant with kept | aged
    · cases ledger with
      | kept none_new lastFired => exact .inl (lastFired ▸ kept)
      | fired f at_ new reservation reserved lastFired =>
        rw [lastFired]
        have looked := wf_debounces ordered pid generation (r.world.answer env).instant
        -- a commit overwrites the entry of its own pid, or evicts one that is over
        rcases LastFiredTable.mem_commitReserved_of_mem looked reserved kept with
          stays | own | aged
        · exact .inl stays
        · refine .inr (.inr ⟨f, new, ?_⟩)
          rw [own, at_]
        · exact .inr (.inl aged)
    · exact .inr (.inl ((Duration.le_saturatingMul _ (by decide)).trans aged))

end

/-! ### One call -/

/-- The latest fire of each pid is in the ledger, or its window is over. -/
structure Debounced (env : Nat → Answer) (s : Session) : Prop where
  kept : Kept s
  past : ∀ f ∈ s.recovery.world.fires, f.firedAt ≤ (s.recovery.world.answer env).instant
  known : ∀ pid f, lastFire s.recovery.world.fires pid = some f →
    some { f with } ∈ s.recovery.lastFired.slots ∨
      f.firedAt + s.recovery.debounce.nanos ≤ (s.recovery.world.answer env).instant
  spaced : Spaced s.recovery.debounce s.recovery.world.fires

section

variable {chainHash : Option (Bytes32 → Bytes → Bytes → Bytes32)} {env : Nat → Answer}
  {s s' : Session}

theorem debounced_setUp (env : Nat → Answer) (mode : RecoveryMode) (debounce : Duration)
    (timeout : Option Duration) (settings : List Setting) :
    Debounced env ⟨setUp mode debounce timeout settings, [], []⟩ := by
  have none_yet : (setUp mode debounce timeout settings).world.fires = [] := by
    rw [(fresh_setUp mode debounce timeout settings).world]
    rfl
  refine ⟨kept_setUp mode debounce timeout settings, ?_, ?_, ?_⟩
  · simp [none_yet]
  · simp [none_yet, lastFire]
  · simp [none_yet, Spaced]

/-- A call that neither fires nor changes the entries of the ledger. -/
theorem Debounced.of_same (debounced : Debounced env s) (kept : Kept s')
    (clock : (s.recovery.world.answer env).instant ≤ (s'.recovery.world.answer env).instant)
    (window : s'.recovery.debounce = s.recovery.debounce)
    (fires : s'.recovery.world.fires = s.recovery.world.fires)
    (slots : s'.recovery.lastFired.slots = s.recovery.lastFired.slots) : Debounced env s' := by
  refine ⟨kept, ?_, ?_, ?_⟩
  · intro f mem
    rw [fires] at mem
    exact (debounced.past f mem).trans clock
  · intro pid f last
    rw [fires] at last
    rw [slots, window]
    exact (debounced.known pid f last).imp_right fun elapsed => elapsed.trans clock
  · rw [fires, window]
    exact debounced.spaced

/-- The latest fire of a pid is still known after a call that fires for another one at most. -/
theorem Debounced.still_known (debounced : Debounced env s)
    (clock : (s.recovery.world.answer env).instant ≤ (s'.recovery.world.answer env).instant)
    (window : s'.recovery.debounce = s.recovery.debounce) {pid : UInt32} {f : Firing}
    (last : lastFire s.recovery.world.fires pid = some f)
    (leaves : some { f with } ∈ s.recovery.lastFired.slots →
      some { f with } ∈ s'.recovery.lastFired.slots ∨
        s.recovery.debounce.nanos ≤ (s.recovery.world.answer env).instant - f.firedAt) :
    some { f with } ∈ s'.recovery.lastFired.slots ∨
      f.firedAt + s'.recovery.debounce.nanos ≤ (s'.recovery.world.answer env).instant := by
  rw [window]
  have past := debounced.past f (lastFire_mem last)
  rcases debounced.known pid f last with known | elapsed
  · rcases leaves known with stays | aged
    · exact .inl stays
    · right
      omega
  · right
    omega

section

variable (debounced : Debounced env s) (kept : Kept s')
  (clock : (s.recovery.world.answer env).instant ≤ (s'.recovery.world.answer env).instant)
  (window : s'.recovery.debounce = s.recovery.debounce)

include debounced kept clock window

/-- A stall that does not fire may still prune the ledger. -/
theorem Debounced.unfired {pid : UInt32} {generation : Option Nat}
    (stalled : Stalled env s.recovery pid generation s'.recovery)
    (none_new : s'.recovery.world.fires = s.recovery.world.fires) : Debounced env s' := by
  refine ⟨kept, ?_, ?_, ?_⟩
  · intro f mem
    rw [none_new] at mem
    exact (debounced.past f mem).trans clock
  · intro pid' f last
    rw [none_new] at last
    refine debounced.still_known clock window last fun known => ?_
    rcases stalled.mem_slots debounced.kept.ordered known with stays | aged | ⟨g, new, _⟩
    · exact .inl stays
    · exact .inr aged
    · simp [none_new] at new
  · rw [none_new, window]
    exact debounced.spaced

/-- A stall that fires: the ledger has let it, and has the fire now. -/
theorem Debounced.fired {f : Firing} (now : f.firedAt = (s.recovery.world.answer env).instant)
    (stalled : Stalled env s.recovery f.pid f.generation s'.recovery)
    (new : s'.recovery.world.fires = f :: s.recovery.world.fires)
    (entered : some { f with } ∈ s'.recovery.lastFired.slots)
    (free : ¬(s.recovery.debounces f.pid f.generation (s.recovery.world.answer env).instant).1 = true) :
    Debounced env s' := by
  refine ⟨kept, ?_, ?_, ?_⟩
  · intro g mem
    rw [new] at mem
    rcases List.mem_cons.mp mem with rfl | old
    · exact now.le.trans clock
    · exact (debounced.past g old).trans clock
  · intro pid g last
    rw [new, lastFire, List.find?_cons] at last
    split at last
    · cases last
      exact .inl entered
    -- for another pid the latest fire is what it was
    next other =>
      refine debounced.still_known clock window last fun known => ?_
      rcases stalled.mem_slots debounced.kept.ordered known with stays | aged | ⟨g', new', own⟩
      · exact .inl stays
      · exact .inr aged
      · -- the new fire is for another pid
        rw [new] at new'
        obtain ⟨rfl, _⟩ := List.cons.inj new'
        simp [own, lastFire_pid last] at other
  · rw [new, window]
    -- the ledger knew of the fire before, or its window was over already
    refine debounced.spaced.cons f fun a last lineage => ?_
    have past := debounced.past a (lastFire_mem last)
    rcases debounced.known f.pid a last with known | elapsed
    · have own := lastFire_pid last
      have waited := waited_of_free debounced.kept.ordered known _ lineage (own ▸ free)
      dsimp only at waited
      omega
    · exact now ▸ elapsed

theorem Debounced.stalled {pid : UInt32} {generation : Option Nat}
    (stalled : Stalled env s.recovery pid generation s'.recovery) : Debounced env s' := by
  cases shape : stalled with
  | refused none_new lastFired => exact debounced.unfired kept clock window stalled none_new
  | looked ledger held =>
    cases ledger with
    | kept none_new lastFired => exact debounced.unfired kept clock window stalled none_new
    | fired f at_ new reservation reserved lastFired =>
      obtain ⟨rfl, rfl, now⟩ := LastFiredSlot.mk.inj at_
      have looked := wf_debounces debounced.kept.ordered f.pid f.generation
        (s.recovery.world.answer env).instant
      have entered := LastFiredTable.mem_commitReserved looked reserved
      rw [← lastFired] at entered
      refine debounced.fired kept clock window now.symm stalled new (now ▸ entered) fun yes => ?_
      have none_new := held yes
      simp [new] at none_new

end

/-- What a call does to the fires and the ledger. -/
theorem step_ledger (kept : Kept s) (call : Call) :
    let s' := step chainHash env s call
    (∃ pid origin crossNamespaceAgent generation observerNs,
      call = .onStall pid origin crossNamespaceAgent generation observerNs ∧
        Stalled env s.recovery pid generation s'.recovery) ∨
      s'.recovery.world.fires = s.recovery.world.fires ∧
        s'.recovery.lastFired.slots = s.recovery.lastFired.slots := by
  cases call with
  | onStall pid origin crossNamespaceAgent generation observerNs =>
    exact .inl ⟨pid, origin, crossNamespaceAgent, generation, observerNs, rfl,
      (kept.stalls pid origin crossNamespaceAgent generation observerNs).1⟩
  | tryReapInto observerNs =>
    have leads := @tryReapInto_leads .bare s.recovery chainHash env kept.wf observerNs []
    obtain ⟨-, lastFired, -⟩ := @tryReapInto_aside chainHash env s.recovery observerNs
    exact .inr ⟨leads.fires_eq id, congrArg LastFiredTable.slots lastFired⟩
  | recordDeferredSkipAudit outcome observerNs =>
    obtain ⟨leads, aside⟩ := @recordDeferredSkipAudit_leads chainHash env .bare s.recovery []
      kept.wf outcome observerNs
    exact .inr ⟨leads.fires_eq id, congrArg LastFiredTable.slots aside.lastFired⟩
  | take counter =>
    have leads : Leads .bare s.recovery [] (s.recovery.take counter).2 [] :=
      (idle_take kept.wf counter).leads
    exact .inr ⟨leads.fires_eq id, (s.recovery.take_aside counter).1⟩

theorem Debounced.step (monotone : Monotone fun i => (env i).instant)
    (debounced : Debounced env s) (call : Call) :
    Debounced env (step chainHash env s call) := by
  have leads := @Kept.leads chainHash env s debounced.kept call
  have kept := @Kept.step chainHash env s debounced.kept call
  have clock := monotone leads.asked
  rcases @step_ledger chainHash env s debounced.kept call with
    ⟨_, _, _, _, _, -, stalled⟩ | ⟨fires, slots⟩
  · exact debounced.stalled kept clock leads.debounce stalled
  · exact debounced.of_same kept clock leads.debounce fires slots

/-- What a call takes out of the ledger. -/
theorem step_mem_slots (kept : Kept s) (call : Call) {slot : LastFiredSlot}
    (mem : some slot ∈ s.recovery.lastFired.slots) :
    let s' := Recovery.step chainHash env s call
    some slot ∈ s'.recovery.lastFired.slots ∨
      s.recovery.debounce.nanos ≤ (s.recovery.world.answer env).instant - slot.firedAt ∨
      ∃ f, s'.recovery.world.fires = f :: s.recovery.world.fires ∧ f.pid = slot.pid := by
  rcases @step_ledger chainHash env s kept call with ⟨_, _, _, _, _, -, stalled⟩ | ⟨_, slots⟩
  · exact stalled.mem_slots kept.ordered mem
  · exact .inl (slots ▸ mem)

/-! ### Stalls and fires -/

/-- A session, and the stalls so far that both gates let through, the latest first. -/
abbrev Gated := Session × List (UInt32 × Option Nat)

def gatedStep (chainHash : Option (Bytes32 → Bytes → Bytes → Bytes32)) (env : Nat → Answer)
    (seen : Gated) (call : Call) : Gated :=
  (step chainHash env seen.1 call, (match call with
    | .onStall pid origin cross generation _ =>
      if seen.1.recovery.passesGates origin cross then [(pid, generation)] else []
    | _ => []) ++ seen.2)

/-- Each fire has a stall of its own. -/
def Answered (seen : Gated) : Prop :=
  (seen.1.recovery.world.fires.map fun f => (f.pid, f.generation)).Sublist seen.2

theorem Answered.step {seen : Gated} (answered : Answered seen) (kept : Kept seen.1) (call : Call) :
    Answered (gatedStep chainHash env seen call) := by
  have unfired (same : (gatedStep chainHash env seen call).1.recovery.world.fires =
      seen.1.recovery.world.fires) : Answered (gatedStep chainHash env seen call) := by
    rw [Answered, same]
    exact List.Sublist.trans answered (List.sublist_append_right _ _)
  rcases @step_ledger chainHash env seen.1 kept call with
    ⟨pid, origin, cross, generation, ns, rfl, stalled⟩ | ⟨same, _⟩
  · cases passes : seen.1.recovery.passesGates origin cross with
    | false =>
      exact unfired
        (@onStall_of_refused .bare _ pid chainHash env _ _ generation ns kept.wf passes).none_new
    | true =>
      rcases stalled with ⟨same, _⟩ | ⟨⟨same, _⟩ | ⟨f, at_, new⟩, _⟩
      · exact unfired same
      · exact unfired same
      · obtain ⟨rfl, rfl, _⟩ := LastFiredSlot.mk.inj at_
        simp only [Answered, gatedStep, new, passes, if_true]
        exact List.Sublist.cons_cons _ answered
  · exact unfired same

end

/-- The children of a run answer, in order and each its own, stalls of an attested origin and
from an allowed namespace. -/
theorem children_answer_trusted_stalls (chainHash : Option (Bytes32 → Bytes → Bytes → Bytes32))
    (env : Nat → Answer) (mode : RecoveryMode) (debounce : Duration) (timeout : Option Duration)
    (settings : List Setting) (calls : List Call) :
    Answered (Steps.run (gatedStep chainHash env) (⟨setUp mode debounce timeout settings, [], []⟩, [])
      calls) := by
  have first : Answered (⟨setUp mode debounce timeout settings, [], []⟩, []) := by
    rw [Answered, (fresh_setUp mode debounce timeout settings).world]
    exact .slnil
  exact (@Steps.run_invariant _ _ _ (fun seen => Kept seen.1 ∧ Answered seen)
    (fun _ call ⟨kept, answered⟩ => ⟨kept.step call, answered.step kept call⟩) _ calls
    ⟨kept_setUp mode debounce timeout settings, first⟩).2

/-- With a clock that does not go back, two fires in a row for one process are a whole window
apart, whatever else the ledger has to hold. The ledger has one entry for each pid, a right count
and no violation; a prune takes out what is as old as its threshold, and all else that leaves the
ledger is a whole window old or makes room for a new fire of its own pid. -/
theorem debounce_never_bypassed (chainHash : Option (Bytes32 → Bytes → Bytes → Bytes32))
    (env : Nat → Answer) (monotone : Monotone fun i => (env i).instant) (mode : RecoveryMode)
    (debounce : Duration) (timeout : Option Duration) (settings : List Setting)
    (calls : List Call) :
    let s := after chainHash env mode debounce timeout settings calls
    let t := s.recovery.lastFired
    s.recovery.debounce = debounce.longer minRecoveryDebounce ∧
    Spaced s.recovery.debounce s.recovery.world.fires ∧
    (∀ (i j : Nat) slot slot', t.slots[i]? = some (some slot) → t.slots[j]? = some (some slot') →
      slot.pid = slot'.pid → i = j) ∧
    t.occupied = t.slots.countP Option.isSome ∧ t.invariantViolations = 0 ∧
    (∀ now slot, some slot ∈ t.slots →
      some slot ∉ (t.pruneExpired now (s.recovery.debounce.saturatingMul 10)).slots →
        (s.recovery.debounce.saturatingMul 10).nanos ≤ now - slot.firedAt) ∧
    ∀ call slot, some slot ∈ t.slots →
      let s' := step chainHash env s call
      some slot ∉ s'.recovery.lastFired.slots →
        s.recovery.debounce.nanos ≤ (s.recovery.world.answer env).instant - slot.firedAt ∨
          ∃ f, s'.recovery.world.fires = f :: s.recovery.world.fires ∧ f.pid = slot.pid := by
  intro s t
  have debounced : Debounced env s :=
    Steps.run_invariant (fun _ call debounced => debounced.step monotone call) calls
      (debounced_setUp env mode debounce timeout settings)
  have ordered := debounced.kept.ordered
  have window : s.recovery.debounce = debounce.longer minRecoveryDebounce :=
    (settings_run (kept_setUp mode debounce timeout settings) calls).2.trans
      (debounce_setUp mode debounce timeout settings)
  refine ⟨window, debounced.spaced, ordered.distinct, ordered.counted, ordered.clean, ?_, ?_⟩
  · intro now slot mem pruned
    rw [LastFiredTable.mem_pruneExpired, not_and] at pruned
    exact Nat.not_lt.mp (pruned mem)
  · intro call slot mem s' gone
    exact (step_mem_slots debounced.kept call mem).resolve_left gone

/-- Answers of an operating system on which every question takes a millisecond and every child
exits at once. -/
def tickingAnswer (time : Nat) : Answer := { promptAnswer with instant := time * 1000000 }

theorem debounce_never_bypassed_twice :
    let settings := [Setting.outstandingCapacity 1, .lastFiredCapacity 1 (by decide)]
    let calls := [Call.onStall 7 .kernelAttested false (some 1) 0, .tryReapInto 0,
      .onStall 7 .kernelAttested false (some 1) 0]
    let s := after none tickingAnswer
      (.exec ⟨Bytes.ofString "/bin/true", bin_true_valid⟩ []) (.ofMillis 2) none settings calls
    s.recovery.world.fires.map (·.firedAt) = [7000000, 0] ∧
      Spaced s.recovery.debounce s.recovery.world.fires :=
  ⟨by decide +kernel, (debounce_never_bypassed none tickingAnswer
    (fun _ _ le => Nat.mul_le_mul_right 1000000 le) _ _ none _ _).2.1⟩

end Varta.Watch.Recovery
