import Varta.Watch.ObserverSteps

/-!
# The main loop

A tick of the daemon drains ingress if stalls are queued, hands the queued stalls to recovery
within the budgets of the tick, polls once and does maintenance. A stall that a budget held
back is checked again before recovery fires. A stall of the first pass is not: for it, only
the pre-drain stands between the queue and recovery.
-/
namespace Varta.Watch

open Observer
open Tracker (StallEvent Latched)

/-! ### A tick -/

/-- The limits of one tick. -/
structure Budgets where
  predrainIngressMax : Nat
  stallEvalMax : Nat
  spawnMax : Nat

/-- `RECOVERY_PREDRAIN_INGRESS_MAX_PER_TICK`, `RECOVERY_STALL_EVAL_MAX_PER_TICK` and
`RECOVERY_SPAWN_MAX_PER_TICK`. -/
def perTick : Budgets := ⟨4096, 256, 16⟩

/-- The answers of the operating system and of recovery during one tick. -/
structure TickInput where
  /-- The polls of the pre-drain, by number. -/
  predrain : Nat → PollInput
  /-- The start time of a pid when stall number `k` is evaluated. -/
  readGeneration : Nat → UInt32 → Option Nat
  /-- Whether the `on_stall` of stall number `k` ends in a spawn or in a failed one. -/
  didSpawn : Nat → Bool
  poll : PollInput
  /-- The clock as maintenance reads it, before and after it refreshes `pid_max`. -/
  exportClocks : List Nat
  pidMaxClock : Nat
  pidMaxReading : UInt32
  reapClocks : List Nat

/-- A call of `Recovery::on_stall`, and the observer at that moment. -/
structure OnStall where
  stall : StallEvent
  crossNamespaceAgent : Bool
  observer : Observer

/-- The pre-drain: polls until the sockets are empty or the budget is spent. -/
def predrain (input : Nat → PollInput) : Nat → Nat → Observer → Observer
  | 0, _, o => o
  | budget + 1, k, o =>
    let o := (o.poll (input k)).2
    -- an empty poll ends the pre-drain early
    if o.lastPollConsumed then predrain input budget (k + 1) o else o

def crossNamespaceAgent (o : Observer) (stall : StallEvent) : Bool :=
  match o.observerNsInode, stall.pidNsInode with
  | some a, some b => decide (a ≠ b)
  | _, _ => false

/-- What the loop over the queued stalls leaves behind. -/
structure Evaluated where
  calls : List OnStall
  /-- A budget ended the loop. -/
  budgetReached : Bool
  observer : Observer

/-- The loop over the queued stalls. The first number is what is left of the evaluation
budget, the second numbers the stalls, the third counts the spawns. -/
def evaluateStalls (spawnMax : Nat) (recovery : Bool) (input : TickInput) :
    Nat → Nat → Nat → Observer → Evaluated
  | 0, _, _, o => ⟨[], true, o⟩
  | budget + 1, k, spawns, o =>
    match o.pollPendingForRecovery with
    | (none, o) => ⟨[], false, o⟩
    | (some (stall, requiresFreshnessCheck), o) =>
      -- without recovery the stalls are only taken out of the queue
      if recovery = false then
        evaluateStalls spawnMax recovery input budget (k + 1) spawns o
      else if requiresFreshnessCheck ∧
          o.tracker.stallFreshness stall.pid stall.generation (input.readGeneration k) ≠
            .warranted then
        evaluateStalls spawnMax recovery input budget (k + 1) spawns o
      else
        -- a stall of the first pass gets here without a look at its slot
        let call : OnStall := ⟨stall, crossNamespaceAgent o stall, o⟩
        let spawns := if input.didSpawn k then spawns + 1 else spawns
        if input.didSpawn k ∧ spawns ≥ spawnMax then ⟨[call], true, o⟩
        else
          let rest := evaluateStalls spawnMax recovery input budget (k + 1) spawns o
          { rest with calls := call :: rest.calls }

/-- Step 1 of a tick. -/
def drainPending (budgets : Budgets) (recovery : Bool) (input : TickInput) (o : Observer) :
    List OnStall × Observer :=
  let done := evaluateStalls budgets.spawnMax recovery input budgets.stallEvalMax 0 0 o
  -- what a budget held back is no longer of the first pass
  if recovery && done.observer.hasPendingStalls && done.budgetReached then
    (done.calls, done.observer.deferRemainingStallsForRecovery)
  else (done.calls, done.observer)

/-- Step 3 of a tick, as far as it reaches the observer's clock and limits. -/
def maintain (input : TickInput) (o : Observer) : Observer :=
  Steps.run applyStep o (input.exportClocks.map .readClock ++
    .refreshPidMax input.pidMaxClock input.pidMaxReading :: input.reapClocks.map .readClock)

/-- The daemon between two ticks: the observer, and the calls of `on_stall` so far. -/
structure Daemon where
  observer : Observer
  onStalls : List OnStall

/-- The observer when the queued stalls are looked at. -/
def predrained (budgets : Budgets) (recovery : Bool) (input : TickInput) (o : Observer) :
    Observer :=
  if recovery && o.hasPendingStalls then predrain input.predrain budgets.predrainIngressMax 0 o
  else o

def tick (budgets : Budgets) (recovery : Bool) (d : Daemon) (input : TickInput) : Daemon :=
  -- step 1a, step 1, step 2 and step 3
  let o := predrained budgets recovery input d.observer
  let (calls, o) := drainPending budgets recovery input o
  ⟨maintain input (o.poll input.poll).2, d.onStalls ++ calls⟩

/-! ### What is queued -/

/-- The pids whose queued stall will not be checked again. -/
def firstPass (o : Observer) : List UInt32 :=
  ((o.stallQueue.take o.stallDeferredFrom).drop o.stallCursor).filterMap
    (Option.map StallEvent.pid)

/-- Every stall from the cursor on is there, and those of the first pass are latched. -/
structure Queued (o : Observer) : Prop where
  wf : o.tracker.Wf
  filled : ∀ i, o.stallCursor ≤ i → i < o.stallQueue.length →
    ∃ stall, o.stallQueue[i]? = some (some stall)
  latched : ∀ pid ∈ firstPass o, Latched (o.tracker.slotOf pid)

variable {o : Observer} {pid : UInt32}

theorem firstPass_congr {o' : Observer} (same : SameQueue o o') : firstPass o' = firstPass o := by
  unfold firstPass
  rw [same.stallQueue, same.stallCursor, same.stallDeferredFrom]

/-- A change that leaves the queue and the slots of its first pass alone. -/
theorem Queued.congr {o' : Observer} (queued : Queued o) (same : SameQueue o o')
    (wf : o'.tracker.Wf) (slots : ∀ pid ∈ firstPass o, o'.tracker.slotOf pid = o.tracker.slotOf pid) :
    Queued o' := by
  refine ⟨wf, ?_, ?_⟩
  · rw [same.stallQueue, same.stallCursor]
    exact queued.filled
  · rw [firstPass_congr same]
    intro pid member
    rw [slots pid member]
    exact queued.latched pid member

theorem hasPendingStalls_iff : o.hasPendingStalls = true ↔ o.stallCursor < o.stallQueue.length :=
  decide_eq_true_iff

theorem exists_of_mem_firstPass (member : pid ∈ firstPass o) :
    ∃ stall : StallEvent, some stall ∈ o.stallQueue ∧ stall.pid = pid := by
  obtain ⟨entry, queued, named⟩ := List.mem_filterMap.mp member
  obtain ⟨stall, rfl, own⟩ := Option.map_eq_some_iff.mp named
  exact ⟨stall, List.mem_of_mem_take (List.mem_of_mem_drop queued), own⟩

theorem mem_firstPass {stall : StallEvent} (next : o.stallQueue[o.stallCursor]? = some (some stall))
    (first : o.stallCursor < o.stallDeferredFrom) : stall.pid ∈ firstPass o := by
  refine List.mem_filterMap.mpr ⟨some stall, List.mem_of_getElem? (i := 0) ?_, rfl⟩
  rw [List.getElem?_drop, Nat.add_zero, List.getElem?_take_of_lt first]
  exact next

/-- Nothing is pending, or all that is pending will be checked. -/
theorem firstPass_eq_nil
    (checked : o.hasPendingStalls = true → o.stallDeferredFrom ≤ o.stallCursor) :
    firstPass o = [] := by
  have past : (o.stallQueue.take o.stallDeferredFrom).length ≤ o.stallCursor := by
    rw [List.length_take]
    by_cases pending : o.stallCursor < o.stallQueue.length
    · exact (Nat.min_le_left ..).trans (checked (hasPendingStalls_iff.mpr pending))
    · omega
  rw [firstPass, List.drop_eq_nil_of_le past]
  rfl

/-! ### Polls -/

/-- A poll of the pre-drain accepts no beat of a pid whose stall is about to fire unchecked,
and evicts nothing. -/
def predrainKeeps (o : Observer) (input : PollInput) : Bool :=
  match (o.poll input).1 with
  | some (.beat beat) =>
    !(firstPass o).contains beat.pid &&
      (o.tracker.isTracked beat.pid || decide (o.tracker.len < o.tracker.capacity))
  | _ => true

theorem Queued.predrain_poll {input : PollInput} (queued : Queued o)
    (pending : o.hasPendingStalls = true) (keeps : predrainKeeps o input = true) :
    Queued (o.poll input).2 ∧ (o.poll input).2.hasPendingStalls = true := by
  rw [hasPendingStalls_iff] at pending ⊢
  obtain ⟨wf, same, polled⟩ := poll_pending queued.wf pending input
  refine ⟨queued.congr same wf fun pid member => ?_, by
    rw [same.stallQueue, same.stallCursor]; exact pending⟩
  cases polled with
  | quiet _ unchanged => exact unchanged.slotOf pid
  | @beat beat announced others =>
    rw [predrainKeeps, announced] at keeps
    simp only [Bool.and_eq_true, Bool.not_eq_true', List.contains_eq_mem, decide_eq_false_iff_not,
      Bool.or_eq_true, decide_eq_true_iff, queued.wf.isTracked] at keeps
    have other : pid ≠ beat.pid := fun same => keeps.1 (same ▸ member)
    -- the beat is of another pid; it could only evict if its pid were new and the table full
    rcases others pid other with kept | ⟨unknown, full⟩
    · exact kept
    · rw [unknown] at keeps
      rcases keeps.2 with absurd | room
      · cases absurd
      · omega

/-- A poll with no stall of the first pass left. -/
theorem Queued.poll (queued : Queued o) (done : firstPass o = []) (input : PollInput) :
    Queued (o.poll input).2 := by
  by_cases pending : o.stallCursor < o.stallQueue.length
  · obtain ⟨wf, same, -⟩ := poll_pending queued.wf pending input
    refine queued.congr same wf fun pid member => ?_
    rw [done] at member
    cases member
  · obtain ⟨wf, stalls, queue, latched⟩ := poll_refills queued.wf pending input
    refine ⟨wf, fun i _ within => ?_, fun pid member => ?_⟩
    · rw [queue, List.length_map] at within
      rw [queue, List.getElem?_map, List.getElem?_eq_getElem within]
      exact ⟨_, rfl⟩
    · -- what the drain has queued it has latched
      obtain ⟨stall, here, rfl⟩ := exists_of_mem_firstPass member
      rw [queue] at here
      obtain ⟨_, announced, same⟩ := List.mem_map.mp here
      exact latched stall (Option.some.inj same ▸ announced)

/-! ### The queued stalls -/

/-- The pid is tracked and its stall is still announced. -/
def stallLatched (t : Tracker) (pid : UInt32) : Bool := (t.usedSlotOf pid).any (·.stallEmitted)

theorem stallLatched_of_latched {t : Tracker} (wf : t.Wf) (latched : Latched (t.slotOf pid)) :
    stallLatched t pid = true := by
  obtain ⟨slot, found, emitted⟩ := latched
  rw [stallLatched, wf.usedSlotOf, found]
  exact emitted

/-- The gate passes only what is still latched. -/
theorem stallLatched_of_warranted {t : Tracker} {generation : Option Nat}
    {readGeneration : UInt32 → Option Nat}
    (verdict : t.stallFreshness pid generation readGeneration = .warranted) :
    stallLatched t pid = true := by
  unfold Tracker.stallFreshness at verdict
  unfold stallLatched
  cases found : t.usedSlotOf pid with
  | none =>
    rw [found] at verdict
    cases verdict
  | some slot =>
    rw [found] at verdict
    cases emitted : slot.stallEmitted with
    -- the slot has beaten since: the gate answers `AgentResumed`
    | false =>
      simp only [emitted, if_true] at verdict
      cases verdict
    | true => exact emitted

/-- The stall at the cursor leaves the queue. -/
theorem Queued.next (queued : Queued o) :
    (o.pollPendingForRecovery = (none, o) ∧ o.hasPendingStalls = false) ∨
      ∃ stall o', o.pollPendingForRecovery =
          (some (stall, decide (o.stallCursor ≥ o.stallDeferredFrom)), o') ∧
        Queued o' ∧ (o.stallCursor < o.stallDeferredFrom →
          stallLatched o'.tracker stall.pid = true) := by
  unfold pollPendingForRecovery pollPending
  by_cases pending : o.stallCursor < o.stallQueue.length
  · right
    obtain ⟨stall, found⟩ := queued.filled o.stallCursor (Nat.le_refl _) pending
    rw [if_pos pending, found]
    refine ⟨stall, _, rfl, ⟨queued.wf, fun i after within => ?_, fun pid member => ?_⟩,
      fun first => ?_⟩
    · dsimp only at after within ⊢
      rw [List.length_set] at within
      rw [List.getElem?_set_ne (Nat.ne_of_lt after)]
      exact queued.filled i (Nat.le_of_succ_le after) within
    · -- the rest of the first pass is what it was
      refine queued.latched pid ?_
      unfold firstPass at member ⊢
      dsimp only at member
      rw [List.take_set, List.drop_set_of_lt (Nat.lt_add_one _), ← List.drop_drop] at member
      obtain ⟨entry, later, named⟩ := List.mem_filterMap.mp member
      exact List.mem_filterMap.mpr ⟨entry, List.mem_of_mem_drop later, named⟩
    · exact stallLatched_of_latched queued.wf (queued.latched _ (mem_firstPass found first))
  · left
    rw [if_neg pending]
    exact ⟨rfl, decide_eq_false pending⟩

/-- Only latched stalls have fired, and none is left behind unless a budget ended the loop. -/
structure Fired (done : Evaluated) : Prop where
  calls : ∀ call ∈ done.calls, stallLatched call.observer.tracker call.stall.pid = true
  queued : Queued done.observer
  left : done.observer.hasPendingStalls = true → done.budgetReached = true

/-- Run lemma: the loop over the queued stalls. -/
theorem Queued.evaluateStalls (queued : Queued o) (spawnMax : Nat) (input : TickInput)
    (budget k spawns : Nat) :
    Fired (Watch.evaluateStalls spawnMax true input budget k spawns o) := by
  -- on what is left of the budget; each round takes one stall from the queue
  induction budget generalizing o k spawns with
  | zero => exact ⟨List.forall_mem_nil _, queued, fun _ => rfl⟩
  | succ budget ih =>
    unfold Watch.evaluateStalls
    rcases queued.next with ⟨empty, idle⟩ | ⟨stall, o', taken, queued', first⟩
    · rw [empty]
      refine ⟨List.forall_mem_nil _, queued, fun pending => ?_⟩
      exact absurd (idle.symm.trans pending) Bool.false_ne_true
    · rw [taken]
      dsimp only
      rw [if_neg Bool.true_eq_false_eq_False]
      generalize (if input.didSpawn k = true then spawns + 1 else spawns) = spawns'
      split
      · exact ih queued' (k + 1) spawns
      next passed =>
        -- unchecked stalls are of the first pass, checked ones are warranted
        have fires : stallLatched o'.tracker stall.pid = true := by
          by_cases unchecked : o.stallCursor < o.stallDeferredFrom
          · exact first unchecked
          · rw [not_and, not_not] at passed
            refine stallLatched_of_warranted (passed ?_)
            exact decide_eq_true (Nat.not_lt.mp unchecked)
        split
        · -- the spawn budget ends the loop with this call
          refine ⟨fun call member => ?_, queued', fun _ => rfl⟩
          rw [List.mem_singleton.mp member]
          exact fires
        · have rest := ih queued' (k + 1) spawns'
          refine ⟨fun call member => ?_, rest.queued, rest.left⟩
          rcases List.mem_cons.mp member with rfl | later
          · exact fires
          · exact rest.calls call later

/-- Without recovery the stalls are drained and nothing fires. -/
theorem drainPending_unattended (budgets : Budgets) (input : TickInput) (o : Observer) :
    (drainPending budgets false input o).1 = [] := by
  have none : ∀ budget k spawns o,
      (evaluateStalls budgets.spawnMax false input budget k spawns o).calls = [] := by
    intro budget
    induction budget with
    | zero => exact fun _ _ _ => rfl
    | succ budget ih =>
      intro k spawns o
      unfold evaluateStalls
      split
      · rfl
      · exact ih (k + 1) spawns _
  exact none budgets.stallEvalMax 0 0 o

/-! ### Runs of ticks -/

/-- `predrainKeeps`, for every poll that the pre-drain makes. -/
def undisturbed (input : Nat → PollInput) : Nat → Nat → Observer → Bool
  | 0, _, _ => true
  | budget + 1, k, o =>
    let o' := (o.poll (input k)).2
    predrainKeeps o (input k) && (!o'.lastPollConsumed || undisturbed input budget (k + 1) o')

/-- The pre-drain of the tick, if it is made, leaves the stalls of the first pass alone. -/
def predrainUndisturbed (budgets : Budgets) (recovery : Bool) (d : Daemon) (input : TickInput) :
    Bool :=
  !(recovery && d.observer.hasPendingStalls) ||
    undisturbed input.predrain budgets.predrainIngressMax 0 d.observer

/-- Run lemma: the pre-drain. -/
theorem Queued.predrain {input : Nat → PollInput} {budget k : Nat} (queued : Queued o)
    (pending : o.hasPendingStalls = true) (kept : undisturbed input budget k o = true) :
    Queued (Watch.predrain input budget k o) := by
  induction budget generalizing k o with
  | zero => exact queued
  | succ budget ih =>
    rw [undisturbed, Bool.and_eq_true] at kept
    obtain ⟨queued', pending'⟩ := queued.predrain_poll pending kept.1
    unfold Watch.predrain
    dsimp only
    split
    next consumed =>
      have rest := kept.2
      rw [consumed, Bool.not_true, Bool.false_or] at rest
      exact ih queued' pending' rest
    next => exact queued'

theorem Queued.predrained {d : Daemon} {budgets : Budgets} {input : TickInput}
    (queued : Queued d.observer) (kept : predrainUndisturbed budgets true d input = true) :
    Queued (predrained budgets true input d.observer) := by
  rw [predrainUndisturbed, Bool.true_and] at kept
  unfold Watch.predrained
  rw [Bool.true_and]
  split
  next pending =>
    rw [pending, Bool.not_true, Bool.false_or] at kept
    exact queued.predrain pending kept
  next => exact queued

/-- Step 1 fires latched stalls only. What it leaves is checked before it fires. -/
theorem Queued.drainPending (queued : Queued o) (budgets : Budgets) (input : TickInput) :
    (∀ call ∈ (drainPending budgets true input o).1,
        stallLatched call.observer.tracker call.stall.pid = true) ∧
      Queued (drainPending budgets true input o).2 ∧
      firstPass (drainPending budgets true input o).2 = [] := by
  have fired := queued.evaluateStalls budgets.spawnMax input budgets.stallEvalMax 0 0
  unfold Watch.drainPending
  dsimp only
  generalize Watch.evaluateStalls budgets.spawnMax true input budgets.stallEvalMax 0 0 o = done
    at fired
  split
  next deferred =>
    simp only [Bool.true_and, Bool.and_eq_true, hasPendingStalls_iff] at deferred
    have held : firstPass done.observer.deferRemainingStallsForRecovery = [] := by
      refine firstPass_eq_nil fun _ => ?_
      rw [deferRemainingStallsForRecovery, if_pos deferred.1]
      exact Nat.min_le_right ..
    refine ⟨fired.calls, ⟨?_, ?_, ?_⟩, held⟩
    · rw [deferRemainingStallsForRecovery, if_pos deferred.1]
      exact fired.queued.wf
    · rw [deferRemainingStallsForRecovery, if_pos deferred.1]
      exact fired.queued.filled
    · rw [held]
      exact List.forall_mem_nil _
  -- nothing is left, since only a budget leaves stalls behind
  next spent =>
    refine ⟨fired.calls, fired.queued, firstPass_eq_nil fun pending => ?_⟩
    rw [pending, fired.left pending] at spent
    exact absurd rfl spent

/-- Maintenance reads the clock and the limit of pids. -/
theorem Queued.maintain (queued : Queued o) (input : TickInput) : Queued (maintain input o) := by
  have reads {o : Observer} {raw : Nat} {result : Nat × Observer} (clock : Clocked o raw result)
      (queued : Queued o) : Queued result.2 :=
    queued.congr clock.sameQueue (clock.tracker ▸ queued.wf) fun pid _ =>
      congrArg (Tracker.slotOf · pid) clock.tracker
  have read : ∀ (clocks : List Nat) {o : Observer}, Queued o →
      Queued (Steps.run applyStep o (clocks.map .readClock)) := by
    intro clocks
    induction clocks with
    | nil => exact id
    | cons raw rest ih => exact fun queued => ih (reads (applyRawClock_clocked _ raw) queued)
  unfold Watch.maintain
  rw [Steps.run_append, Steps.run_cons]
  exact read input.reapClocks (reads (maybeRefreshPidMax_clocked _ _ input.pidMaxReading)
    (read input.exportClocks queued))

/-- What has been fired so far was latched; with recovery, so is what fires next. -/
structure Fires (recovery : Bool) (d : Daemon) : Prop where
  queued : recovery = true → Queued d.observer
  onStalls : ∀ call ∈ d.onStalls, stallLatched call.observer.tracker call.stall.pid = true

/-- Step lemma: one tick. -/
theorem Fires.tick {budgets : Budgets} {recovery : Bool} (d : Daemon) (input : TickInput)
    (fires : Fires recovery d) (kept : predrainUndisturbed budgets recovery d input = true) :
    Fires recovery (tick budgets recovery d input) := by
  cases recovery with
  | false =>
    refine ⟨fun absurd => (Bool.false_ne_true absurd).elim, fun call member => ?_⟩
    refine fires.onStalls call ?_
    rcases List.mem_append.mp member with before | now
    · exact before
    · have none := drainPending_unattended budgets input
        (Watch.predrained budgets false input d.observer)
      cases (List.eq_nil_iff_forall_not_mem.mp none) call now
  | true =>
    -- after step 1 no stall of the first pass is left, so the poll may accept any beat
    obtain ⟨calls, queued, done⟩ :=
      ((fires.queued rfl).predrained kept).drainPending budgets input
    refine ⟨fun _ => (queued.poll done input.poll).maintain input, fun call member => ?_⟩
    rcases List.mem_append.mp member with before | now
    · exact fires.onStalls call before
    · exact calls call now

theorem fires_start {cfg : ObserverConfig} {start : Observer}
    (started : Observer.new cfg = some start) (recovery : Bool) :
    Fires recovery ⟨start, []⟩ := by
  obtain ⟨_, wf, _, empty⟩ := started_of_new started
  have none : firstPass start = [] := by
    refine firstPass_eq_nil fun pending => ?_
    rw [hasPendingStalls_iff, empty] at pending
    cases pending
  refine ⟨fun _ => ⟨wf, fun i _ within => ?_, ?_⟩, List.forall_mem_nil _⟩
  · rw [empty] at within
    cases within
  · rw [none]
    exact List.forall_mem_nil _

/-- Whatever the budgets: in every run of ticks whose pre-drains accept no beat of a pid of the
first pass and evict nothing, recovery is handed only stalls whose pid is still tracked and
whose slot is still latched. -/
theorem onStall_only_latched {cfg : ObserverConfig} {start : Observer}
    (started : Observer.new cfg = some start) (budgets : Budgets) (recovery : Bool)
    (ticks : List TickInput)
    (kept : Steps.Guarded (tick budgets recovery)
      (fun d input => predrainUndisturbed budgets recovery d input = true) ⟨start, []⟩ ticks) :
    ∀ call ∈ (Steps.run (tick budgets recovery) ⟨start, []⟩ ticks).onStalls,
      stallLatched call.observer.tracker call.stall.pid = true :=
  (kept.invariant Fires.tick (fires_start started recovery)).onStalls

/-- A tick at `clock`: the pre-drain finds `resumed` and then an empty socket. -/
def tickAt (clock : Nat) (resumed polled : Ingress) : TickInput where
  predrain k := pollAt clock (if k = 0 then resumed else .wouldBlock) (some 1, some 7)
  readGeneration _ _ := some 7
  didSpawn _ := true
  poll := pollAt clock polled (some 1, some 7)
  exportClocks := []
  pidMaxClock := clock
  pidMaxReading := 4194304
  reapClocks := [clock]

/-- Process 42 beats once and is silent for the threshold. -/
def silentProcess : List TickInput :=
  [tickAt 1 .wouldBlock (beatFrom 42 1),
    tickAt (minThreshold + 1) .wouldBlock .wouldBlock]

/-- Its stall fires in the third tick, when it has not resumed. -/
theorem onStall_only_latched_silentProcess :
    (Steps.run (tick perTick true) ⟨socketObserver, []⟩
        (silentProcess ++ [tickAt (minThreshold + 2) .wouldBlock .wouldBlock])).onStalls.length = 1 ∧
      ∀ call ∈ (Steps.run (tick perTick true) ⟨socketObserver, []⟩
          (silentProcess ++ [tickAt (minThreshold + 2) .wouldBlock .wouldBlock])).onStalls,
        stallLatched call.observer.tracker call.stall.pid = true :=
  ⟨by decide +kernel,
    onStall_only_latched (Option.some_get _).symm perTick true _ (by decide +kernel)⟩

/-- The pre-drain of the third tick accepts a beat of the process, and recovery fires on it. -/
theorem onStall_ignores_resumed_process :
    ((Steps.run (tick perTick true) ⟨socketObserver, []⟩
        (silentProcess ++ [tickAt (minThreshold + 2) (beatFrom 42 2) .wouldBlock])).onStalls.map
      fun call => (call.stall.pid, call.observer.tracker.isTracked 42,
        stallLatched call.observer.tracker 42, call.observer.tracker.lastNsOf 42)) =
      [(42, true, false, some (minThreshold + 2))] := by
  decide +kernel

end Varta.Watch
