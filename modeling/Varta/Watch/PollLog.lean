import Varta.Watch.ObserverSteps

/-!
# What the polls of an observer do, round by round

A round of `poll` asks one listener. Its log entry keeps what the listener answered, what the
observer made of it, and what the global limiter was charged.
-/
namespace Varta.Watch

/-- What happened between two states of the limiter, the second one left by a round at `nowNs`:
a round that does not ask leaves it alone. -/
def GlobalRateLimit.spent (before after : GlobalRateLimit) (nowNs : Nat) : Nat :=
  if after = before then 0
  else ((before.refill nowNs).tokensMilli - after.tokensMilli) / 1000

namespace Observer

/-- One round of `poll`. -/
structure RoundLog where
  listener : Nat
  result : RecvResult
  event : Option Event
  /-- Tokens taken from the global limiter. -/
  spent : Nat

/-- What the listener answers in a round. -/
def answerOf (o : Observer) (i : Nat) (round : Round) : RecvResult :=
  match o.listeners[i]? with
  | none => .wouldBlock
  | some listener =>
    (listener.recv round.instants (o.applyRawClock round.rawClock).1 round.ingress).1

def roundLog (o : Observer) (i : Nat) (round : Round) : RoundLog where
  listener := i
  result := o.answerOf i round
  event := (o.pollListener i round).1.1
  spent := o.globalRl.spent (o.pollListener i round).2.globalRl (o.applyRawClock round.rawClock).1

/-- The rounds of `pollListeners`. -/
def pollLog (rounds : Nat → Round) : List Nat → Observer → List RoundLog
  | [], _ => []
  | i :: rest, o =>
    match o.pollListener i (rounds i) with
    | ((some _, _), _) => [o.roundLog i (rounds i)]
    | ((none, _), after) => o.roundLog i (rounds i) :: pollLog rounds rest after

/-- The rounds of one `poll`. -/
def logOf (o : Observer) (input : PollInput) : List RoundLog := pollLog input.rounds o.pollOrder o

/-- The rounds of all polls, in order. -/
def history : Observer → List PollInput → List RoundLog
  | _, [] => []
  | o, input :: rest => o.logOf input ++ history (o.pollStep input) rest

/-- The listeners whose `recv` one `poll` calls, in order. -/
def received (o : Observer) (input : PollInput) : List Nat := (o.logOf input).map (·.listener)

/-- The log of a run of steps. -/
def runLog : Observer → List Step → List RoundLog
  | _, [] => []
  | o, .listen i round :: rest => o.roundLog i round :: runLog (o.applyStep (.listen i round)) rest
  | o, .consumed flag :: rest => runLog (o.applyStep (.consumed flag)) rest
  | o, .drain raw recycled :: rest => runLog (o.applyStep (.drain raw recycled)) rest
  | o, .readClock raw :: rest => runLog (o.applyStep (.readClock raw)) rest
  | o, .refreshPidMax raw reading :: rest => runLog (o.applyStep (.refreshPidMax raw reading)) rest

theorem runLog_append (o : Observer) (first second : List Step) :
    runLog o (first ++ second) = runLog o first ++ runLog (Steps.run applyStep o first) second := by
  induction first generalizing o with
  | nil => rfl
  | cons step rest ih =>
    cases step with
    | listen i round =>
      rw [List.cons_append, runLog, runLog, ih]
      rfl
    | consumed | drain | readClock | refreshPidMax => exact ih _

/-- The rounds of a poll as steps; the loop stops after the listener that announced something. -/
theorem pollListeners_steps (rounds : Nat → Round) (order : List Nat) (consumed : Bool)
    (o : Observer) :
    ∃ tried : List Nat, tried <+: order ∧
      (pollListeners rounds order consumed o).2 =
        Steps.run applyStep o (tried.map fun i => .listen i (rounds i)) ∧
      pollLog rounds order o = runLog o (tried.map fun i => .listen i (rounds i)) := by
  induction order generalizing consumed o with
  | nil => exact ⟨[], List.prefix_rfl, rfl, rfl⟩
  | cons i rest ih =>
    unfold pollListeners pollLog
    cases found : o.pollListener i (rounds i) with
    | mk answer after =>
      have stepped : o.applyStep (.listen i (rounds i)) = after := congrArg Prod.snd found
      obtain ⟨event, took⟩ := answer
      cases event with
      | some event => exact ⟨[i], ⟨rest, rfl⟩, stepped.symm, rfl⟩
      | none =>
        obtain ⟨tried, within, reached, logged⟩ := ih (consumed || took) after
        refine ⟨i :: tried, (List.prefix_cons_inj i).mpr within, ?_, ?_⟩
        · rw [List.map_cons, Steps.run_cons, stepped, ← reached]
        · rw [List.map_cons, runLog, stepped, ← logged]

/-- A poll is a run of steps that try listeners in order, followed by a drain. -/
theorem poll_steps (o : Observer) (input : PollInput) :
    ∃ (tried : List Nat) (flag : Bool), tried <+: o.pollOrder ∧
      let steps : List Step := (tried.map fun i => .listen i (input.rounds i)) ++
        [.consumed flag, .drain input.drainClock input.generationRecycled]
      (o.poll input).2 = Steps.run applyStep o steps ∧ o.logOf input = runLog o steps := by
  obtain ⟨tried, within, reached, logged⟩ := pollListeners_steps input.rounds o.pollOrder false o
  refine ⟨tried, (pollListeners input.rounds o.pollOrder false o).1.2, within, ?_, ?_⟩
  · rw [Steps.run_append, ← reached]
    rfl
  · rw [runLog_append, ← logged]
    exact (List.append_nil _).symm

/-- A run of polls is a run of steps, with the same log. -/
theorem history_steps (o : Observer) (inputs : List PollInput) :
    ∃ steps : List Step, Steps.run pollStep o inputs = Steps.run applyStep o steps ∧
      o.history inputs = runLog o steps := by
  induction inputs generalizing o with
  | nil => exact ⟨[], rfl, rfl⟩
  | cons input rest ih =>
    obtain ⟨tried, flag, -, polled, logged⟩ := poll_steps o input
    obtain ⟨steps, final, later⟩ := ih (o.pollStep input)
    generalize (tried.map fun i => Step.listen i (input.rounds i)) ++ _ = first at polled logged
    refine ⟨first ++ steps, ?_, ?_⟩
    · rw [Steps.run_cons, final, Steps.run_append, ← polled]
      rfl
    · rw [history, logged, later, runLog_append, ← polled]
      rfl

end Observer

end Varta.Watch
