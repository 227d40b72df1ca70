import Varta.Ports.Agreement
import Varta.Ports.DotNet

/-!
# The reconnect window

After how many drops an agent opens its transport again by itself, read off what it does: the
calls of its transport and the outcomes. `Window` is the part of an agent that decides it. The Rust
agent is a window, and the .NET agent is one as long as no retry is dropped and no new pid comes
while drops are pending.
-/
namespace Varta.Ports

open Transducer Vlp

/-! ### What can be seen -/

/-- A call of the transport with the class of its answer. -/
inductive Deed where
  | send (verdict : Verdict)
  | reconnect (ok : Bool)
  deriving DecidableEq, Repr

/-- The calls from number `first` on. -/
def deeds (script : Script) : Nat → List TransportCall → List Deed
  | _, [] => []
  | first, .send _ :: calls => .send (script.sends first) :: deeds script (first + 1) calls
  | first, .reconnect :: calls =>
    .reconnect (script.reconnects first) :: deeds script (first + 1) calls

/-- The calls that were made between two logs. -/
def deedsBetween (script : Script) (before after : List TransportCall) : List Deed :=
  deeds script before.length (after.drop before.length)

/-- One call of an agent: what a beat did and returned, whether an explicit reconnect succeeded, or
the threshold that was set. -/
inductive Round where
  | beat (deeds : List Deed) (verdict : Option Verdict)
  | reconnect (ok : Bool)
  | set (n : Nat)
  deriving DecidableEq, Repr

namespace Round

/-- A beat that has detected a new pid begins with a reconnect. -/
def recovered : List Deed → Bool
  | .reconnect true :: _ => true
  | _ => false

/-- What a beat does after the fork check. -/
def afterFork : List Deed → List Deed
  | .reconnect _ :: deeds => deeds
  | deeds => deeds

def firstDropped (deeds : List Deed) : Bool := (afterFork deeds).head? = some (.send .dropped)

/-- A reconnect after the first send. -/
def attempted (deeds : List Deed) : Bool :=
  match afterFork deeds with
  | .send _ :: .reconnect _ :: _ => true
  | _ => false

def retryDropped (deeds : List Deed) : Bool :=
  match afterFork deeds with
  | [.send _, .reconnect true, .send .dropped] => true
  | _ => false

end Round

/-- A dropped first send, or something that starts the window anew. -/
inductive Mark where
  | drop
  | reset
  deriving DecidableEq, Repr

open Round in
/-- A fork recovery comes before the first send, an attempt after it, and the outcome last. An
explicit reconnect that fails changes nothing. -/
def Round.marks : Round → List Mark
  | .set _ => [.reset]
  | .reconnect ok => if ok then [.reset] else []
  | .beat deeds verdict =>
    (if recovered deeds then [.reset] else []) ++ (if firstDropped deeds then [.drop] else []) ++
      (if attempted deeds then [.reset] else []) ++
      (if verdict = some .dropped then [] else [.reset])

/-- The drops since the latest reset. -/
def pending (marks : List Mark) : Nat := (marks.reverse.takeWhile (· = .drop)).length

@[simp] theorem pending_reset (marks : List Mark) : pending (marks ++ [.reset]) = 0 := by
  simp [pending]

@[simp] theorem pending_drop (marks : List Mark) :
    pending (marks ++ [.drop]) = pending marks + 1 := by
  simp [pending]

/-- The marks of a history. -/
def history (rounds : List Round) : List Mark := rounds.flatMap Round.marks

/-- The threshold of a history: the latest one that was set. -/
def threshold (rounds : List Round) : Nat :=
  rounds.foldl (fun n round => match round with | .set n => n | _ => n) 0

open Round in
/-- An automatic reconnect is attempted exactly if the first send of the beat is the n-th dropped
one since the latest reset. -/
def InWindow (earlier : List Round) : Round → Prop
  | .beat deeds _ =>
    attempted deeds = true ↔ firstDropped deeds = true ∧
      pending (history earlier ++ (if recovered deeds then [.reset] else []) ++ [.drop]) =
        threshold earlier
  | _ => True

instance (earlier : List Round) : (round : Round) → Decidable (InWindow earlier round)
  | .beat _ _ => inferInstanceAs (Decidable (_ ↔ _))
  | .reconnect _ | .set _ => isTrue trivial

/-! ### The window -/

/-- What decides about a reconnect. -/
structure Window where
  calls : Nat
  connectPid : UInt32
  drops : Nat
  reconnectAfter : Nat
  deriving DecidableEq

namespace Window

def due (w : Window) : Prop := 0 < w.reconnectAfter ∧ w.reconnectAfter ≤ w.drops + 1

instance (w : Window) : Decidable w.due := inferInstanceAs (Decidable (_ ∧ _))

variable (script : Script)

def transmit (w : Window) : List Deed × Verdict × Window :=
  match script.sends w.calls with
  | .sent => ([.send .sent], .sent, { w with calls := w.calls + 1, drops := 0 })
  | .failed => ([.send .failed], .failed, { w with calls := w.calls + 1, drops := 0 })
  | .dropped =>
    if w.due then
      match script.reconnects (w.calls + 1) with
      | false => ([.send .dropped, .reconnect false], .dropped,
          { w with calls := w.calls + 2, drops := 0 })
      | true => ([.send .dropped, .reconnect true, .send (script.sends (w.calls + 2))],
          script.sends (w.calls + 2), { w with calls := w.calls + 3, drops := 0 })
    else ([.send .dropped], .dropped, { w with calls := w.calls + 1, drops := w.drops + 1 })

/-- The session of a new process. -/
def opened (w : Window) (pid : UInt32) : Window :=
  { w with calls := w.calls + 1, connectPid := pid, drops := 0 }

def beat (w : Window) (status : Status) (pid : UInt32) : List Deed × Verdict × Window :=
  if status = .stall then ([], .failed, { w with drops := 0 })
  else if pid ≠ w.connectPid then
    match script.reconnects w.calls with
    | false => ([.reconnect false], .failed, { w with calls := w.calls + 1 })
    | true =>
      let r := (w.opened pid).transmit script
      (.reconnect true :: r.1, r.2)
  else w.transmit script

/-- A transmission begins with its frame. -/
theorem transmit_begins (w : Window) :
    ∃ first deeds, (w.transmit script).1 = .send first :: deeds := by
  unfold transmit
  cases script.sends w.calls with
  | sent | failed => exact ⟨_, _, rfl⟩
  | dropped =>
    dsimp only
    split
    · cases script.reconnects (w.calls + 1) <;> exact ⟨_, _, rfl⟩
    · exact ⟨_, _, rfl⟩

theorem afterFork_transmit (w : Window) :
    Round.afterFork (w.transmit script).1 = (w.transmit script).1 := by
  obtain ⟨first, deeds, begins⟩ := transmit_begins script w
  rw [begins]
  rfl

theorem retryDropped_recovered (w : Window) (ok : Bool) :
    Round.retryDropped (.reconnect ok :: (w.transmit script).1) =
      Round.retryDropped (w.transmit script).1 := by
  unfold Round.retryDropped
  rw [afterFork_transmit]
  rfl

def reconnect (w : Window) (pid : UInt32) : Bool × Window :=
  match script.reconnects w.calls with
  | false => (false, { w with calls := w.calls + 1 })
  | true => (true, { w with calls := w.calls + 1, connectPid := pid, drops := 0 })

def setReconnectAfter (w : Window) (n : Nat) : Window := { w with reconnectAfter := n, drops := 0 }

end Window

/-- What both agents are called with. The Rust agent reads `clock`, and the .NET agent `ticks`. -/
inductive WindowCall where
  | beat (status : Status) (payload : UInt32) (process : Client.Process) (now clock : Nat)
    (ticks : Int64)
  | reconnect (process : Client.Process)
  | setReconnectAfter (n : UInt32)

def Window.watch (script : Script) (w : Window) : WindowCall → Round × Window
  | .beat status _ process _ _ _ =>
    let r := w.beat script status process.pid
    (.beat r.1 (some r.2.1), r.2.2)
  | .reconnect process => (w.reconnect script process.pid).map .reconnect id
  | .setReconnectAfter n => (.set n.toNat, w.setReconnectAfter n.toNat)

/-- The window of a new agent. -/
def Window.new (pid : UInt32) : Window := ⟨0, pid, 0, 0⟩

/-- No dropped retry, and no new pid while drops are pending, if the threshold is two or more. -/
def Window.Unbroken (script : Script) (w : Window) : WindowCall → Prop
  | .beat status _ process _ _ _ => w.reconnectAfter ≤ 1 ∨
    Round.retryDropped (w.beat script status process.pid).1 = false ∧
      (status ≠ .stall → process.pid ≠ w.connectPid → w.drops = 0)
  | _ => True

instance (script : Script) (w : Window) : (call : WindowCall) → Decidable (w.Unbroken script call)
  | .beat .. => inferInstanceAs (Decidable (_ ∨ _))
  | .reconnect _ | .setReconnectAfter _ => isTrue trivial

theorem deedsBetween_append (script : Script) (before made : List TransportCall) :
    deedsBetween script before (before ++ made) = deeds script before.length made := by
  rw [deedsBetween, List.drop_left]

/-! ### The Rust agent -/

namespace BeatMachine

variable (script : Script)

def window (m : BeatMachine) : Window := ⟨m.calls.length, m.connectPid, m.drops, m.reconnectAfter⟩

/-- The calls that were made, their classes, the outcome and the window afterwards. -/
structure Shows (script : Script) (m : BeatMachine) (r : Verdict × BeatMachine)
    (shown : List Deed × Verdict × Window) : Prop where
  made : ∃ made, r.2.calls = m.calls ++ made ∧ deeds script m.calls.length made = shown.1
  verdict : r.1 = shown.2.1
  window : r.2.window = shown.2.2

theorem transmit_shows (m : BeatMachine) (frame : WireFrame) :
    m.Shows script (m.transmit script frame) (m.window.transmit script) := by
  unfold transmit Window.transmit
  have first : m.window.calls = m.calls.length := rfl
  rw [first]
  cases sent : script.sends m.calls.length with
  | sent | failed =>
    refine ⟨⟨[.send frame.encode], rfl, ?_⟩, rfl, ?_⟩
    · simp [deeds, sent]
    · simp [window, commit, log]
  | dropped =>
    dsimp only
    by_cases due : m.due
    · have second : (m.log (.send frame.encode)).calls.length = m.calls.length + 1 := by simp [log]
      have third : ((m.log (.send frame.encode)).log .reconnect).calls.length =
          m.calls.length + 2 := by simp [log]
      rw [if_pos due, if_pos (show m.window.due from due), retry, second]
      cases renewed : script.reconnects (m.calls.length + 1) with
      | false =>
        refine ⟨⟨[.send frame.encode, .reconnect], by simp [log], ?_⟩, rfl, ?_⟩
        · simp [deeds, sent, renewed]
        · simp [window, log]
      | true =>
        have last : script.sends ({ m.log (.send frame.encode) with drops := 0 }.log
            .reconnect).calls.length = script.sends (m.calls.length + 2) := congrArg _ third
        dsimp only
        rw [last]
        refine ⟨⟨[.send frame.encode, .reconnect, .send frame.encode], ?_, ?_⟩, ?_, ?_⟩
        · cases script.sends (m.calls.length + 2) <;> simp [log, commit]
        · simp [deeds, sent, renewed]
        · cases script.sends (m.calls.length + 2) <;> rfl
        · cases script.sends (m.calls.length + 2) <;> simp [window, log, commit]
    · rw [if_neg due, if_neg (show ¬ m.window.due from due)]
      refine ⟨⟨[.send frame.encode], rfl, ?_⟩, rfl, ?_⟩
      · simp [deeds, sent]
      · simp [window, log]

theorem beat_shows (m : BeatMachine) (status : Status) (payload pid : UInt32) (raw : UInt64) :
    m.Shows script (m.beat script status payload pid raw) (m.window.beat script status pid) := by
  unfold beat Window.beat
  split
  · exact ⟨⟨[], (List.append_nil _).symm, rfl⟩, rfl, rfl⟩
  · have here : m.window.connectPid = m.connectPid := rfl
    have first : m.window.calls = m.calls.length := rfl
    rw [here, first]
    split
    · cases renewed : script.reconnects m.calls.length with
      | false =>
        refine ⟨⟨[.reconnect], rfl, ?_⟩, rfl, ?_⟩
        · simp [deeds, renewed]
        · simp [window, log]
      | true =>
        have opened_window :
            (((m.log .reconnect).opened pid).clocked raw).window = m.window.opened pid := by
          simp [window, log, opened, clocked, Window.opened]
        have shows := transmit_shows script (((m.log .reconnect).opened pid).clocked raw)
          (((m.log .reconnect).opened pid).frame status payload pid raw)
        rw [opened_window] at shows
        obtain ⟨⟨made, calls, done⟩, verdict, window⟩ := shows
        refine ⟨⟨.reconnect :: made, ?_, ?_⟩, verdict, window⟩
        · dsimp only
          rw [emit, calls]
          simp [clocked, opened, log]
        · simp only [deeds, renewed, ← done]
          simp [clocked, opened, log]
    · obtain ⟨made, verdict, window⟩ :=
        transmit_shows script (m.clocked raw) (m.frame status payload pid raw)
      exact ⟨made, verdict, window⟩

theorem reconnect_shows (m : BeatMachine) (pid : UInt32) :
    (m.reconnect script pid).1 = (m.window.reconnect script pid).1 ∧
      (m.reconnect script pid).2.window = (m.window.reconnect script pid).2 := by
  unfold reconnect Window.reconnect
  have first : m.window.calls = m.calls.length := rfl
  rw [first]
  cases script.reconnects m.calls.length <;> simp [window, log]

end BeatMachine

namespace Rust

open Client

variable {script : Script}

def watch (script : Script) (v : Handle RustTape) : WindowCall → Round × Handle RustTape
  | .beat status payload process now clock _ =>
    let r := v.beat process now clock status payload
    (.beat (deedsBetween script v.transport.calls r.handle.transport.calls)
      (some (verdict r.outcome)), r.handle)
  | .reconnect process => (v.reconnect process).map (fun result => .reconnect result.toBool) id
  | .setReconnectAfter n => (.set n.toNat, v.setReconnectAfter n.toNat)

/-- No fork keeps the pid of the handle. -/
def Watches (v : Handle RustTape) : WindowCall → Prop
  | .beat _ _ process _ _ _ => Visible v process
  | _ => True

instance (v : Handle RustTape) : (call : WindowCall) → Decidable (Watches v call)
  | .beat _ _ process _ _ _ => inferInstanceAs (Decidable (Visible v process))
  | .reconnect _ | .setReconnectAfter _ => isTrue trivial

/-- The Rust agent is a window. -/
theorem watch_window (v : Handle RustTape) (w : Window) (call : WindowCall)
    (mirrors : ∃ m, Mirrors script v m ∧ m.window = w) (visible : Watches v call) :
    (watch script v call).1 = (w.watch script call).1 ∧
      ∃ m, Mirrors script (watch script v call).2 m ∧ m.window = (w.watch script call).2 := by
  obtain ⟨m, mirrors, rfl⟩ := mirrors
  cases call with
  | beat status payload process now clock ticks =>
    obtain ⟨outcome, after⟩ := beat_mirrors mirrors visible now clock status payload
    obtain ⟨⟨made, calls, done⟩, verdict_eq, window⟩ :=
      m.beat_shows script status payload process.pid (reading v process now clock)
    refine ⟨?_, _, after, window⟩
    dsimp only [watch, Window.watch]
    rw [after.calls, calls, mirrors.calls, deedsBetween_append, done, outcome, verdict_eq]
  | reconnect process =>
    obtain ⟨outcome, after⟩ := reconnect_mirrors mirrors process
    obtain ⟨shown, window⟩ := m.reconnect_shows script process.pid
    exact ⟨congrArg Round.reconnect (outcome.trans shown), _, after, window⟩
  | setReconnectAfter n =>
    exact ⟨rfl, _, setReconnectAfter_mirrors mirrors n.toNat_lt, rfl⟩

end Rust

/-! ### The .NET agent -/

namespace DotNet

variable {script : Script} {v : Handle (Tape NetException)} {w : Window}

def watch (script : Script) (v : Handle (Tape NetException)) :
    WindowCall → Round × Handle (Tape NetException)
  | .beat status payload process _ _ ticks =>
    let r := v.beat process.pid.toNat ticks status.toU8 payload
    (.beat (deedsBetween script v.transport.calls r.2.transport.calls) (verdict r.1), r.2)
  | .reconnect process =>
    (v.reconnect process.pid.toNat).map (fun result => .reconnect result.toBool) id
  | .setReconnectAfter n => (.set n.toNat, v.setReconnectAfter n)

/-- The handle is open and decides like the window. A threshold of one is reached by every drop,
whatever the counter shows. -/
structure Follows (script : Script) (v : Handle (Tape NetException)) (w : Window) : Prop where
  plays : Plays script v.transport
  calls : v.transport.calls.length = w.calls
  isOpen : v.disposed = false
  connectPid : v.connectPid = w.connectPid.toNat
  reconnectAfter : v.reconnectAfter.toNat = w.reconnectAfter
  drops : w.reconnectAfter ≤ 1 ∨ v.consecutiveDropped.toNat = min w.drops (2 ^ 32 - 1)

theorem Follows.due (follows : Follows script v w) :
    (v.reconnectAfter > 0 ∧ saturatingIncrementU32 v.consecutiveDropped ≥ v.reconnectAfter) ↔
      w.due := by
  have reachable := v.reconnectAfter.toNat_lt
  have threshold := follows.reconnectAfter
  rw [gt_iff_lt, ge_iff_le, UInt32.lt_iff_toNat_lt, UInt32.le_iff_toNat_le,
    toNat_saturatingIncrementU32, Window.due]
  change 0 < _ ∧ _ ↔ _
  rcases follows.drops with small | counted
  · omega
  · omega

/-- The answer to a send, by its class. -/
theorem send_cases (plays : Plays script v.transport) (call : Nat) :
    (v.transport.sends call = .ok 32 ∧ script.sends call = .sent) ∨
      (∃ error, outcome (v.transport.sends call) = .ok (.failed error) ∧
        script.sends call = .failed) ∨
      (∃ ex reason, v.transport.sends call = .error (.socket ex) ∧
        classify ex = .dropped reason ∧ script.sends call = .dropped) := by
  have class_ := plays.sends call
  cases answer : v.transport.sends call with
  | ok sent =>
    rw [answer, outcome] at class_
    by_cases short : sent ≠ 32
    · rw [if_pos short] at class_
      refine .inr (.inl ⟨writeZero, ?_, (Option.some.inj class_).symm⟩)
      rw [outcome, if_pos short]
    · rw [if_neg short] at class_
      rw [not_not.mp short]
      exact .inl ⟨rfl, (Option.some.inj class_).symm⟩
  | error e =>
    rw [answer] at class_
    cases e with
    | socket ex =>
      rw [outcome] at class_
      cases classified : classify ex with
      | sent => exact absurd classified (classify_ne_sent ex)
      | dropped reason =>
        rw [classified] at class_
        exact .inr (.inr ⟨ex, reason, rfl, classified, (Option.some.inj class_).symm⟩)
      | failed error =>
        rw [classified] at class_
        refine .inr (.inl ⟨error, ?_, (Option.some.inj class_).symm⟩)
        rw [outcome, classified]
    | other typeName => exact .inr (.inl ⟨_, rfl, (Option.some.inj class_).symm⟩)
    | fatal typeName => cases class_

theorem reconnect_cases (plays : Plays script v.transport) (call : Nat) :
    (v.transport.reconnects call = .ok () ∧ script.reconnects call = true) ∨
      ∃ ex, v.transport.reconnects call = .error ex ∧ (∀ typeName, ex ≠ .fatal typeName) ∧
        script.reconnects call = false := by
  have class_ := plays.reconnects call
  cases answer : v.transport.reconnects call with
  | ok done =>
    rw [answer] at class_
    exact .inl ⟨rfl, (Option.some.inj class_).symm⟩
  | error e =>
    rw [answer] at class_
    cases e with
    | socket _ | other _ => exact .inr ⟨_, rfl, by simp, (Option.some.inj class_).symm⟩
    | fatal typeName => cases class_

variable {pid : Int} {nextNonce timestamp : UInt64} {retries : Nat}

theorem trySend_sent (answer : v.transport.sends v.transport.calls.length = .ok 32) :
    Handle.trySendWithReconnectAfter pid nextNonce timestamp retries v =
      (.ok .sent, { v.commitSentFrame nextNonce timestamp with
        transport := v.transport.log (.send v.scratch), consecutiveDropped := 0 }) := by
  rw [Handle.trySendWithReconnectAfter]
  dsimp only [Transport.send]
  rw [answer]
  rfl

theorem trySend_failed {error : BeatError}
    (answer : outcome (v.transport.sends v.transport.calls.length) = .ok (.failed error)) :
    Handle.trySendWithReconnectAfter pid nextNonce timestamp retries v =
      (.ok (.failed error), { v with
        transport := v.transport.log (.send v.scratch), consecutiveDropped := 0 }) := by
  rw [Handle.trySendWithReconnectAfter]
  dsimp only [Transport.send]
  cases sends : v.transport.sends v.transport.calls.length with
  | ok sent =>
    rw [sends, outcome] at answer
    by_cases short : sent ≠ 32
    · rw [if_pos short] at answer
      cases answer
      dsimp only
      rw [if_pos short]
    · rw [if_neg short] at answer
      cases answer
  | error e =>
    rw [sends] at answer
    cases e with
    | socket ex =>
      have classified : classify ex = .failed error := Except.ok.inj answer
      dsimp only
      rw [classified]
    | other typeName =>
      cases answer
      rfl
    | fatal typeName => cases answer

variable {ex : SocketException} {reason : Client.DropReason} {drops : Nat}

/-- The second call counts a drop and tries no more. -/
theorem trySend_dropped (answer : v.transport.sends v.transport.calls.length = .error (.socket ex))
    (classified : classify ex = .dropped reason) :
    Handle.trySendWithReconnectAfter pid nextNonce timestamp 0 v =
      (.ok (.dropped reason), { v with
        transport := v.transport.log (.send v.scratch)
        consecutiveDropped := saturatingIncrementU32 v.consecutiveDropped }) := by
  rw [Handle.trySendWithReconnectAfter]
  dsimp only [Transport.send]
  rw [answer]
  dsimp only
  rw [classified]

/-- The first call tries again if the window is full. -/
theorem trySend_window (answer : v.transport.sends v.transport.calls.length = .error (.socket ex))
    (classified : classify ex = .dropped reason) :
    Handle.trySendWithReconnectAfter pid nextNonce timestamp 1 v =
      if v.reconnectAfter > 0 ∧
          saturatingIncrementU32 v.consecutiveDropped ≥ v.reconnectAfter then
        match v.transport.reconnects (v.transport.log (.send v.scratch)).calls.length with
        | .error _ => (.ok (.dropped reason), { v with
            transport := (v.transport.log (.send v.scratch)).log .reconnect
            consecutiveDropped := 0 })
        | .ok () => Handle.trySendWithReconnectAfter pid nextNonce timestamp 0 { v with
            transport := (v.transport.log (.send v.scratch)).log .reconnect
            consecutiveDropped := 0
            connectPid := pid }
      else (.ok (.dropped reason), { v with
        transport := v.transport.log (.send v.scratch)
        consecutiveDropped := saturatingIncrementU32 v.consecutiveDropped }) := by
  rw [Handle.trySendWithReconnectAfter]
  dsimp only [Transport.send]
  rw [answer]
  dsimp only
  rw [classified]
  dsimp only
  split
  · have kept : (v.transport.log (.send v.scratch)).reconnects = v.transport.reconnects := rfl
    dsimp only [Transport.reconnect]
    rw [kept]
    cases v.transport.reconnects (v.transport.log (.send v.scratch)).calls.length <;> rfl
  · rfl

/-- The calls that were made, their classes, and the outcome. -/
structure Shows (script : Script) (v : Handle (Tape NetException))
    (r : Except NetException BeatOutcome × Handle (Tape NetException))
    (shown : List Deed × Verdict × Window) : Prop where
  made : ∃ made, r.2.transport.calls = v.transport.calls ++ made ∧
    deeds script v.transport.calls.length made = shown.1
  verdict : verdict r.1 = some shown.2.1
  /-- A dropped retry is counted here, and not in the window. -/
  follows : shown.2.2.reconnectAfter ≤ 1 ∨ Round.retryDropped shown.1 = false →
    Follows script r.2 shown.2.2

section

variable (follows : Follows script v w)

include follows

theorem Follows.log {dropped : UInt32} (call : TransportCall)
    (counted : w.reconnectAfter ≤ 1 ∨ dropped.toNat = min drops (2 ^ 32 - 1)) :
    Follows script { v with transport := v.transport.log call, consecutiveDropped := dropped }
      { w with calls := w.calls + 1, drops } :=
  { follows with
    plays := follows.plays.log call
    calls := by simp [Tape.log, ← follows.calls]
    drops := counted }

theorem Follows.cleared (call : TransportCall) :
    Follows script { v with transport := v.transport.log call, consecutiveDropped := 0 }
      { w with calls := w.calls + 1, drops := 0 } :=
  follows.log call (.inr (Nat.zero_min _).symm)

/-- The retry has its own frame, and counts its drop. -/
theorem retry_shows (pid : Int) (nextNonce timestamp : UInt64) :
    let r := Handle.trySendWithReconnectAfter pid nextNonce timestamp 0 v
    r.2.transport.calls = v.transport.calls ++ [.send v.scratch] ∧
      verdict r.1 = some (script.sends w.calls) ∧
      (w.reconnectAfter ≤ 1 ∨ script.sends w.calls ≠ .dropped →
        Follows script r.2 { w with calls := w.calls + 1, drops := 0 }) := by
  have after := follows.cleared (.send v.scratch)
  have answers := send_cases follows.plays v.transport.calls.length
  rw [follows.calls] at answers
  obtain ⟨answer, sent⟩ | ⟨error, answer, failed⟩ | ⟨ex, reason, answer, classified, dropped⟩ :=
    answers
  · rw [← follows.calls] at answer
    rw [trySend_sent answer, sent]
    exact ⟨rfl, rfl, fun _ => { after with }⟩
  · rw [← follows.calls] at answer
    rw [trySend_failed answer, failed]
    exact ⟨rfl, rfl, fun _ => after⟩
  · rw [← follows.calls] at answer
    rw [trySend_dropped answer classified, dropped]
    refine ⟨rfl, rfl, fun small => ?_⟩
    exact follows.log _ (.inl (small.resolve_right (not_not.mpr rfl)))

/-- The drop that completes the window: a reconnect, and one more send if it succeeds. -/
theorem trySend_shows_due (current : pid = w.connectPid.toNat)
    (answer : v.transport.sends v.transport.calls.length = .error (.socket ex))
    (classified : classify ex = .dropped reason)
    (dropped : script.sends v.transport.calls.length = .dropped) (due : w.due) :
    Shows script v (Handle.trySendWithReconnectAfter pid nextNonce timestamp 1 v)
      (w.transmit script) := by
  have second : (v.transport.log (.send v.scratch)).calls.length =
      v.transport.calls.length + 1 := by simp [Tape.log]
  have renewed_log := (follows.cleared (.send v.scratch)).cleared .reconnect
  unfold Window.transmit
  rw [trySend_window answer classified, ← follows.calls, dropped]
  dsimp only
  rw [if_pos (follows.due.mpr due), if_pos due, second]
  obtain ⟨answer, renewed⟩ | ⟨ex, answer, nonfatal, refused⟩ :=
    reconnect_cases follows.plays (v.transport.calls.length + 1)
  · rw [answer, renewed]
    have opened : Follows script { v with
        transport := (v.transport.log (.send v.scratch)).log .reconnect
        consecutiveDropped := 0
        connectPid := pid } { w with calls := w.calls + 2, drops := 0 } :=
      { renewed_log with connectPid := current }
    obtain ⟨calls, verdict, retried⟩ := retry_shows opened pid nextNonce timestamp
    rw [← follows.calls] at verdict retried
    refine ⟨⟨[.send v.scratch, .reconnect, .send v.scratch], ?_, ?_⟩, verdict, ?_⟩
    · rw [calls]
      simp [Tape.log]
    · simp [deeds, dropped, renewed]
    · intro small
      refine retried (small.imp id fun kept => ?_)
      intro lost
      rw [lost] at kept
      cases kept
  · rw [answer, refused]
    refine ⟨⟨[.send v.scratch, .reconnect], by simp [Tape.log], ?_⟩, rfl, fun _ => ?_⟩
    · simp [deeds, dropped, refused]
    · rw [follows.calls]
      exact renewed_log

theorem trySend_shows (current : pid = w.connectPid.toNat) :
    Shows script v (Handle.trySendWithReconnectAfter pid nextNonce timestamp 1 v)
      (w.transmit script) := by
  have after := follows.cleared (.send v.scratch)
  obtain ⟨answer, sent⟩ | ⟨error, answer, failed⟩ | ⟨ex, reason, answer, classified, dropped⟩ :=
    send_cases follows.plays v.transport.calls.length
  · unfold Window.transmit
    rw [trySend_sent answer, ← follows.calls, sent]
    refine ⟨⟨[.send v.scratch], rfl, ?_⟩, rfl, fun _ => ?_⟩
    · simp [deeds, sent]
    · rw [follows.calls]
      exact { after with }
  · unfold Window.transmit
    rw [trySend_failed answer, ← follows.calls, failed]
    refine ⟨⟨[.send v.scratch], rfl, ?_⟩, rfl, fun _ => ?_⟩
    · simp [deeds, failed]
    · rw [follows.calls]
      exact after
  · by_cases due : w.due
    · exact trySend_shows_due follows current answer classified dropped due
    · unfold Window.transmit
      rw [trySend_window answer classified, ← follows.calls, dropped]
      dsimp only
      rw [if_neg (follows.due.not.mpr due), if_neg due]
      refine ⟨⟨[.send v.scratch], rfl, ?_⟩, rfl, fun _ => ?_⟩
      · simp [deeds, dropped]
      · rw [follows.calls]
        refine follows.log _ (follows.drops.imp id fun counted => ?_)
        rw [toNat_saturatingIncrementU32, counted]
        omega

theorem emit_shows (pid : UInt32) (current : pid = w.connectPid) (ticks : Int64) (status : UInt8)
    (payload : UInt32) :
    Shows script v (v.emit pid.toNat ticks status payload) (w.transmit script) := by
  have here : (pid.toNat : Int) = w.connectPid.toNat := by rw [current]
  have kept (clockRegressions : UInt64) (scratch : Bytes32) :
      Follows script { v with clockRegressions, scratch } w := { follows with }
  obtain ⟨made, verdict, after⟩ := trySend_shows (kept _ _) here
  exact ⟨made, verdict, after⟩

/-- The session of a new process, which keeps the counter. -/
theorem Follows.opened {pid : UInt32}
    (quiet : w.reconnectAfter ≤ 1 ∨ v.consecutiveDropped.toNat = 0) :
    Follows script { v with
        transport := v.transport.log .reconnect
        connectPid := pid.toNat
        nonce := 1
        lastTimestamp := 0
        forkRecoveries := saturatingIncrement v.forkRecoveries }
      (w.opened pid) :=
  { follows with
    plays := follows.plays.log _
    calls := by simp [Tape.log, Window.opened, ← follows.calls]
    connectPid := rfl
    drops := quiet.imp id fun none => none.trans (Nat.zero_min _).symm }

theorem not_disposed : ¬ v.disposed = true :=
  Bool.not_eq_true _ ▸ follows.isOpen

theorem new_pid (pid : UInt32) : (pid.toNat : Int) ≠ v.connectPid ↔ pid ≠ w.connectPid := by
  rw [follows.connectPid, Ne, Int.natCast_inj, UInt32.toNat_inj]

variable {status : Status} {pid : UInt32}

/-- A beat that sees a new pid while no drops are pending. -/
theorem beat_other (regular : status ≠ .stall) (other : pid ≠ w.connectPid)
    (quiet : w.reconnectAfter ≤ 1 ∨ v.consecutiveDropped.toNat = 0) (ticks : Int64)
    (payload : UInt32) :
    Shows script v (v.beat pid.toNat ticks status.toU8 payload) (w.beat script status pid) := by
  unfold Handle.beat Window.beat
  rw [if_neg (not_not.mpr ((isAgentStatus_iff status).mpr regular)), if_neg regular,
    if_neg (not_disposed follows), if_pos ((new_pid follows pid).mpr other), if_pos other,
    ← follows.calls]
  dsimp only [Transport.reconnect]
  obtain ⟨answer, renewed⟩ | ⟨ex, answer, nonfatal, refused⟩ :=
    reconnect_cases follows.plays v.transport.calls.length
  · rw [answer, renewed]
    obtain ⟨⟨made, calls, done⟩, verdict, after⟩ :=
      emit_shows (follows.opened quiet) pid rfl ticks status.toU8 payload
    refine ⟨⟨.reconnect :: made, calls.trans ?_, ?_⟩, verdict, fun small => after ?_⟩
    · simp [Tape.log]
    · dsimp only
      rw [← done]
      simp [deeds, renewed, Tape.log]
    · exact small.imp id (Window.retryDropped_recovered script _ true).symm.trans
  · have after : Follows script { v with transport := v.transport.log .reconnect }
        { w with calls := w.calls + 1 } :=
      { follows with
        plays := follows.plays.log _
        calls := by simp [Tape.log, ← follows.calls] }
    have shows (error : BeatError) :
        Shows script v (.ok (.failed error), { v with transport := v.transport.log .reconnect })
          ([.reconnect false], .failed, { w with calls := w.calls + 1 }) :=
      ⟨⟨[.reconnect], rfl, by simp [deeds, refused]⟩, rfl, fun _ => after⟩
    rw [answer, refused, follows.calls]
    cases ex with
    | socket | other => exact shows _
    | fatal typeName => exact absurd rfl (nonfatal typeName)

/-- A beat is that of the window, unless it sees a new pid while drops are pending. -/
theorem beat_shows
    (quiet : w.reconnectAfter ≤ 1 ∨ (status ≠ .stall → pid ≠ w.connectPid → w.drops = 0))
    (ticks : Int64) (payload : UInt32) :
    Shows script v (v.beat pid.toNat ticks status.toU8 payload) (w.beat script status pid) := by
  by_cases stall : status = .stall
  · rw [Window.beat, if_pos stall, Handle.beat,
      if_pos ((isAgentStatus_iff status).not.mpr (not_not.mpr stall))]
    refine ⟨⟨[], (List.append_nil _).symm, rfl⟩, rfl, fun _ => ?_⟩
    exact { follows with drops := .inr (Nat.zero_min _).symm }
  by_cases other : pid ≠ w.connectPid
  · refine beat_other follows stall other ?_ ticks payload
    have counted := follows.drops
    rcases quiet with small | quiet
    · exact .inl small
    · rwa [quiet stall other, Nat.zero_min] at counted
  · rw [Window.beat, if_neg stall, if_neg other, Handle.beat,
      if_neg (not_not.mpr ((isAgentStatus_iff status).mpr stall)),
      if_neg (not_disposed follows), if_neg ((new_pid follows pid).not.mpr other)]
    exact emit_shows follows pid (not_not.mp other) ticks status.toU8 payload

theorem reconnect_shows (pid : UInt32) :
    (v.reconnect pid.toNat).1.toBool = (w.reconnect script pid).1 ∧
      Follows script (v.reconnect pid.toNat).2 (w.reconnect script pid).2 := by
  unfold Handle.reconnect Window.reconnect
  rw [if_neg (not_disposed follows), ← follows.calls]
  dsimp only [Transport.reconnect]
  obtain ⟨answer, renewed⟩ | ⟨ex, answer, -, refused⟩ :=
    reconnect_cases follows.plays v.transport.calls.length
  · rw [answer, renewed, follows.calls]
    exact ⟨rfl, { follows.cleared .reconnect with connectPid := rfl }⟩
  · rw [answer, refused]
    refine ⟨rfl, { follows with plays := follows.plays.log _, calls := ?_ }⟩
    simp [Tape.log]

theorem setReconnectAfter_follows (n : UInt32) :
    Follows script (v.setReconnectAfter n) (w.setReconnectAfter n.toNat) :=
  { follows with
    reconnectAfter := rfl
    drops := .inr (Nat.zero_min _).symm }

end

end DotNet

/-! ### The window over a run -/

theorem threshold_append (earlier : List Round) (round : Round) :
    threshold (earlier ++ [round]) = match round with | .set n => n | _ => threshold earlier := by
  simp [threshold]

theorem history_append (earlier : List Round) (round : Round) :
    history (earlier ++ [round]) = history earlier ++ round.marks := by
  simp [history]

/-- The window knows the threshold and the drops of its history. -/
structure Tracks (earlier : List Round) (w : Window) : Prop where
  threshold : w.reconnectAfter = threshold earlier
  pending : w.reconnectAfter = 0 ∨ w.drops = pending (history earlier)
  below : 0 < w.reconnectAfter → w.drops < w.reconnectAfter

namespace Window

variable {script : Script} {w : Window} {earlier : List Round}

open Round in
/-- The marks of a transmission. -/
def transmitted (deeds : List Deed) (verdict : Verdict) : List Mark :=
  (if firstDropped deeds then [.drop] else []) ++ (if attempted deeds then [.reset] else []) ++
    (if verdict = .dropped then [] else [.reset])

/-- An attempt starts the window anew, whatever its retry returned. -/
theorem pending_attempt (marks : List Mark) (first verdict : Verdict) (ok : Bool)
    (deeds : List Deed) :
    Ports.pending (marks ++ transmitted (.send first :: .reconnect ok :: deeds) verdict) = 0 := by
  have attempts : Round.attempted (.send first :: .reconnect ok :: deeds) = true := rfl
  rw [transmitted, if_pos attempts]
  by_cases lost : verdict = .dropped
  · rw [if_pos lost, List.append_nil, ← List.append_assoc, pending_reset]
  · rw [if_neg lost, ← List.append_assoc, pending_reset]

/-- A transmission after `marks`: the attempt comes with the drop that completes the window, and
the window goes on counting. -/
structure Counts (marks : List Mark) (n : Nat) (r : List Deed × Verdict × Window) : Prop where
  attempted : Round.attempted r.1 = true ↔
    Round.firstDropped r.1 = true ∧ Ports.pending (marks ++ [.drop]) = n
  threshold : r.2.2.reconnectAfter = n
  pending : n = 0 ∨ r.2.2.drops = Ports.pending (marks ++ transmitted r.1 r.2.1)
  below : 0 < n → r.2.2.drops < n

theorem transmit_counts {marks : List Mark}
    (known : w.reconnectAfter = 0 ∨ w.drops = Ports.pending marks)
    (below : 0 < w.reconnectAfter → w.drops < w.reconnectAfter) :
    Counts marks w.reconnectAfter (w.transmit script) := by
  unfold transmit
  cases script.sends w.calls with
  | sent | failed =>
    refine ⟨?_, rfl, .inr ?_, id⟩
    · simp [Round.attempted, Round.firstDropped, Round.afterFork]
    · exact (pending_reset marks).symm
  | dropped =>
    dsimp only
    by_cases due : w.due
    · obtain ⟨positive, reached⟩ := due
      have full : Ports.pending (marks ++ [.drop]) = w.reconnectAfter := by
        have room := below positive
        rw [pending_drop]
        omega
      rw [if_pos ⟨positive, reached⟩]
      cases script.reconnects (w.calls + 1) with
      | false | true =>
        refine ⟨?_, rfl, .inr (pending_attempt ..).symm, id⟩
        simp [Round.attempted, Round.firstDropped, Round.afterFork, full]
    · rw [if_neg due]
      have counted : transmitted [.send .dropped] .dropped = [.drop] := rfl
      unfold Window.due at due
      refine ⟨?_, rfl, ?_, fun positive => ?_⟩
      · simp only [Round.attempted, Round.firstDropped, Round.afterFork, List.head?_cons,
          decide_true, true_and, Bool.false_eq_true, false_iff, pending_drop]
        have room := below
        omega
      · rw [counted, pending_drop]
        exact known.imp id (congrArg (· + 1))
      · dsimp only
        omega

theorem marks_beat (deeds : List Deed) (verdict : Verdict) :
    (Round.beat deeds (some verdict)).marks =
      (if Round.recovered deeds then [.reset] else []) ++ transmitted deeds verdict := by
  simp [Round.marks, transmitted]

/-- A beat that does what `r` does, after a recovery at most. -/
theorem Counts.tracks {n : Nat} {r : List Deed × Verdict × Window} {deeds : List Deed}
    (counts : Counts (history earlier ++ if Round.recovered deeds then [.reset] else []) n r)
    (current : n = Ports.threshold earlier) (same : Round.afterFork deeds = Round.afterFork r.1) :
    InWindow earlier (.beat deeds (some r.2.1)) ∧
      Tracks (earlier ++ [.beat deeds (some r.2.1)]) r.2.2 := by
  have attempts : Round.attempted deeds = Round.attempted r.1 := by
    unfold Round.attempted
    rw [same]
  have drops : Round.firstDropped deeds = Round.firstDropped r.1 := by
    unfold Round.firstDropped
    rw [same]
  have marks : transmitted deeds r.2.1 = transmitted r.1 r.2.1 := by
    unfold transmitted
    rw [attempts, drops]
  constructor
  · rw [InWindow, attempts, drops, ← current]
    exact counts.attempted
  · constructor
    · rw [threshold_append, counts.threshold, current]
    · rw [history_append, marks_beat, marks, ← List.append_assoc, counts.threshold]
      exact counts.pending
    · rw [counts.threshold]
      exact counts.below

variable (script) in
/-- Without pending drops at a new pid, a beat attempts a reconnect where its history says. -/
theorem beat_tracks {status : Status} {pid : UInt32} (tracks : Tracks earlier w)
    (quiet : w.reconnectAfter = 0 ∨ (status ≠ .stall → pid ≠ w.connectPid → w.drops = 0)) :
    InWindow earlier
        (.beat (w.beat script status pid).1 (some (w.beat script status pid).2.1)) ∧
      Tracks (earlier ++
          [.beat (w.beat script status pid).1 (some (w.beat script status pid).2.1)])
        (w.beat script status pid).2.2 := by
  unfold beat
  by_cases stall : status = .stall
  · rw [if_pos stall]
    refine Counts.tracks (r := ([], .failed, { w with drops := 0 })) ?_ tracks.threshold rfl
    exact ⟨by simp [Round.attempted, Round.firstDropped, Round.afterFork], rfl,
      .inr (pending_reset _).symm, id⟩
  rw [if_neg stall]
  by_cases other : pid ≠ w.connectPid
  · rw [if_pos other]
    cases script.reconnects w.calls with
    | false =>
      refine Counts.tracks (r := ([.reconnect false], .failed, { w with calls := w.calls + 1 }))
        ?_ tracks.threshold rfl
      refine ⟨by simp [Round.attempted, Round.firstDropped, Round.afterFork], rfl, ?_,
        tracks.below⟩
      refine quiet.imp id fun none => ?_
      exact (none stall other).trans (pending_reset _).symm
    | true =>
      refine Counts.tracks (r := (w.opened pid).transmit script) ?_ tracks.threshold
        (afterFork_transmit script _).symm
      exact transmit_counts (w := w.opened pid) (.inr (pending_reset _).symm) id
  · rw [if_neg other]
    obtain ⟨first, deeds, begins⟩ := transmit_begins script w
    have recovers : Round.recovered (w.transmit script).1 = false := by
      rw [begins]
      rfl
    refine Counts.tracks ?_ tracks.threshold rfl
    rw [recovers]
    refine transmit_counts ?_ tracks.below
    simpa using tracks.pending

theorem reconnect_tracks (tracks : Tracks earlier w) (pid : UInt32) :
    Tracks (earlier ++ [.reconnect (w.reconnect script pid).1]) (w.reconnect script pid).2 := by
  unfold reconnect
  cases script.reconnects w.calls with
  | false =>
    refine ⟨?_, ?_, tracks.below⟩
    · rw [threshold_append]
      exact tracks.threshold
    · rw [history_append]
      simpa [Round.marks] using tracks.pending
  | true =>
    refine ⟨?_, .inr ?_, id⟩
    · rw [threshold_append]
      exact tracks.threshold
    · rw [history_append]
      exact (pending_reset _).symm

theorem setReconnectAfter_tracks (earlier : List Round) (w : Window) (n : Nat) :
    Tracks (earlier ++ [.set n]) (w.setReconnectAfter n) := by
  refine ⟨?_, .inr ?_, id⟩
  · rw [threshold_append]
    rfl
  · rw [history_append]
    exact (pending_reset _).symm

end Window

namespace DotNet

/-- One call of the .NET agent, as long as it breaks no window. -/
theorem watch_window {script : Script} (earlier : List Round) (v : Handle (Tape NetException))
    (w : Window) (call : WindowCall) (now : Follows script v w ∧ Tracks earlier w)
    (unbroken : w.Unbroken script call) :
    (watch script v call).1 = (w.watch script call).1 ∧
      InWindow earlier (watch script v call).1 ∧
      Follows script (watch script v call).2 (w.watch script call).2 ∧
      Tracks (record earlier (watch script v call).1) (w.watch script call).2 := by
  obtain ⟨follows, tracks⟩ := now
  cases call with
  | reconnect process =>
    obtain ⟨shown, after⟩ := reconnect_shows follows process.pid
    have same : (watch script v (.reconnect process)).1 =
        .reconnect (w.reconnect script process.pid).1 := congrArg Round.reconnect shown
    rw [same]
    exact ⟨rfl, trivial, after, Window.reconnect_tracks tracks process.pid⟩
  | setReconnectAfter n =>
    exact ⟨rfl, trivial, setReconnectAfter_follows follows n,
      Window.setReconnectAfter_tracks earlier w n.toNat⟩
  | beat status payload process now clock ticks =>
    have quiet : w.reconnectAfter = 0 ∨
        (status ≠ .stall → process.pid ≠ w.connectPid → w.drops = 0) := by
      have below := tracks.below
      rcases unbroken with small | ⟨-, recovers⟩
      · omega
      · exact .inr recovers
    obtain ⟨⟨made, calls, done⟩, verdict_eq, after⟩ :=
      beat_shows follows (quiet.imp (fun none => by omega) id) ticks payload
    have same : (watch script v (.beat status payload process now clock ticks)).1 =
        .beat (w.beat script status process.pid).1 (some (w.beat script status process.pid).2.1) := by
      dsimp only [watch]
      rw [calls, deedsBetween_append, done, verdict_eq]
    obtain ⟨inWindow, tracked⟩ := Window.beat_tracks script tracks quiet
    rw [same]
    refine ⟨rfl, inWindow, after ?_, tracked⟩
    rw [tracked.threshold, threshold_append, ← tracks.threshold]
    exact unbroken.imp id And.left

theorem new_follows {script : Script} {tape : Tape NetException} (plays : Plays script tape)
    (fresh : tape.calls = []) (pid : UInt32) :
    Follows script (.new tape pid.toNat) (.new pid) :=
  ⟨plays, congrArg List.length fresh, rfl, rfl, rfl, .inr rfl⟩

end DotNet

/-- Fresh tapes of one script. -/
structure Paired (script : Script) (net : Tape DotNet.NetException) (rust : Rust.RustTape) :
    Prop where
  net : DotNet.Plays script net ∧ net.calls = []
  rust : rust.Plays script ∧ rust.calls = []

/-- As long as the window of the script and the calls has no dropped retry, and no new pid while
drops are pending, the .NET agent attempts a reconnect exactly with the drop that completes a
window. If forks also show in the pid, its rounds are those of the Rust agent. -/
theorem dotnet_keeps_window {script : Script} {net : Tape DotNet.NetException}
    {rust : Rust.RustTape} (paired : Paired script net rust) (seen : Observation)
    (calls : List WindowCall)
    (unbroken : Steps.Guarded (advance (Window.watch script)) (Window.Unbroken script)
      (.new seen.pid) calls) :
    Throughout InWindow (answers (DotNet.watch script) (.new net seen.pid.toNat) calls) ∧
      (Steps.Guarded (advance (Rust.watch script)) Rust.Watches (Rust.connected rust seen) calls →
        answers (DotNet.watch script) (.new net seen.pid.toNat) calls =
          answers (Rust.watch script) (Rust.connected rust seen) calls) := by
  obtain ⟨same, inWindow⟩ := simulates_recorded DotNet.watch_window
    ⟨DotNet.new_follows paired.net.1 paired.net.2 seen.pid, rfl, .inr rfl, id⟩ unbroken
  refine ⟨inWindow, fun visible => same.trans ?_⟩
  exact (simulates Rust.watch_window
    ⟨_, Rust.connected_mirrors paired.rust.1 paired.rust.2, rfl⟩ visible).1.symm

/-- Nobody listens to the sends that the script drops. -/
def refusing {ε : Type} (script : Script) (e : ε) : Tape ε where
  sends call := if script.sends call = .dropped then .error e else .ok 32
  reconnects _ := .ok ()
  calls := []

def refusedNet (script : Script) : Tape DotNet.NetException :=
  refusing script (.socket ⟨.connectionRefused, 111⟩)

def refusedRust (script : Script) : Rust.RustTape :=
  ⟨refusing script ⟨some 111, .connectionRefused⟩, 32⟩

theorem refused_paired {script : Script} (sends : ∀ call, script.sends call ≠ .failed)
    (reconnects : ∀ call, script.reconnects call = true) :
    Paired script (refusedNet script) (refusedRust script) := by
  constructor
  all_goals refine ⟨⟨fun call => ?_, fun call => (congrArg some (reconnects call)).symm⟩, rfl⟩
  all_goals
    simp only [refusedNet, refusedRust, refusing]
    cases answer : script.sends call with
    | sent | dropped => rfl
    | failed => exact absurd answer (sends call)

/-- The first two sends are dropped, and the retry is sent. -/
def twoDropped : Script := ⟨fun call => if call < 2 then .dropped else .sent, fun _ => true⟩

/-- Every send is dropped, and every reconnect succeeds. -/
def noObserver : Script := ⟨fun _ => .dropped, fun _ => true⟩

def beatOf (pid : UInt32) (epoch : UInt64) : WindowCall := .beat .ok 0 ⟨pid, epoch⟩ 0 0 0

/-- Two drops of one process. -/
def drops : List WindowCall := [.setReconnectAfter 2, beatOf 7 0, beatOf 7 0]

theorem dotnet_keeps_window_two :
    answers (DotNet.watch twoDropped) (.new (refusedNet twoDropped) 7) drops =
      [.set 2, .beat [.send .dropped] (some .dropped),
        .beat [.send .dropped, .reconnect true, .send .sent] (some .sent)] ∧
    Throughout InWindow
      (answers (DotNet.watch twoDropped) (.new (refusedNet twoDropped) 7) drops) ∧
    answers (DotNet.watch twoDropped) (.new (refusedNet twoDropped) 7) drops =
      answers (Rust.watch twoDropped) (Rust.connected (refusedRust twoDropped) alone) drops := by
  have answered (call : Nat) : twoDropped.sends call ≠ .failed := by
    dsimp only [twoDropped]
    split <;> decide
  obtain ⟨inWindow, same⟩ := dotnet_keeps_window (refused_paired answered fun _ => rfl) alone drops
    (by decide +kernel)
  exact ⟨by decide +kernel, inWindow, same (by decide +kernel)⟩

/-- The calls break a window: one attempt comes too early, and the Rust agent does not make it. -/
def BreaksWindow (script : Script) (net : Tape DotNet.NetException) (rust : Rust.RustTape)
    (seen : Observation) (calls : List WindowCall) : Prop :=
  Paired script net rust ∧
    Steps.Guarded (advance (Rust.watch script)) Rust.Watches (Rust.connected rust seen) calls ∧
    ¬ Throughout InWindow (answers (DotNet.watch script) (.new net seen.pid.toNat) calls) ∧
    answers (DotNet.watch script) (.new net seen.pid.toNat) calls ≠
      answers (Rust.watch script) (Rust.connected rust seen) calls

/-- A third drop after a dropped retry, and a drop of a child that was forked with one pending. -/
theorem dotnet_breaks_window :
    BreaksWindow noObserver (refusedNet noObserver) (refusedRust noObserver) alone
        (drops ++ [beatOf 7 0]) ∧
      BreaksWindow noObserver (refusedNet noObserver) (refusedRust noObserver) alone
        [.setReconnectAfter 2, beatOf 7 0, beatOf 8 1] := by
  have paired : Paired noObserver (refusedNet noObserver) (refusedRust noObserver) :=
    refused_paired (fun _ => by simp [noObserver]) fun _ => rfl
  exact ⟨⟨paired, by decide +kernel⟩, ⟨paired, by decide +kernel⟩⟩

end Varta.Ports
