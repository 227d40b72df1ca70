import Varta.Ports.Go
import Varta.Ports.Java
import Varta.Ports.Python
import Varta.Ports.Rust

/-!
# Four agents, one machine

The Rust, Python, Go and Java agents are driven by the same calls: the same pids, the same readings
of the clock and transports whose answers are of the same classes. They hand the same frames to
their transports, reconnect at the same points and answer alike. Their counts agree as far as
Java's signed counters reach.
-/
namespace Varta.Ports

open Transducer Vlp

/-- What a process sees of itself, and the instant. -/
structure Observation where
  pid : UInt32
  rustEpoch : UInt64
  pythonEpoch : Nat
  now : Nat

/-- `raw` is the elapsed time that the agent reads. -/
inductive AgentCall where
  | beat (status : AgentStatus) (payload : UInt32) (seen : Observation) (raw : Fin (2 ^ 63))
  | reconnect (seen : Observation)
  | setReconnectAfter (n : Fin (2 ^ 31))

def AgentCall.request : AgentCall → Request
  | .beat status payload seen raw => .beat status.status payload seen.pid (.ofNat raw)
  | .reconnect seen => .reconnect seen.pid
  | .setReconnectAfter n => .setReconnectAfter n

theorem toNat_raw (raw : Fin (2 ^ 63)) : (UInt64.ofNat raw).toNat = raw :=
  UInt64.toNat_ofNat_of_lt' (Nat.lt_trans raw.isLt (by decide))

/-- The machine under the calls of an agent; an agent that throws has no reply. -/
def BeatMachine.answer (script : Script) (m : BeatMachine) (call : AgentCall) :
    Option Reply × BeatMachine :=
  (m.step script call.request).map some id

variable {script : Script} {seen : Observation}

/-! ### Rust -/

namespace Rust

open Client

def connected (tape : RustTape) (seen : Observation) : Handle RustTape where
  transport := tape
  buf := Bytes32.zero
  start := seen.now
  nonce := 0
  consecutiveDropped := 0
  reconnectAfter := 0
  lastTimestamp := 0
  clockRegressions := 0
  connectPid := seen.pid
  connectForkEpoch := seen.rustEpoch
  forkRecoveries := 0

theorem connect_eq (tape : RustTape) (seen : Observation) :
    Handle.connect ⟨seen.pid, seen.rustEpoch⟩ seen.now (.ok ()) (.ok tape) =
      .ok (connected tape seen) := rfl

def step (v : Handle RustTape) : AgentCall → Option Reply × Handle RustTape
  | .beat status payload seen raw =>
    let begun := if seen.pid ≠ v.connectPid then seen.now else v.start
    let r := v.beat ⟨seen.pid, seen.rustEpoch⟩ seen.now (begun + raw) status.status payload
    (some (.beat (verdict r.outcome)), r.handle)
  | .reconnect seen =>
    let r := v.reconnect ⟨seen.pid, seen.rustEpoch⟩
    (some (.reconnect r.1.toBool), r.2)
  | .setReconnectAfter n => (some .set, v.setReconnectAfter n)

/-- No fork keeps the pid of the handle. -/
def Sees (v : Handle RustTape) : AgentCall → Prop
  | .beat _ _ seen _ => Visible v ⟨seen.pid, seen.rustEpoch⟩
  | _ => True

instance (v : Handle RustTape) : (call : AgentCall) → Decidable (Sees v call)
  | .beat _ _ seen _ => inferInstanceAs (Decidable (Visible v ⟨seen.pid, seen.rustEpoch⟩))
  | .reconnect _ => isTrue trivial
  | .setReconnectAfter _ => isTrue trivial

theorem connected_mirrors {tape : RustTape} (plays : tape.Plays script) (fresh : tape.calls = []) :
    Mirrors script (connected tape seen) (.connected seen.pid) :=
  ⟨plays, fresh, rfl, rfl, rfl, rfl, rfl, Nat.two_pow_pos 32, rfl, rfl⟩

theorem step_mirrors (v : Handle RustTape) (m : BeatMachine) (call : AgentCall)
    (mirrors : Mirrors script v m) (sees : Sees v call) :
    (step v call).1 = (m.answer script call).1 ∧
      Mirrors script (step v call).2 (m.answer script call).2 := by
  cases call with
  | beat status payload seen raw =>
    have reads : reading v ⟨seen.pid, seen.rustEpoch⟩ seen.now
        ((if seen.pid ≠ v.connectPid then seen.now else v.start) + raw) = UInt64.ofNat raw := by
      rw [reading, elapsed, Nat.add_sub_cancel_left, Nat.min_eq_left]
      exact Nat.le_of_lt (Nat.lt_of_lt_of_le raw.isLt (by decide))
    have beaten := beat_mirrors mirrors sees seen.now
      ((if seen.pid ≠ v.connectPid then seen.now else v.start) + raw) status.status payload
    rw [reads] at beaten
    exact ⟨congrArg (some ∘ Reply.beat) beaten.1, beaten.2⟩
  | reconnect seen =>
    have renewed := reconnect_mirrors mirrors ⟨seen.pid, seen.rustEpoch⟩
    exact ⟨congrArg (some ∘ Reply.reconnect) renewed.1, renewed.2⟩
  | setReconnectAfter n =>
    exact ⟨rfl, setReconnectAfter_mirrors mirrors (Nat.lt_trans n.isLt (by decide))⟩

end Rust

/-! ### Python -/

namespace Python

def step (v : Handle (Tape PyException)) : AgentCall → Option Reply × Handle (Tape PyException)
  | .beat status payload seen raw =>
    let begun := if (seen.pid.toNat : Int) ≠ v.connectPid then (seen.now : Int) else v.startNs
    let r := v.beat ⟨seen.pid.toNat, seen.pythonEpoch⟩ seen.now (begun + raw) (some status.status)
      payload.toNat
    ((verdict r.1).map .beat, r.2)
  | .reconnect seen =>
    let r := v.reconnect ⟨seen.pid.toNat, seen.pythonEpoch⟩
    ((opens r.1).map .reconnect, r.2)
  | .setReconnectAfter n => (some .set, v.setReconnectAfter (some n))

def Sees (v : Handle (Tape PyException)) : AgentCall → Prop
  | .beat _ _ seen _ => Visible v ⟨seen.pid.toNat, seen.pythonEpoch⟩
  | _ => True

instance (v : Handle (Tape PyException)) : (call : AgentCall) → Decidable (Sees v call)
  | .beat _ _ seen _ => inferInstanceAs (Decidable (Visible v ⟨seen.pid.toNat, seen.pythonEpoch⟩))
  | .reconnect _ => isTrue trivial
  | .setReconnectAfter _ => isTrue trivial

def connected (tape : Tape PyException) (seen : Observation) : Handle (Tape PyException) :=
  .init tape ⟨seen.pid.toNat, seen.pythonEpoch⟩ seen.now

theorem connected_mirrors {tape : Tape PyException}
    (plays : Plays script tape)
    (fresh : tape.calls = []) :
    Mirrors script (connected tape seen) (.connected seen.pid) :=
  ⟨plays, fresh, rfl, rfl, rfl, rfl, rfl, rfl, Nat.zero_le _, rfl, rfl⟩

theorem step_mirrors (v : Handle (Tape PyException)) (m : BeatMachine) (call : AgentCall)
    (mirrors : Mirrors script v m) (sees : Sees v call) :
    (step v call).1 = (m.answer script call).1 ∧
      Mirrors script (step v call).2 (m.answer script call).2 := by
  have current (seen : Observation) :
      (⟨seen.pid.toNat, seen.pythonEpoch⟩ : PyProcess).pid = seen.pid.toNat := rfl
  cases call with
  | beat status payload seen raw =>
    have reads : reading v seen.pid.toNat seen.now
        ((if (seen.pid.toNat : Int) ≠ v.connectPid then (seen.now : Int) else v.startNs) + raw) =
          (UInt64.ofNat raw).toNat := by
      have bound := raw.isLt
      have small : ¬ raw.val > u64Max := by
        rw [u64Max]
        omega
      rw [toNat_raw, reading, elapsedNs, add_sub_cancel_left, Int.max_eq_right (by omega),
        Int.toNat_natCast, if_neg small]
    have beaten := beat_mirrors mirrors (current seen) sees reads status.status payload
    exact ⟨congrArg (Option.map Reply.beat) beaten.1, beaten.2⟩
  | reconnect seen =>
    have renewed := reconnect_mirrors mirrors (current seen)
    exact ⟨congrArg (Option.map Reply.reconnect) renewed.1, renewed.2⟩
  | setReconnectAfter n =>
    have bound := n.isLt
    refine ⟨rfl, setReconnectAfter_mirrors mirrors ?_⟩
    rw [u64Max]
    omega

end Python

/-! ### Go -/

namespace Go

def step (v : Handle (Tape GoError)) : AgentCall → Option Reply × Handle (Tape GoError)
  | .beat status payload seen raw =>
    let begun := if (seen.pid.toNat : Int) ≠ v.connectPID then (seen.now : Int) else v.startMono
    let r := v.beat seen.pid.toNat seen.now (begun + raw) status.status.toU8 payload
    (some (.beat r.1.verdict), r.2)
  | .reconnect seen =>
    let r := v.reconnect seen.pid.toNat
    (some (.reconnect r.1.toBool), r.2)
  | .setReconnectAfter n => (some .set, v.setReconnectAfter (.ofNat n))

def connected (tape : Tape GoError) (seen : Observation) : Handle (Tape GoError) :=
  .new tape seen.now seen.pid.toNat

theorem connected_mirrors {tape : Tape GoError}
    (plays : Plays script tape) (fresh : tape.calls = []) :
    Mirrors script (connected tape seen) (.connected seen.pid) :=
  ⟨plays, fresh, rfl, rfl, rfl, rfl, rfl, rfl, rfl, rfl⟩

theorem step_mirrors (v : Handle (Tape GoError)) (m : BeatMachine) (call : AgentCall)
    (mirrors : Mirrors script v m) :
    (step v call).1 = (m.answer script call).1 ∧
      Mirrors script (step v call).2 (m.answer script call).2 := by
  cases call with
  | beat status payload seen raw =>
    have reads : reading v seen.pid.toNat seen.now
        ((if (seen.pid.toNat : Int) ≠ v.connectPID then (seen.now : Int) else v.startMono) + raw) =
          UInt64.ofNat raw := by
      have bound := raw.isLt
      rw [reading, since, add_sub_cancel_left, Int.min_eq_left (by omega),
        Int.max_eq_right (by omega), Int.toNat_natCast]
    have beaten := beat_mirrors mirrors seen.pid seen.now
      ((if (seen.pid.toNat : Int) ≠ v.connectPID then (seen.now : Int) else v.startMono) + raw)
      status.status payload
    rw [reads] at beaten
    exact ⟨congrArg (some ∘ Reply.beat) beaten.1, beaten.2⟩
  | reconnect seen =>
    have renewed := reconnect_mirrors mirrors seen.pid
    exact ⟨congrArg (some ∘ Reply.reconnect) renewed.1, renewed.2⟩
  | setReconnectAfter n =>
    have set := setReconnectAfter_mirrors mirrors (.ofNat n)
    rw [UInt32.toNat_ofNat_of_lt' (Nat.lt_trans n.isLt (by decide))] at set
    exact ⟨rfl, set⟩

end Go

/-! ### Java -/

namespace Java

def step (v : Handle (Tape Throwable)) : AgentCall → Option Reply × Handle (Tape Throwable)
  | .beat status payload seen raw =>
    let r := v.beat seen.pid.toInt32 (v.startNanos + (UInt64.ofNat raw).toInt64) (some status)
      payload.toInt32
    ((verdict r.1).map .beat, r.2)
  | .reconnect seen =>
    let r := v.reconnect seen.pid.toInt32
    (some (.reconnect r.1.toBool), r.2)
  | .setReconnectAfter n =>
    let r := v.setReconnectAfter (UInt32.ofNat n).toInt32
    (r.1.toOption.map fun _ => .set, r.2)

def connected (tape : Tape Throwable) (seen : Observation) : Handle (Tape Throwable) :=
  .new tape seen.pid.toInt32 (UInt64.ofNat seen.now).toInt64

theorem connected_mirrors {tape : Tape Throwable}
    (plays : Plays script tape)
    (fresh : tape.calls = []) :
    Mirrors script (connected tape seen) (.connected seen.pid) :=
  ⟨plays, fresh, rfl, rfl, rfl, Nat.two_pow_pos 63, rfl, rfl, rfl, rfl, rfl⟩

theorem toInt_threshold (n : Fin (2 ^ 31)) : (UInt32.ofNat n).toInt32.toInt = n := by
  have bound := n.isLt
  change (UInt32.ofNat n).toBitVec.toInt = _
  rw [BitVec.toInt_eq_toNat_cond, UInt32.toNat_toBitVec,
    UInt32.toNat_ofNat_of_lt' (Nat.lt_trans bound (by decide))]
  omega

theorem step_mirrors (v : Handle (Tape Throwable)) (m : BeatMachine) (call : AgentCall)
    (mirrors : Mirrors script v m) :
    (step v call).1 = (m.answer script call).1 ∧
      Mirrors script (step v call).2 (m.answer script call).2 := by
  cases call with
  | beat status payload seen raw =>
    have reads : v.startNanos + (UInt64.ofNat raw).toInt64 - v.startNanos =
        (UInt64.ofNat raw).toInt64 := by
      rw [Int64.add_comm, Int64.add_sub_cancel]
    have signed : (UInt64.ofNat raw).toNat < 2 ^ 63 := by
      rw [toNat_raw]
      exact raw.isLt
    have beaten := beat_mirrors mirrors reads signed seen.pid status payload
    exact ⟨congrArg (Option.map Reply.beat) beaten.1, beaten.2⟩
  | reconnect seen =>
    have renewed := reconnect_mirrors mirrors seen.pid
    exact ⟨congrArg (some ∘ Reply.reconnect) renewed.1, renewed.2⟩
  | setReconnectAfter n =>
    have threshold := toInt_threshold n
    obtain ⟨done, set⟩ := setReconnectAfter_mirrors mirrors
      (n := (UInt32.ofNat n).toInt32) (by omega)
    rw [threshold, Int.toNat_natCast] at set
    exact ⟨by rw [step, done]; rfl, set⟩

end Java

/-! ### Agreement -/

/-- The answers of four transports are of the classes of one script. -/
structure SameScript (script : Script) (rust : Rust.RustTape) (python : Tape Python.PyException)
    (go : Tape Go.GoError) (java : Tape Java.Throwable) : Prop where
  rust : rust.Plays script ∧ rust.calls = []
  python : Python.Plays script python ∧ python.calls = []
  go : Go.Plays script go ∧ go.calls = []
  java : Java.Plays script java ∧ java.calls = []

/-- The same calls of the transports and the same counts, which Java cuts off at the largest
signed integer. -/
structure Alike (rust : Client.Handle Rust.RustTape) (python : Python.Handle (Tape Python.PyException))
    (go : Go.Handle (Tape Go.GoError)) (java : Java.Handle (Tape Java.Throwable)) : Prop where
  calls : python.transport.calls = rust.transport.calls ∧
    go.transport.calls = rust.transport.calls ∧ java.transport.calls = rust.transport.calls
  clockRegressions : python.clockRegressions = rust.clockRegressions ∧
    go.clockRegressions.toNat = rust.clockRegressions ∧
    java.clockRegressions.toInt = min rust.clockRegressions (2 ^ 63 - 1)
  forkRecoveries : python.forkRecoveries = rust.forkRecoveries ∧
    go.forkRecoveries.toNat = rust.forkRecoveries ∧
    java.forkRecoveries.toInt = min rust.forkRecoveries (2 ^ 63 - 1)

theorem alike_of_mirrors {m : BeatMachine} {rust : Client.Handle Rust.RustTape}
    {python : Python.Handle (Tape Python.PyException)} {go : Go.Handle (Tape Go.GoError)}
    {java : Java.Handle (Tape Java.Throwable)} (rusts : Rust.Mirrors script rust m)
    (pythons : Python.Mirrors script python m) (gos : Go.Mirrors script go m)
    (javas : Java.Mirrors script java m) : Alike rust python go java := by
  have largest : Machine.u64Bound - 1 = 2 ^ 64 - 1 := rfl
  have largest' : Python.u64Max = 2 ^ 64 - 1 := rfl
  constructor
  · rw [pythons.calls, gos.calls, javas.calls, rusts.calls]
    exact ⟨rfl, rfl, rfl⟩
  · rw [pythons.clockRegressions, gos.clockRegressions, javas.clockRegressions,
      rusts.clockRegressions, largest, largest']
    omega
  · rw [pythons.forkRecoveries, gos.forkRecoveries, javas.forkRecoveries, rusts.forkRecoveries,
      largest, largest']
    omega

/-- Whatever the calls and the answers: as long as forks show in the pid, the four agents reply
alike, and leave the same calls and the same counts behind. -/
theorem agents_agree {rust : Rust.RustTape} {python : Tape Python.PyException}
    {go : Tape Go.GoError} {java : Tape Java.Throwable}
    (same : SameScript script rust python go java) (seen : Observation) (calls : List AgentCall)
    (rustSees : Steps.Guarded (advance Rust.step) Rust.Sees (Rust.connected rust seen) calls)
    (pythonSees :
      Steps.Guarded (advance Python.step) Python.Sees (Python.connected python seen) calls) :
    (answers Python.step (Python.connected python seen) calls =
        answers Rust.step (Rust.connected rust seen) calls ∧
      answers Go.step (Go.connected go seen) calls =
        answers Rust.step (Rust.connected rust seen) calls ∧
      answers Java.step (Java.connected java seen) calls =
        answers Rust.step (Rust.connected rust seen) calls) ∧
    Alike (final Rust.step (Rust.connected rust seen) calls)
      (final Python.step (Python.connected python seen) calls)
      (final Go.step (Go.connected go seen) calls)
      (final Java.step (Java.connected java seen) calls) := by
  obtain ⟨rustReplies, rusts⟩ := simulates Rust.step_mirrors
    (Rust.connected_mirrors same.rust.1 same.rust.2) rustSees
  obtain ⟨pythonReplies, pythons⟩ := simulates Python.step_mirrors
    (Python.connected_mirrors same.python.1 same.python.2) pythonSees
  obtain ⟨goReplies, gos⟩ := simulates_always Go.step_mirrors
    (Go.connected_mirrors same.go.1 same.go.2) calls
  obtain ⟨javaReplies, javas⟩ := simulates_always Java.step_mirrors
    (Java.connected_mirrors same.java.1 same.java.2) calls
  refine ⟨?_, alike_of_mirrors rusts pythons gos javas⟩
  rw [pythonReplies, goReplies, javaReplies, rustReplies]
  exact ⟨rfl, rfl, rfl⟩

/-- A process without forks. -/
def alone : Observation := ⟨7, 0, 0, 0⟩

/-- The first frame is dropped, whatever the language calls it. -/
def oneDropped : Script := ⟨fun call => if call = 0 then .dropped else .sent, fun _ => true⟩

def dropsFirst {ε : Type} (e : ε) : Tape ε :=
  ⟨fun call => if call = 0 then .error e else .ok 32, fun _ => .ok (), []⟩

def queueFull : Tape Client.IoError × Tape Python.PyException × Tape Go.GoError × Tape Java.Throwable :=
  (dropsFirst ⟨some 105, .other⟩, dropsFirst (.os ⟨some 105, false, "ENOBUFS", "OSError"⟩),
    dropsFirst ⟨false, 105, "no buffer space available"⟩,
    dropsFirst (.io ⟨.socket, "SocketException", some "No buffer space", "no buffer space", 0⟩))

theorem queueFull_same :
    SameScript oneDropped ⟨queueFull.1, 32⟩ queueFull.2.1 queueFull.2.2.1 queueFull.2.2.2 := by
  constructor
  all_goals refine ⟨⟨fun call => ?_, fun _ => rfl⟩, rfl⟩
  all_goals
    by_cases first : call = 0
    · subst first
      decide
    · simp only [queueFull, dropsFirst, oneDropped, if_neg first]
      rfl

/-- A frame is dropped and sent again over a new connection, the clock steps back, and a child
takes over. -/
def eventful : List AgentCall :=
  [.setReconnectAfter 1, .beat .ok 0 alone 5, .beat .degraded 1 alone 3,
    .beat .critical 2 ⟨8, 1, 1, 9⟩ 0]

theorem agents_agree_eventful :
    answers Java.step (Java.connected queueFull.2.2.2 alone) eventful =
        [some .set, some (.beat .sent), some (.beat .sent), some (.beat .sent)] ∧
      Alike (final Rust.step (Rust.connected ⟨queueFull.1, 32⟩ alone) eventful)
        (final Python.step (Python.connected queueFull.2.1 alone) eventful)
        (final Go.step (Go.connected queueFull.2.2.1 alone) eventful)
        (final Java.step (Java.connected queueFull.2.2.2 alone) eventful) := by
  have agree := agents_agree queueFull_same alone eventful (by decide +kernel) (by decide +kernel)
  refine ⟨agree.1.2.2.trans ?_, agree.2⟩
  decide +kernel

/-! ### Where the counts part -/

/-- The clock steps back once and stays there. -/
def regressing (n : Nat) : List AgentCall :=
  .beat .ok 0 alone 1 :: List.replicate n (.beat .ok 0 alone 0)

def allSent : Script := ⟨fun _ => .sent, fun _ => true⟩

/-- Every frame is taken, and every reconnect succeeds. -/
def allTaken (ε : Type) : Tape ε := ⟨fun _ => .ok 32, fun _ => .ok (), []⟩

theorem allTaken_same : SameScript allSent ⟨allTaken _, 32⟩ (allTaken _) (allTaken _) (allTaken _) :=
  ⟨⟨⟨fun _ => rfl, fun _ => rfl⟩, rfl⟩, ⟨⟨fun _ => rfl, fun _ => rfl⟩, rfl⟩,
    ⟨⟨fun _ => rfl, fun _ => rfl⟩, rfl⟩, ⟨⟨fun _ => rfl, fun _ => rfl⟩, rfl⟩⟩

/-- A beat behind the high-water mark counts, and leaves the mark where it is. -/
theorem regression_counted {m : BeatMachine} (here : m.connectPid = alone.pid)
    (late : m.lastTimestamp = 1) (n : Nat) :
    (final (BeatMachine.answer allSent) m (List.replicate n (.beat .ok 0 alone 0))).clockRegressions =
      m.clockRegressions + n := by
  induction n generalizing m with
  | zero => rfl
  | succ n ih =>
    have beaten : (m.answer allSent (.beat .ok 0 alone 0)).2 =
        { (((m.clocked 0).log (.send (m.frame .ok 0 alone.pid 0).encode)).commit
          (m.frame .ok 0 alone.pid 0)) with drops := 0 } := by
      simp only [BeatMachine.answer, BeatMachine.step, AgentCall.request, BeatMachine.beat, here]
      rfl
    rw [List.replicate_succ, final_cons, ih]
    · rw [beaten]
      change (if (0 : UInt64) < m.lastTimestamp then _ else _) + n = _
      rw [late, if_pos (by decide)]
      omega
    · rw [beaten]
      exact here
    · rw [beaten]
      change max m.lastTimestamp 0 = 1
      rw [late]
      decide

/-- The calls of one process. -/
def Alone (call : AgentCall) : Prop := ∃ raw, call = .beat .ok 0 alone raw

theorem regressing_alone (n : Nat) : ∀ call ∈ regressing n, Alone call := by
  intro call member
  rcases List.mem_cons.mp member with rfl | member
  · exact ⟨1, rfl⟩
  · exact ⟨0, List.eq_of_mem_replicate member⟩

theorem rust_sees_alone (tape : Rust.RustTape) {calls : List AgentCall}
    (all : ∀ call ∈ calls, Alone call) :
    Steps.Guarded (advance Rust.step) Rust.Sees (Rust.connected tape alone) calls := by
  have holds (v : Client.Handle Rust.RustTape) (call : AgentCall)
      (epoch : v.connectForkEpoch = alone.rustEpoch) (own : Alone call) : Rust.Sees v call := by
    obtain ⟨raw, rfl⟩ := own
    exact fun _ => epoch.symm
  refine Steps.guarded_of_invariant holds ?_ rfl all
  rintro v call epoch ⟨raw, rfl⟩
  exact (Rust.beat_epoch v ⟨alone.pid, alone.rustEpoch⟩ ..).elim (·.trans epoch) id

/-- After `n` regressions the machine has counted `n`. -/
theorem regressing_counted (n : Nat) :
    (final (BeatMachine.answer allSent) (.connected alone.pid) (regressing n)).clockRegressions = n := by
  rw [regressing, final_cons, regression_counted (by decide) (by decide), Nat.add_eq_right]
  decide

/-- The largest count of Java is short of the other agents': after `2 ^ 63` regressions of the clock
they report one more. -/
theorem java_misses_a_regression :
    (final Rust.step (Rust.connected ⟨allTaken _, 32⟩ alone) (regressing (2 ^ 63))).clockRegressions =
        2 ^ 63 ∧
      (final Java.step (Java.connected (allTaken _) alone) (regressing (2 ^ 63))).clockRegressions.toInt =
        2 ^ 63 - 1 := by
  obtain ⟨-, rusts⟩ := simulates Rust.step_mirrors
    (Rust.connected_mirrors allTaken_same.rust.1 allTaken_same.rust.2)
    (rust_sees_alone _ (regressing_alone (2 ^ 63)))
  obtain ⟨-, javas⟩ := simulates_always Java.step_mirrors
    (Java.connected_mirrors allTaken_same.java.1 allTaken_same.java.2) (regressing (2 ^ 63))
  rw [rusts.clockRegressions, javas.clockRegressions, regressing_counted]
  decide

end Varta.Ports
