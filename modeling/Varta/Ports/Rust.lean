import Varta.Ports.BeatMachine

/-!
# The Rust agent

The handle of `varta-client` over a transport that follows a script is the beat state machine:
it makes the same calls, gives the same answers, and its saturating counters show the machine's
counts as far as they reach.
-/
namespace Varta.Ports.Rust

open Machine Vlp Client

/-- A tape, and how long a datagram of the transport is. -/
structure RustTape extends Tape IoError where
  expectedSendLen : Nat

def RustTape.log (tape : RustTape) (call : TransportCall) : RustTape :=
  { tape with toTape := tape.toTape.log call }

instance : BeatTransport RustTape where
  send tape frame := (tape.sends tape.calls.length, tape.log (.send frame))
  expectedSendLen tape := tape.expectedSendLen
  reconnect tape := (tape.reconnects tape.calls.length, tape.log .reconnect)

/-- The class of an outcome. -/
def verdict : Client.BeatOutcome → Verdict
  | .sent => .sent
  | .dropped _ => .dropped
  | .failed _ => .failed

/-- What `send_frame` makes of an answer. -/
def classify (expectedLen : Nat) : Except IoError Nat → Client.BeatOutcome
  | .ok n => if n = expectedLen then .sent else .failed .shortSend
  | .error e => classifySendError e

def RustTape.Plays (script : Script) (tape : RustTape) : Prop :=
  tape.toTape.Plays (fun answer => some (verdict (classify tape.expectedSendLen answer)))
    (fun answer => some answer.toBool) script

variable {script : Script} {v : Handle RustTape} {m : BeatMachine}

/-- The handle is in the state of the machine. -/
structure Mirrors (script : Script) (v : Handle RustTape) (m : BeatMachine) : Prop where
  plays : v.transport.Plays script
  calls : v.transport.calls = m.calls
  nonce : v.nonce = m.nonce
  lastTimestamp : v.lastTimestamp = m.lastTimestamp
  connectPid : v.connectPid = m.connectPid
  drops : v.consecutiveDropped = min m.drops (2 ^ 32 - 1)
  reconnectAfter : v.reconnectAfter = m.reconnectAfter
  reachable : m.reconnectAfter < 2 ^ 32
  clockRegressions : v.clockRegressions = min m.clockRegressions (u64Bound - 1)
  forkRecoveries : v.forkRecoveries = min m.forkRecoveries (u64Bound - 1)

section

variable (mirrors : Mirrors script v m)

include mirrors

theorem Mirrors.log (call : TransportCall) :
    Mirrors script { v with transport := v.transport.log call } (m.log call) :=
  { mirrors with
    plays := mirrors.plays.log call
    calls := congrArg (· ++ [call]) mirrors.calls }

theorem Mirrors.commit (frame : WireFrame) :
    Mirrors script (v.commitSentFrame frame.nonce frame.timestamp) (m.commit frame) :=
  { mirrors with nonce := rfl, lastTimestamp := rfl }

theorem Mirrors.reset : Mirrors script { v with consecutiveDropped := 0 } { m with drops := 0 } :=
  { mirrors with drops := (Nat.zero_min _).symm }

theorem Mirrors.count :
    Mirrors script { v with consecutiveDropped := u32SaturatingAdd v.consecutiveDropped 1 }
      { m with drops := m.drops + 1 } :=
  { mirrors with
    drops := by
      change u32SaturatingAdd v.consecutiveDropped 1 = min (m.drops + 1) (2 ^ 32 - 1)
      rw [mirrors.drops, u32SaturatingAdd]
      omega }

theorem Mirrors.due :
    (v.reconnectAfter > 0 ∧ u32SaturatingAdd v.consecutiveDropped 1 ≥ v.reconnectAfter) ↔ m.due := by
  have reachable := mirrors.reachable
  rw [mirrors.reconnectAfter, mirrors.drops, u32SaturatingAdd, BeatMachine.due]
  omega

theorem sendFrame_mirrors {frame : Bytes32} (encoded : v.buf = frame) :
    verdict v.sendFrame.outcome = script.sends m.calls.length ∧
      Mirrors script v.sendFrame.handle (m.log (.send frame)) := by
  subst encoded
  have class_ := Option.some.inj (mirrors.plays.sends v.transport.calls.length)
  have logged := mirrors.log (.send v.buf)
  rw [← mirrors.calls, ← class_]
  unfold Handle.sendFrame
  dsimp only [BeatTransport.send, BeatTransport.expectedSendLen]
  cases v.transport.sends v.transport.calls.length with
  | ok n =>
    dsimp only [classify]
    split
    · exact ⟨rfl, logged⟩
    · exact ⟨rfl, logged⟩
  | error e => exact ⟨rfl, logged⟩

theorem retry_mirrors {frame : WireFrame} {dropped : Beaten RustTape}
    (encoded : v.buf = frame.encode) (outcome : verdict dropped.outcome = .dropped) :
    verdict (v.retry frame dropped).outcome = (m.retry script frame).1 ∧
      Mirrors script (v.retry frame dropped).handle (m.retry script frame).2 := by
  have class_ := Option.some.inj (mirrors.plays.reconnects v.transport.calls.length)
  unfold Handle.retry BeatMachine.retry
  dsimp only [BeatTransport.reconnect]
  rw [← mirrors.calls, ← class_]
  cases v.transport.reconnects v.transport.calls.length with
  | error e => exact ⟨outcome, mirrors.log .reconnect⟩
  | ok done =>
    obtain ⟨sent, after⟩ := sendFrame_mirrors (mirrors.log .reconnect) encoded
    dsimp only [Except.toBool]
    rw [← sent]
    generalize Handle.sendFrame { v with transport := v.transport.log .reconnect } = again at after
    cases again.outcome with
    | sent => exact ⟨rfl, after.commit frame⟩
    | dropped | failed => exact ⟨rfl, after⟩

/-- The clock is read, and the frame is written. -/
theorem Mirrors.clocked (raw : UInt64) (buf : Bytes32) :
    Mirrors script
      { v with
        clockRegressions :=
          if raw < v.lastTimestamp then u64SaturatingAdd v.clockRegressions 1
          else v.clockRegressions
        buf }
      (m.clocked raw) :=
  { mirrors with
    clockRegressions := by
      dsimp only [BeatMachine.clocked]
      rw [mirrors.lastTimestamp, mirrors.clockRegressions, u64SaturatingAdd]
      split <;> omega }

theorem emit_mirrors (process : Process) (clock : Nat) (status : Status) (payload : UInt32) :
    verdict (v.emit process clock status payload).outcome =
        (m.emit script status payload process.pid (v.rawElapsed clock)).1 ∧
      Mirrors script (v.emit process clock status payload).handle
        (m.emit script status payload process.pid (v.rawElapsed clock)).2 := by
  have candidate : v.candidate process clock status payload =
      m.frame status payload process.pid (v.rawElapsed clock) := by
    rw [Handle.candidate, Handle.nextRegularNonce, BeatMachine.frame, BeatMachine.nextNonce,
      mirrors.lastTimestamp, mirrors.nonce]
    split <;> rfl
  have clocked := mirrors.clocked (v.rawElapsed clock)
    (m.frame status payload process.pid (v.rawElapsed clock)).encode
  unfold Handle.emit BeatMachine.emit
  rw [candidate]
  generalize m.frame status payload process.pid (v.rawElapsed clock) = frame at clocked
  obtain ⟨sent, after⟩ := sendFrame_mirrors clocked rfl
  have buffered := Handle.sendFrame_buf { v with
    clockRegressions :=
      if v.rawElapsed clock < v.lastTimestamp then u64SaturatingAdd v.clockRegressions 1
      else v.clockRegressions
    buf := frame.encode }
  unfold BeatMachine.transmit
  dsimp only at buffered ⊢
  generalize Handle.sendFrame { v with
    clockRegressions :=
      if v.rawElapsed clock < v.lastTimestamp then u64SaturatingAdd v.clockRegressions 1
      else v.clockRegressions
    buf := frame.encode } = first at sent after buffered ⊢
  rw [← sent]
  cases outcome : first.outcome with
  | sent => exact ⟨rfl, (after.commit frame).reset⟩
  | failed error => exact ⟨rfl, after.reset⟩
  | dropped reason =>
    dsimp only [verdict]
    by_cases due : (m.clocked (v.rawElapsed clock)).due
    · rw [if_pos (after.due.mpr due), if_pos due]
      exact retry_mirrors after.reset buffered (congrArg verdict outcome)
    · rw [if_neg (after.due.not.mpr due), if_neg due]
      exact ⟨rfl, after.count⟩

end

/-- A fork shows in the pid. -/
def Visible (v : Handle RustTape) (process : Process) : Prop :=
  process.pid = v.connectPid → process.forkEpoch = v.connectForkEpoch

instance (v : Handle RustTape) (process : Process) : Decidable (Visible v process) :=
  inferInstanceAs (Decidable (_ → _))

theorem stale_eq {process : Process} (visible : Visible v process) :
    v.stale process = decide (process.pid ≠ v.connectPid) := by
  by_cases same : process.pid = v.connectPid
  · simp [Handle.stale, same, visible same]
  · simp [Handle.stale, same]

/-- The time that a beat reads: that of the new session if it opens one. -/
def reading (v : Handle RustTape) (process : Process) (now clock : Nat) : UInt64 :=
  UInt64.ofNat (elapsed (if process.pid ≠ v.connectPid then now else v.start) clock)

theorem beat_mirrors {process : Process} (mirrors : Mirrors script v m)
    (visible : Visible v process) (now clock : Nat) (status : Status) (payload : UInt32) :
    verdict (v.beat process now clock status payload).outcome =
        (m.beat script status payload process.pid (reading v process now clock)).1 ∧
      Mirrors script (v.beat process now clock status payload).handle
        (m.beat script status payload process.pid (reading v process now clock)).2 := by
  unfold Handle.beat BeatMachine.beat
  by_cases stall : status = .stall
  · rw [if_pos stall, if_pos stall]
    exact ⟨rfl, mirrors.reset⟩
  rw [if_neg stall, if_neg stall, stale_eq visible, ← mirrors.connectPid]
  unfold reading
  by_cases same : process.pid ≠ v.connectPid
  · rw [if_pos (decide_eq_true same), if_pos same, if_pos same]
    have class_ := Option.some.inj (mirrors.plays.reconnects v.transport.calls.length)
    unfold Handle.recover
    dsimp only [BeatTransport.reconnect]
    rw [← mirrors.calls, ← class_]
    have logged := mirrors.log .reconnect
    cases v.transport.reconnects v.transport.calls.length with
    | error e => exact ⟨rfl, logged⟩
    | ok done =>
      refine emit_mirrors (m := (m.log .reconnect).opened process.pid) ?_ process clock status payload
      exact {
        logged with
        nonce := rfl
        lastTimestamp := rfl
        connectPid := rfl
        drops := (Nat.zero_min _).symm
        forkRecoveries := by
          change u64SaturatingAdd v.forkRecoveries 1 = min (m.forkRecoveries + 1) (u64Bound - 1)
          rw [mirrors.forkRecoveries, u64SaturatingAdd]
          omega }
  · rw [if_neg (by simp [same]), if_neg same, if_neg same]
    exact emit_mirrors mirrors process clock status payload

/-- After a beat the handle is still its own process's, or that of the beat. -/
theorem beat_epoch (v : Handle RustTape) (process : Process) (now clock : Nat) (status : Status)
    (payload : UInt32) :
    (v.beat process now clock status payload).handle.connectForkEpoch = v.connectForkEpoch ∨
      (v.beat process now clock status payload).handle.connectForkEpoch = process.forkEpoch := by
  have emitted_epoch {frame : WireFrame} {w : Handle RustTape} {r : Beaten RustTape}
      (emitted : Handle.Emitted frame w r) :
      r.handle.connectForkEpoch = w.connectForkEpoch := by
    cases emitted with
    | sent _ _ advanced => exact advanced.connectForkEpoch
    | unsent _ _ same => exact same.connectForkEpoch
  cases v.beat_beats process now clock status payload with
  | refused _ _ same => exact .inl same.connectForkEpoch
  | current _ _ emitted => exact .inl (emitted_epoch emitted)
  | recovered _ _ w opened emitted =>
    exact .inr ((emitted_epoch emitted).trans opened.connectForkEpoch)

theorem reconnect_mirrors (mirrors : Mirrors script v m) (process : Process) :
    (v.reconnect process).1.toBool = (m.reconnect script process.pid).1 ∧
      Mirrors script (v.reconnect process).2 (m.reconnect script process.pid).2 := by
  have class_ := Option.some.inj (mirrors.plays.reconnects v.transport.calls.length)
  unfold Handle.reconnect BeatMachine.reconnect
  dsimp only [BeatTransport.reconnect]
  rw [← mirrors.calls, ← class_]
  have logged := mirrors.log .reconnect
  cases v.transport.reconnects v.transport.calls.length with
  | error e => exact ⟨rfl, logged⟩
  | ok done => exact ⟨rfl, { logged with connectPid := rfl, drops := (Nat.zero_min _).symm }⟩

theorem setReconnectAfter_mirrors (mirrors : Mirrors script v m) {n : Nat} (reachable : n < 2 ^ 32) :
    Mirrors script (v.setReconnectAfter n) (m.setReconnectAfter n) :=
  { mirrors with
    drops := (Nat.zero_min _).symm
    reconnectAfter := rfl
    reachable }

end Varta.Ports.Rust
