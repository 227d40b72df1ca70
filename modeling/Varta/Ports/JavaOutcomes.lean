import Varta.Ports.JavaSecureUdp

/-!
# Where a Java beat throws

`beat` catches `IOException` and nothing else. Over a transport that throws nothing else it returns
an outcome, and an outcome other than sent leaves nonce and timestamp as they were. The secure
transport throws nothing else as long as the providers work whenever a frame is sealed.
-/
namespace Varta.Ports.Java

open Transducer

/-! ### Any transport -/

/-- Nothing was thrown, or what `catch (IOException e)` takes. -/
def Checked {α : Type} : Except Throwable α → Prop
  | .ok _ => True
  | .error (.io _) => True
  | .error (.unchecked ..) => False

theorem Checked.error {α β : Type} {e : Throwable} (checked : Checked (.error e : Except _ α)) :
    Checked (.error e : Except _ β) := by
  cases e with
  | io e => trivial
  | unchecked name message => exact checked.elim

/-- If all is well with a transport after a call, it was so before, and the call has thrown nothing
unchecked. -/
structure ThrowsChecked {T : Type} [Transport Throwable T] (well : T → Prop) : Prop where
  send : ∀ t frame, well (Transport.send t frame).2 →
    well t ∧ Checked (Transport.send t frame).1
  reconnect : ∀ t, well (Transport.reconnect t).2 → well t ∧ Checked (Transport.reconnect t).1

/-- A call from a state with this nonce and timestamp has returned, and has changed them only by
sending. -/
def Returns {T : Type} (nonce lastTimestamp : Int64)
    (r : Except Throwable BeatOutcome × Handle T) : Prop :=
  ∃ outcome, r.1 = .ok outcome ∧
    (outcome ≠ .sent → r.2.nonce = nonce ∧ r.2.lastTimestamp = lastTimestamp)

section

variable {T : Type} [Transport Throwable T] {well : T → Prop} {v : Handle T}
  (checked : ThrowsChecked well)

include checked

/-- A send returns, and leaves nonce and timestamp to its caller. -/
theorem sendScratch_returns (done : well v.sendScratch.2.transport) :
    well v.transport ∧ ∃ outcome, v.sendScratch.1 = .ok outcome ∧
      v.sendScratch.2.nonce = v.nonce ∧ v.sendScratch.2.lastTimestamp = v.lastTimestamp := by
  have caught := checked.send v.transport v.scratch
  unfold Handle.sendScratch at done ⊢
  generalize Transport.send v.transport v.scratch = r at caught done ⊢
  obtain ⟨answer, transport⟩ := r
  cases answer with
  | ok written => exact ⟨(caught done).1, _, rfl, rfl, rfl⟩
  | error e =>
    cases e with
    | io e => exact ⟨(caught done).1, _, rfl, rfl, rfl⟩
    | unchecked name message => exact (caught done).2.elim

theorem retry_returns {nextNonce timestamp : Int64} {dropped : BeatOutcome}
    (done : well (v.retry nextNonce timestamp dropped).2.transport) :
    well v.transport ∧ Returns v.nonce v.lastTimestamp (v.retry nextNonce timestamp dropped) := by
  have caught := checked.reconnect v.transport
  unfold Handle.retry at done ⊢
  generalize Transport.reconnect v.transport = r at caught done ⊢
  obtain ⟨answer, transport⟩ := r
  cases answer with
  | error e =>
    cases e with
    | io e => exact ⟨(caught done).1, _, rfl, fun _ => ⟨rfl, rfl⟩⟩
    | unchecked name message => exact (caught done).2.elim
  | ok _ =>
    have sent := @sendScratch_returns T _ well { v with transport } checked
    dsimp only at done ⊢
    generalize Handle.sendScratch { v with transport } = r at sent done ⊢
    obtain ⟨result, v'⟩ := r
    -- every branch keeps the transport that the send has left
    have kept : well v'.transport := by
      rcases result with e | _ | reason | error <;> exact done
    obtain ⟨before, outcome, returned, nonce, timestamp⟩ := sent kept
    refine ⟨(caught before).1, ?_⟩
    cases returned
    cases outcome with
    | sent => exact ⟨_, rfl, fun unsent => absurd rfl unsent⟩
    | dropped _ | failed _ => exact ⟨_, rfl, fun _ => ⟨nonce, timestamp⟩⟩

theorem emit_returns {pid : Int32} {nanoTime : Int64} {status : AgentStatus} {payload : Int32}
    (done : well (v.emit pid nanoTime status payload).2.transport) :
    well v.transport ∧
      Returns v.nonce v.lastTimestamp (v.emit pid nanoTime status payload) := by
  unfold Handle.emit at done ⊢
  dsimp only at done ⊢
  -- the handle with the new frame, which has the nonce and the timestamp of the old one
  generalize begun : ({ v with clockRegressions := _, scratch := _ } : Handle T) = w at done ⊢
  obtain ⟨started, sameNonce, sameTimestamp⟩ : w.transport = v.transport ∧ w.nonce = v.nonce ∧
      w.lastTimestamp = v.lastTimestamp := by
    rw [← begun]
    exact ⟨rfl, rfl, rfl⟩
  have sent := @sendScratch_returns T _ well w checked
  rw [started, sameNonce, sameTimestamp] at sent
  generalize w.sendScratch = r at sent done ⊢
  obtain ⟨result, v'⟩ := r
  cases result with
  | error e =>
    obtain ⟨-, outcome, returned, -⟩ := sent done
    cases returned
  | ok outcome =>
    cases outcome with
    | sent => exact ⟨(sent done).1, _, rfl, fun unsent => absurd rfl unsent⟩
    | failed error =>
      obtain ⟨before, -, -, unchanged⟩ := sent done
      exact ⟨before, _, rfl, fun _ => unchanged⟩
    | dropped reason =>
      dsimp only at done ⊢
      split at done
      next due =>
        rw [if_pos due]
        obtain ⟨again, outcome, returned, unchanged⟩ := retry_returns checked done
        obtain ⟨before, -, -, nonce, timestamp⟩ := sent again
        refine ⟨before, outcome, returned, fun unsent => ?_⟩
        exact ⟨(unchanged unsent).1.trans nonce, (unchanged unsent).2.trans timestamp⟩
      next early =>
        rw [if_neg early]
        obtain ⟨before, -, -, unchanged⟩ := sent done
        exact ⟨before, _, rfl, fun _ => unchanged⟩

/-- The nonce and the timestamp are as before, or as after a fork. -/
theorem beat_returns {pid : Int32} {nanoTime : Int64} {status : AgentStatus} {payload : Int32}
    (done : well (v.beat pid nanoTime (some status) payload).2.transport) :
    Returns v.nonce v.lastTimestamp (v.beat pid nanoTime (some status) payload) ∨
      pid ≠ v.connectPid ∧ Returns nonceMin 0 (v.beat pid nanoTime (some status) payload) := by
  unfold Handle.beat at done ⊢
  dsimp only at done ⊢
  by_cases closed : v.closed
  · rw [if_pos closed]
    exact .inl ⟨_, rfl, fun _ => ⟨rfl, rfl⟩⟩
  rw [if_neg closed] at done ⊢
  by_cases other : pid ≠ v.connectPid
  · rw [if_pos other] at done ⊢
    have caught := checked.reconnect v.transport
    generalize Transport.reconnect v.transport = r at caught done ⊢
    obtain ⟨answer, transport⟩ := r
    cases answer with
    | error e =>
      cases e with
      | io e => exact .inl ⟨_, rfl, fun _ => ⟨rfl, rfl⟩⟩
      | unchecked name message => exact (caught done).2.elim
    | ok _ => exact .inr ⟨other, (emit_returns checked done).2⟩
  · rw [if_neg other] at done ⊢
    exact .inl (emit_returns checked done).2

end

/-! ### The secure transport -/

variable {Salt Iv : Type}

/-- A secure transport with its environment: the answers to each call, by the number of the call.
The sends are logged, each with the transport that made it. -/
structure SecureTape (Salt Iv : Type) where
  kdf : Salt → Nat → Iv
  entropy : Nat → Except Throwable Salt
  sends : Nat → SendAnswers
  sessions : Nat → SessionAnswers
  transport : SecureUdpTransport Salt Iv
  reads : Nat
  calls : Nat
  log : List (SecureUdpTransport Salt Iv × SendAnswers)

instance : Transport Throwable (SecureTape Salt Iv) where
  send tape _ :=
    let a := tape.sends tape.calls
    let s := tape.transport.send tape.kdf tape.entropy a tape.reads
    (s.result, { tape with
      transport := s.transport
      reads := s.reads
      calls := tape.calls + 1
      log := tape.log ++ [(tape.transport, a)] })
  reconnect tape :=
    let r := tape.transport.reconnect tape.kdf tape.entropy (tape.sessions tape.calls) tape.reads
    (r.1, { tape with transport := r.2.1, reads := r.2.2, calls := tape.calls + 1 })

/-- The providers work at every step of a send that the transport has: the next prefix is derived
only if the counter is spent and the index is not. -/
structure Provides (t : SecureUdpTransport Salt Iv) (a : SendAnswers) : Prop where
  rotationMac : t.counter = Int32.maxValue → t.prefixIndex ≠ Int32.maxValue → a.rotationMac = .ok ()
  agentKeyMac : t.mode = .master → a.agentKeyMac = .ok ()
  cipher : a.cipher = .ok ()

/-- The providers have worked in every send. -/
def SecureTape.Provided (tape : SecureTape Salt Iv) : Prop :=
  ∀ entry ∈ tape.log, Provides entry.1 entry.2

namespace SecureUdpTransport

variable {kdf : Salt → Nat → Iv} {entropy : Nat → Except Throwable Salt}

theorem prepareSession_checked (a : SessionAnswers) (reads : Nat) :
    Checked (prepareSession kdf entropy a reads).1 := by
  unfold prepareSession readFreshSessionMaterial
  cases entropy reads with
  | error e => trivial
  | ok salt =>
    dsimp only
    cases Hkdf.deriveIvPrefix kdf a.mac salt 0 with
    | error e => trivial
    | ok ivPrefix =>
      cases a.innerReconnect with
      | error | ok => trivial

theorem reconnect_checked (t : SecureUdpTransport Salt Iv) (a : SessionAnswers) (reads : Nat) :
    Checked (t.reconnect kdf entropy a reads).1 ∧
      (t.reconnect kdf entropy a reads).2.1.mode = t.mode := by
  have checked : Checked (prepareSession kdf entropy a reads).1 := prepareSession_checked a reads
  unfold reconnect Reconnected.commit
  generalize prepareSession kdf entropy a reads = session at checked ⊢
  obtain ⟨result, reads'⟩ := session
  cases result with
  | error e => exact ⟨checked.error, rfl⟩
  | ok material => exact ⟨trivial, rfl⟩

variable {t : SecureUdpTransport Salt Iv} {a : SendAnswers} (provides : Provides t a)

include provides

theorem advance_checked (reads : Nat) :
    Checked (t.advance kdf entropy a reads).1 ∧
      (t.advance kdf entropy a reads).2.1.mode = t.mode := by
  unfold advance reserve
  by_cases spent : t.counter = Int32.maxValue
  · rw [if_pos spent]
    by_cases last : t.prefixIndex = Int32.maxValue
    · rw [if_pos last]
      have checked : Checked (t.reconnect kdf entropy a.session reads).1 ∧ _ :=
        reconnect_checked t a.session reads
      generalize t.reconnect kdf entropy a.session reads = r at checked ⊢
      obtain ⟨result, t', reads'⟩ := r
      cases result with
      | error e => exact ⟨checked.1.error, checked.2⟩
      | ok _ => exact ⟨trivial, checked.2⟩
    · rw [if_neg last, provides.rotationMac spent last]
      exact ⟨trivial, rfl⟩
  · rw [if_neg spent]
    exact ⟨trivial, rfl⟩

theorem encode_ok {t' : SecureUdpTransport Salt Iv} (same : t'.mode = t.mode) :
    t'.encode a = .ok () := by
  unfold encode
  rw [same]
  cases mode : t.mode with
  | shared => rw [provides.cipher]; rfl
  | master => rw [provides.agentKeyMac mode, provides.cipher]; rfl

theorem transmit_checked {t' : SecureUdpTransport Salt Iv} (same : t'.mode = t.mode)
    (nonce : PendingNonce Int32 Iv) : Checked (transmit a t' nonce).1 := by
  unfold transmit
  rw [encode_ok provides same]
  cases a.innerSend with
  | error e => trivial
  | ok written =>
    dsimp only
    split
    · trivial
    · split <;> trivial

theorem send_checked (reads : Nat) : Checked (t.send kdf entropy a reads).result := by
  have checked : Checked (t.advance kdf entropy a reads).1 ∧ _ := advance_checked provides reads
  unfold send Sent.after
  generalize t.advance kdf entropy a reads = r at checked ⊢
  obtain ⟨result, t', reads'⟩ := r
  obtain ⟨caught, same⟩ := checked
  cases result with
  | error e => exact caught.error
  | ok nonce => exact transmit_checked provides same nonce

end SecureUdpTransport

/-- The secure transport throws nothing unchecked while the providers work. -/
theorem SecureTape.throwsChecked : ThrowsChecked (@SecureTape.Provided Salt Iv) := by
  constructor
  · intro tape frame provided
    refine ⟨fun entry earlier => provided entry (List.mem_append_left _ earlier), ?_⟩
    have now := provided _ (List.mem_append_right _ (List.mem_singleton_self _))
    exact SecureUdpTransport.send_checked now tape.reads
  · intro tape provided
    have caught : Checked (tape.transport.reconnect tape.kdf tape.entropy
        (tape.sessions tape.calls) tape.reads).1 :=
      (SecureUdpTransport.reconnect_checked ..).1
    exact ⟨provided, caught⟩

/-! ### Sequences of beats -/

structure JavaBeat where
  pid : Int32
  nanoTime : Int64
  status : AgentStatus
  payload : Int32

/-- One beat, with a log of its own. -/
def secureBeat (v : Handle (SecureTape Salt Iv)) (b : JavaBeat) :
    Except Throwable BeatOutcome × Handle (SecureTape Salt Iv) :=
  { v with transport := { v.transport with log := [] } }.beat b.pid b.nanoTime (some b.status)
    b.payload

/-- The committed nonce and timestamp are as before, or as a fork resets them. -/
def Uncommitted {T : Type} (v v' : Handle T) (pid : Int32) : Prop :=
  v'.nonce = v.nonce ∧ v'.lastTimestamp = v.lastTimestamp ∨
    pid ≠ v.connectPid ∧ v'.nonce = nonceMin ∧ v'.lastTimestamp = 0

/-- After any beats, of any agent, over any answers: if the providers work in the sends that a beat
makes, it returns an outcome, and commits nonce and timestamp only if that is sent. -/
theorem java_beat_returns {v : Handle (SecureTape Salt Iv)} (earlier : List JavaBeat) (b : JavaBeat)
    (provided : (secureBeat (final secureBeat v earlier) b).2.transport.Provided) :
    ∃ outcome, (secureBeat (final secureBeat v earlier) b).1 = .ok outcome ∧
      (outcome ≠ .sent → Uncommitted (final secureBeat v earlier)
        (secureBeat (final secureBeat v earlier) b).2 b.pid) := by
  obtain ⟨outcome, returned, unchanged⟩ | ⟨other, outcome, returned, unchanged⟩ :=
    beat_returns SecureTape.throwsChecked provided
  · exact ⟨outcome, returned, fun unsent => .inl (unchanged unsent)⟩
  · exact ⟨outcome, returned, fun unsent => .inr ⟨other, unchanged unsent⟩⟩

/-- The providers work, and the socket takes a frame of the shared-key mode. -/
def working : SendAnswers := ⟨⟨7, .ok (), .ok ()⟩, .ok (), .ok (), .ok (), .ok 60⟩

def missing : Except GeneralSecurityException Unit := .error ⟨"no such algorithm"⟩

/-- A transport of process 7 that gets the same answers all the time. -/
def answered (mode : SecureMode) (counter : Int32) (a : SendAnswers) :
    Handle (SecureTape Nat (Nat × Nat)) :=
  .new ⟨Prod.mk, .ok, fun _ => a, fun _ => a.session, ⟨mode, 0, (0, 0), 0, counter, 7⟩, 1, 0, []⟩ 7 0

def anyBeat : JavaBeat := ⟨7, 0, .ok, 0⟩

/-- The cipher works, which is all that is asked for, and nobody listens. -/
def unreachable : SendAnswers :=
  { working with
    rotationMac := missing
    innerSend := .error ⟨.portUnreachable, "PortUnreachableException", none, "", 0⟩ }

theorem java_beat_returns_unreachable :
    (secureBeat (final secureBeat (answered .shared 0 unreachable) [anyBeat]) anyBeat).1 =
        .ok (.dropped .noObserver) ∧
      Uncommitted (final secureBeat (answered .shared 0 unreachable) [anyBeat])
        (secureBeat (final secureBeat (answered .shared 0 unreachable) [anyBeat]) anyBeat).2 7 := by
  have expected :
      (secureBeat (final secureBeat (answered .shared 0 unreachable) [anyBeat]) anyBeat).1 =
        .ok (.dropped .noObserver) := rfl
  have provided : ∀ entry ∈ (secureBeat (final secureBeat (answered .shared 0 unreachable)
      [anyBeat]) anyBeat).2.transport.log, Provides entry.1 entry.2 := by
    intro entry logged
    obtain rfl := List.mem_singleton.mp logged
    exact ⟨fun spent => absurd spent (by decide), fun _ => rfl, rfl⟩
  obtain ⟨outcome, returned, unchanged⟩ := java_beat_returns [anyBeat] anyBeat provided
  cases Except.ok.inj (returned.symm.trans expected)
  exact ⟨expected, unchanged (by simp)⟩

/-- Without the cipher, without HMAC for the agent key, or without HMAC for the next prefix, a beat
throws. -/
theorem java_beat_throws :
    (secureBeat (answered .shared 0 { working with cipher := missing }) anyBeat).1 =
        .error (.unchecked "IllegalStateException" "ChaCha20-Poly1305 unavailable") ∧
      (secureBeat (answered .master 0 { working with agentKeyMac := missing }) anyBeat).1 =
        .error (.unchecked "IllegalStateException" "HKDF-SHA256 unavailable; JDK is broken") ∧
      (secureBeat (answered .shared Int32.maxValue { working with rotationMac := missing })
          anyBeat).1 =
        .error (.unchecked "IllegalStateException" "HKDF-SHA256 unavailable; JDK is broken") :=
  ⟨rfl, rfl, rfl⟩

end Varta.Ports.Java
