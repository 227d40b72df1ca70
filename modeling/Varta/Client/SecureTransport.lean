import Mathlib.Algebra.Group.Nat.Defs
import Mathlib.Tactic.Common

/-!
# Secure UDP transport

`SecureUdpTransport` of `varta-client/src/secure_transport/mod.rs`, with the fork epoch of
`fork_epoch.rs`. Key derivation and the entropy source are parameters, what the kernel
answers is an input of each call. Plaintext, ciphertext and socket are left out: a datagram
is the key it is sealed under and the nonce it carries.
-/
namespace Varta.Client

/-- The functions of `varta_vlp::crypto::kdf` that the transport calls. -/
structure Kdf (Salt Iv Key : Type) where
  deriveIvPrefix : Salt → UInt32 → Option Iv
  deriveAgentKey : Key → UInt32 → Option Key

inductive ClientError where
  | os (errno : Nat)
  | keyDerivation
  | aeadSeal
  | writeZero
  deriving DecidableEq, Repr

def orDerivationFailure {α : Type} : Option α → Except ClientError α
  | some derived => .ok derived
  | none => .error .keyDerivation

def failing : Option Nat → Except ClientError Unit
  | some errno => .error (.os errno)
  | none => .ok ()

def u32Max : UInt32 := 4294967295

def secureFrameLen : Nat := 60

def secureFrameMasterLen : Nat := 64

/-- A process as the transport sees it: `std::process::id()` and its copy of `FORK_EPOCH`. -/
structure Process where
  pid : UInt32
  forkEpoch : UInt64
  deriving DecidableEq, Repr

/-- The child of `fork(2)`, after `advance_child_epoch` has run in it. -/
def Process.fork (parent : Process) (childPid : UInt32) : Process :=
  ⟨childPid, parent.forkEpoch + 1⟩

/-- What the kernel says to `bind_ephemeral`, `connect` and `set_nonblocking`. -/
structure Binding where
  bindEphemeral : Option Nat
  connect : Option Nat
  setNonblocking : Option Nat
  deriving DecidableEq, Repr

def Binding.result (b : Binding) : Except ClientError Unit := do
  failing b.bindEphemeral
  failing b.connect
  failing b.setNonblocking

/-- The kernel agrees to everything. -/
def Binding.granted : Binding := ⟨none, none, none⟩

/-- What a `send` meets: the two places where it may reconnect, the seal, and `send(2)`. -/
structure SendAnswer where
  forked : Binding
  exhausted : Binding
  aeadSeal : Bool
  sent : Except Nat Nat

variable {Salt Iv Key : Type}

structure SecureUdpTransport (Salt Iv Key : Type) where
  key : Key
  ivCounter : UInt32
  ivSessionSalt : Salt
  ivPrefixIndex : UInt32
  ivPrefix : Iv
  isMasterMode : Bool
  masterKey : Option Key
  connectForkEpoch : UInt64
  deriving DecidableEq, Repr

/-- A datagram the kernel took in full. -/
structure Datagram (Iv Key : Type) where
  key : Key
  ivPrefix : Iv
  ivCounter : UInt32
  /-- The plaintext prefix of the master-key wire format. -/
  agentPid : Option UInt32
  deriving DecidableEq, Repr

/-- What AEAD asks never to repeat. -/
def Datagram.sealedUnder (d : Datagram Iv Key) : Key × Iv × UInt32 := (d.key, d.ivPrefix, d.ivCounter)

/-- Speculative values for the next frame. -/
inductive NonceAdvance (Iv : Type) where
  | simple (counter : UInt32)
  | wrap (counter nextPrefixIndex : UInt32) (nextPrefix : Iv)
  | reconnected (counter : UInt32)
  deriving DecidableEq, Repr

/-- What a call on a transport leaves behind. -/
structure Sent (Salt Iv Key : Type) where
  result : Except ClientError Nat
  transport : SecureUdpTransport Salt Iv Key
  /-- Entropy reads made so far. -/
  reads : Nat
  accepted : Option (Datagram Iv Key)

namespace SecureUdpTransport

def expectedSendLen (t : SecureUdpTransport Salt Iv Key) : Nat :=
  if t.isMasterMode then secureFrameMasterLen else secureFrameLen

section

variable (kdf : Kdf Salt Iv Key) (entropy : Nat → Except Nat Salt)

/-- `read_iv_session_salt`, the read with the given number. -/
def readIvSessionSalt (reads : Nat) : Except ClientError Salt :=
  (entropy reads).mapError .os

/-- A fresh salt and its first prefix. The socket comes first: without one, no entropy is
read. -/
def readSession (b : Binding) (reads : Nat) : Except ClientError (Salt × Iv) × Nat :=
  match b.result with
  | .error e => (.error e, reads)
  | .ok () =>
    (do
      let salt ← readIvSessionSalt entropy reads
      let iv ← orDerivationFailure (kdf.deriveIvPrefix salt 0)
      return (salt, iv), reads + 1)

/-- A transport at the start of a session. -/
def opened (process : Process) (key : Key) (masterKey : Option Key) (salt : Salt) (iv : Iv) :
    SecureUdpTransport Salt Iv Key where
  key := key
  ivCounter := 0
  ivSessionSalt := salt
  ivPrefixIndex := 0
  ivPrefix := iv
  isMasterMode := masterKey.isSome
  masterKey := masterKey
  connectForkEpoch := process.forkEpoch

def connect (process : Process) (b : Binding) (key : Key) (reads : Nat) :
    Except ClientError (SecureUdpTransport Salt Iv Key) × Nat :=
  match readSession kdf entropy b reads with
  | (.error e, reads) => (.error e, reads)
  | (.ok (salt, iv), reads) => (.ok (opened process key none salt iv), reads)

/-- The agent key is derived before the socket is made. -/
def connectWithMaster (process : Process) (b : Binding) (masterKey : Key) (reads : Nat) :
    Except ClientError (SecureUdpTransport Salt Iv Key) × Nat :=
  match kdf.deriveAgentKey masterKey process.pid with
  | none => (.error .keyDerivation, reads)
  | some agentKey =>
    match readSession kdf entropy b reads with
    | (.error e, reads) => (.error e, reads)
    | (.ok (salt, iv), reads) => (.ok (opened process agentKey (some masterKey) salt iv), reads)

/-- In master-key mode the key is derived again, for the pid of now. -/
def reconnectKey (t : SecureUdpTransport Salt Iv Key) (process : Process) : Except ClientError Key :=
  match t.masterKey with
  | some master => orDerivationFailure (kdf.deriveAgentKey master process.pid)
  | none => .ok t.key

/-- Either all of the session is replaced or nothing is. -/
def reconnect (t : SecureUdpTransport Salt Iv Key) (process : Process) (b : Binding)
    (reads : Nat) : Except ClientError (SecureUdpTransport Salt Iv Key) × Nat :=
  match readSession kdf entropy b reads with
  | (.error e, reads) => (.error e, reads)
  | (.ok (salt, iv), reads) =>
    match reconnectKey kdf t process with
    | .error e => (.error e, reads)
    | .ok key =>
      (.ok { t with
        key := key
        ivCounter := 0
        ivSessionSalt := salt
        ivPrefixIndex := 0
        ivPrefix := iv
        connectForkEpoch := process.forkEpoch }, reads)

def advanceNonce (t : SecureUdpTransport Salt Iv Key) (process : Process) (b : Binding)
    (reads : Nat) : Except ClientError (NonceAdvance Iv) × SecureUdpTransport Salt Iv Key × Nat :=
  if t.ivCounter < u32Max then (.ok (.simple t.ivCounter), t, reads)
  -- `checked_add(1)` of the index
  else if t.ivPrefixIndex < u32Max then
    match kdf.deriveIvPrefix t.ivSessionSalt (t.ivPrefixIndex + 1) with
    | none => (.error .keyDerivation, t, reads)
    | some nextPrefix => (.ok (.wrap 0 (t.ivPrefixIndex + 1) nextPrefix), t, reads)
  else
    match reconnect kdf entropy t process b reads with
    | (.error e, reads) => (.error e, t, reads)
    | (.ok t, reads) => (.ok (.reconnected 0), t, reads)

/-- The counter and the prefix that the frame carries. -/
def pending (t : SecureUdpTransport Salt Iv Key) : NonceAdvance Iv → UInt32 × Iv
  | .simple counter => (counter, t.ivPrefix)
  | .wrap counter _ nextPrefix => (counter, nextPrefix)
  | .reconnected counter => (counter, t.ivPrefix)

def commit (t : SecureUdpTransport Salt Iv Key) : NonceAdvance Iv → SecureUdpTransport Salt Iv Key
  | .simple counter => { t with ivCounter := counter + 1 }
  | .wrap counter nextPrefixIndex nextPrefix =>
    { t with ivPrefixIndex := nextPrefixIndex, ivPrefix := nextPrefix, ivCounter := counter + 1 }
  | .reconnected counter => { t with ivCounter := counter + 1 }

/-- Seal and hand to the kernel. Only a datagram taken in full is committed. -/
def transmit (t : SecureUdpTransport Salt Iv Key) (a : SendAnswer) (advance : NonceAdvance Iv) :
    Except ClientError Nat × SecureUdpTransport Salt Iv Key :=
  if a.aeadSeal then
    match a.sent with
    | .error errno => (.error (.os errno), t)
    | .ok n =>
      if n = t.expectedSendLen then (.ok n, t.commit advance) else (.error .writeZero, t)
  else (.error .aeadSeal, t)

/-- What the kernel took, whatever the sender makes of its answer. -/
def taken (t : SecureUdpTransport Salt Iv Key) (process : Process) (a : SendAnswer)
    (advance : NonceAdvance Iv) : Option (Datagram Iv Key) :=
  if a.aeadSeal ∧ a.sent.toOption = some t.expectedSendLen then
    some ⟨t.key, (t.pending advance).2, (t.pending advance).1,
      if t.isMasterMode then some process.pid else none⟩
  else none

/-- The part of `send` after the fork check. -/
def sendFrame (t : SecureUdpTransport Salt Iv Key) (process : Process) (a : SendAnswer)
    (reads : Nat) : Sent Salt Iv Key :=
  match advanceNonce kdf entropy t process a.exhausted reads with
  | (.error e, t, reads) => ⟨.error e, t, reads, none⟩
  | (.ok advance, t, reads) =>
    ⟨(t.transmit a advance).1, (t.transmit a advance).2, reads, t.taken process a advance⟩

def send (t : SecureUdpTransport Salt Iv Key) (process : Process) (a : SendAnswer)
    (reads : Nat) : Sent Salt Iv Key :=
  if process.forkEpoch = t.connectForkEpoch then sendFrame kdf entropy t process a reads
  else
    match reconnect kdf entropy t process a.forked reads with
    | (.error e, reads) => ⟨.error e, t, reads, none⟩
    | (.ok t, reads) => sendFrame kdf entropy t process a reads

end

/-! ### What a call does -/

/-- The place of the next frame in its session: prefix index and counter as one number. -/
def position (t : SecureUdpTransport Salt Iv Key) : Nat :=
  t.ivPrefixIndex.toNat * 2 ^ 32 + t.ivCounter.toNat

variable {t : SecureUdpTransport Salt Iv Key} {process : Process} {reads : Nat}

section

variable (kdf : Kdf Salt Iv Key) (entropy : Nat → Except Nat Salt)

/-- The cached prefix is that of the salt and the index. -/
def Derived (t : SecureUdpTransport Salt Iv Key) : Prop :=
  kdf.deriveIvPrefix t.ivSessionSalt t.ivPrefixIndex = some t.ivPrefix

/-- The datagram is frame `n` of the session with the salt. -/
def Stamped (salt : Salt) (n : Nat) (d : Datagram Iv Key) : Prop :=
  ∃ index : UInt32, kdf.deriveIvPrefix salt index = some d.ivPrefix ∧
    n = index.toNat * 2 ^ 32 + d.ivCounter.toNat

/-- The transport is at the start of a session whose salt was read since. -/
structure Renewed (process : Process) (reads reads' : Nat) (t : SecureUdpTransport Salt Iv Key) :
    Prop where
  salt : ∃ m, reads ≤ m ∧ m < reads' ∧ entropy m = .ok t.ivSessionSalt
  epoch : t.connectForkEpoch = process.forkEpoch
  counter : t.ivCounter = 0
  derived : t.Derived kdf

/-- The session goes on, with what was accepted in it. -/
structure Continues (t t' : SecureUdpTransport Salt Iv Key) (accepted : Option (Datagram Iv Key)) :
    Prop where
  salt : t'.ivSessionSalt = t.ivSessionSalt
  epoch : t'.connectForkEpoch = t.connectForkEpoch
  derived : t'.Derived kdf
  forward : t.position ≤ t'.position
  stamped : ∀ d, accepted = some d →
    ∃ n, Stamped kdf t.ivSessionSalt n d ∧ t.position ≤ n ∧ n < t'.position

variable {kdf entropy}

theorem Continues.nothing (derived : t.Derived kdf) :
    Continues kdf t t none where
  salt := rfl
  epoch := rfl
  derived := derived
  forward := Nat.le_refl _
  stamped := by simp

theorem readSession_cases (b : Binding) (reads : Nat) :
    (∃ e reads', readSession kdf entropy b reads = (.error e, reads') ∧ reads ≤ reads') ∨
    ∃ salt iv, readSession kdf entropy b reads = (.ok (salt, iv), reads + 1) ∧
      entropy reads = .ok salt ∧ kdf.deriveIvPrefix salt 0 = some iv := by
  unfold readSession readIvSessionSalt
  cases b.result with
  | error e => exact .inl ⟨e, reads, rfl, Nat.le_refl _⟩
  | ok _ =>
    cases entropy reads with
    | error errno => exact .inl ⟨.os errno, reads + 1, rfl, Nat.le_succ _⟩
    | ok salt =>
      cases derived : kdf.deriveIvPrefix salt 0 with
      | none =>
        refine .inl ⟨.keyDerivation, reads + 1, ?_, Nat.le_succ _⟩
        simp [derived, orDerivationFailure, Except.mapError, bind, Except.bind]
      | some iv =>
        refine .inr ⟨salt, iv, ?_, rfl, derived⟩
        simp [derived, orDerivationFailure, Except.mapError, bind, Except.bind, pure, Except.pure]

variable (kdf entropy) in
/-- A call that opens a session succeeds with a new one or gives no transport. -/
inductive Opens (process : Process) (reads : Nat) :
    Except ClientError (SecureUdpTransport Salt Iv Key) × Nat → Prop where
  | failed {e : ClientError} {reads' : Nat} (later : reads ≤ reads') :
      Opens process reads (.error e, reads')
  | renewed {t : SecureUdpTransport Salt Iv Key} {reads' : Nat}
      (new : Renewed kdf entropy process reads reads' t) : Opens process reads (.ok t, reads')

theorem connect_opens (process : Process) (b : Binding) (key : Key) (reads : Nat) :
    Opens kdf entropy process reads (connect kdf entropy process b key reads) := by
  unfold connect
  obtain ⟨e, reads', failed, later⟩ | ⟨salt, iv, opened, read, derived⟩ :=
    readSession_cases b reads
  · rw [failed]
    exact .failed later
  · rw [opened]
    exact .renewed ⟨⟨reads, by simp, by simp, read⟩, rfl, rfl, derived⟩

theorem connectWithMaster_opens (process : Process) (b : Binding) (masterKey : Key) (reads : Nat) :
    Opens kdf entropy process reads (connectWithMaster kdf entropy process b masterKey reads) := by
  unfold connectWithMaster
  split
  · exact .failed (Nat.le_refl _)
  · obtain ⟨e, reads', failed, later⟩ | ⟨salt, iv, opened, read, derived⟩ :=
      readSession_cases b reads
    · rw [failed]
      exact .failed later
    · rw [opened]
      exact .renewed ⟨⟨reads, by simp, by simp, read⟩, rfl, rfl, derived⟩

theorem reconnect_opens (t : SecureUdpTransport Salt Iv Key) (process : Process) (b : Binding)
    (reads : Nat) : Opens kdf entropy process reads (reconnect kdf entropy t process b reads) := by
  unfold reconnect
  obtain ⟨e, reads', failed, later⟩ | ⟨salt, iv, opened, read, derived⟩ :=
    readSession_cases b reads
  · rw [failed]
    exact .failed later
  · rw [opened]
    cases reconnectKey kdf t process with
    | error e => exact .failed (Nat.le_succ _)
    | ok key => exact .renewed ⟨⟨reads, by simp, by simp, read⟩, rfl, rfl, derived⟩

variable {reads' : Nat} {advance : NonceAdvance Iv}

theorem Renewed.reads_le (new : Renewed kdf entropy process reads reads' t) : reads ≤ reads' := by
  obtain ⟨m, above, below, _⟩ := new.salt
  omega

theorem Renewed.later {reads'' : Nat} (new : Renewed kdf entropy process reads reads' t)
    (later : reads' ≤ reads'') : Renewed kdf entropy process reads reads'' t := by
  obtain ⟨⟨m, above, below, read⟩, epoch, counter, derived⟩ := new
  exact ⟨⟨m, above, Nat.lt_of_lt_of_le below later, read⟩, epoch, counter, derived⟩

theorem Renewed.earlier {reads'' : Nat} (new : Renewed kdf entropy process reads' reads'' t)
    (earlier : reads ≤ reads') : Renewed kdf entropy process reads reads'' t := by
  obtain ⟨⟨m, above, below, read⟩, epoch, counter, derived⟩ := new
  exact ⟨⟨m, Nat.le_trans earlier above, below, read⟩, epoch, counter, derived⟩

variable (kdf) in
/-- The advance belongs to the transport's place in its session. -/
def Fits (t : SecureUdpTransport Salt Iv Key) : NonceAdvance Iv → Prop
  | .simple counter => counter = t.ivCounter ∧ counter < u32Max
  | .wrap counter nextPrefixIndex nextPrefix =>
    counter = 0 ∧ t.ivPrefixIndex < u32Max ∧ nextPrefixIndex = t.ivPrefixIndex + 1 ∧
      kdf.deriveIvPrefix t.ivSessionSalt nextPrefixIndex = some nextPrefix
  | .reconnected counter => counter = t.ivCounter ∧ counter < u32Max

theorem toNat_add_one {n : UInt32} (below : n < u32Max) : (n + 1).toNat = n.toNat + 1 := by
  have bound : n.toNat < u32Max.toNat := UInt32.lt_iff_toNat_lt.mp below
  have max : u32Max.toNat = 4294967295 := rfl
  rw [UInt32.toNat_add, UInt32.toNat_one]
  omega

/-- The frame that an advance puts on the wire comes after all before it and before the
transport's next place. -/
theorem commit_continues (derived : t.Derived kdf) (fits : Fits kdf t advance)
    (pid : Option UInt32) :
    Continues kdf t (t.commit advance)
      (some ⟨t.key, (t.pending advance).2, (t.pending advance).1, pid⟩) := by
  cases advance with
  | simple counter | reconnected counter =>
    obtain ⟨rfl, below⟩ := fits
    have next := toNat_add_one below
    refine ⟨rfl, rfl, derived, ?_, ?_⟩
    · simp [position, commit, next]
    · rintro d ⟨⟩
      exact ⟨t.position, ⟨t.ivPrefixIndex, derived, rfl⟩, Nat.le_refl _, by
        simp [position, commit, next]⟩
  | wrap counter nextPrefixIndex nextPrefix =>
    obtain ⟨rfl, below, rfl, nextDerived⟩ := fits
    have next := toNat_add_one below
    have counter := t.ivCounter.toNat_lt
    refine ⟨rfl, rfl, nextDerived, ?_, ?_⟩
    · simp only [position, commit, next, UInt32.toNat_add, UInt32.toNat_zero, UInt32.toNat_one]
      omega
    · rintro d ⟨⟩
      refine ⟨_, ⟨t.ivPrefixIndex + 1, nextDerived, rfl⟩, ?_, ?_⟩
      · simp only [position, pending, next, UInt32.toNat_zero]
        omega
      · simp only [position, commit, pending, UInt32.toNat_add, UInt32.toNat_zero, UInt32.toNat_one]
        omega

variable (kdf entropy) in
/-- A call goes on in the session it found, if that is its process's own, or in one that it
opened. -/
structure Served (process : Process) (reads : Nat) (t : SecureUdpTransport Salt Iv Key)
    (out : Sent Salt Iv Key) : Prop where
  later : reads ≤ out.reads
  base : ∃ base, ((base = t ∧ (out.accepted = none ∨ process.forkEpoch = t.connectForkEpoch)) ∨
      Renewed kdf entropy process reads out.reads base) ∧
    Continues kdf base out.transport out.accepted

/-- Nothing was sent and the transport is as it was. -/
theorem Served.failed (derived : t.Derived kdf) (later : reads ≤ reads') (e : ClientError) :
    Served kdf entropy process reads t ⟨.error e, t, reads', none⟩ :=
  ⟨later, t, .inl ⟨rfl, .inl rfl⟩, .nothing derived⟩

/-- The sender commits what the kernel took, and nothing else. -/
theorem transmit_cases (t : SecureUdpTransport Salt Iv Key) (process : Process) (a : SendAnswer)
    (advance : NonceAdvance Iv) :
    (∃ e, t.transmit a advance = (.error e, t) ∧ t.taken process a advance = none) ∨
      ∃ n pid, t.transmit a advance = (.ok n, t.commit advance) ∧
        t.taken process a advance =
          some ⟨t.key, (t.pending advance).2, (t.pending advance).1, pid⟩ := by
  unfold transmit taken
  cases a.aeadSeal with
  | false => exact .inl ⟨.aeadSeal, by simp, by simp⟩
  | true =>
    cases a.sent with
    | error errno => exact .inl ⟨.os errno, by simp, by simp [Except.toOption]⟩
    | ok n =>
      by_cases whole : n = t.expectedSendLen
      · exact .inr ⟨n, _, by simp [whole], by simp [Except.toOption, whole]; rfl⟩
      · exact .inl ⟨.writeZero, by simp [whole], by simp [Except.toOption, whole]⟩

theorem transmit_served (derived : t.Derived kdf) (fits : Fits kdf t advance)
    (current : process.forkEpoch = t.connectForkEpoch) (a : SendAnswer) (reads : Nat) :
    Served kdf entropy process reads t ⟨(t.transmit a advance).1, (t.transmit a advance).2, reads,
      t.taken process a advance⟩ := by
  obtain ⟨e, failed, nothing⟩ | ⟨n, pid, committed, took⟩ := transmit_cases t process a advance
  · rw [failed, nothing]
    exact .failed derived (Nat.le_refl _) _
  · rw [committed, took]
    exact ⟨Nat.le_refl _, t, .inl ⟨rfl, .inr current⟩, commit_continues derived fits _⟩

/-- A call that opened a session and then served it. -/
theorem Served.after_renewal {t' : SecureUdpTransport Salt Iv Key} {out : Sent Salt Iv Key}
    (new : Renewed kdf entropy process reads reads' t')
    (served : Served kdf entropy process reads' t' out) :
    Served kdf entropy process reads t out := by
  obtain ⟨later, base, opened, continues⟩ := served
  have earlier := new.reads_le
  refine ⟨Nat.le_trans earlier later, base, .inr ?_, continues⟩
  cases opened with
  | inl same => exact same.1 ▸ new.later later
  | inr again => exact again.earlier earlier

theorem sendFrame_served (derived : t.Derived kdf)
    (current : process.forkEpoch = t.connectForkEpoch) (a : SendAnswer) (reads : Nat) :
    Served kdf entropy process reads t (sendFrame kdf entropy t process a reads) := by
  unfold sendFrame advanceNonce
  by_cases below : t.ivCounter < u32Max
  -- the common case
  · simp only [below, if_true]
    have fits : Fits kdf t (.simple t.ivCounter) := ⟨rfl, below⟩
    exact transmit_served derived fits current a reads
  · by_cases room : t.ivPrefixIndex < u32Max
    -- the counter is used up: the next prefix of the same salt
    · simp only [below, room, if_true, if_false]
      cases next : kdf.deriveIvPrefix t.ivSessionSalt (t.ivPrefixIndex + 1) with
      | none => exact .failed derived (Nat.le_refl _) _
      | some nextPrefix =>
        have fits : Fits kdf t (.wrap 0 (t.ivPrefixIndex + 1) nextPrefix) := ⟨rfl, room, rfl, next⟩
        exact transmit_served derived fits current a reads
    -- both are used up: a new session
    · simp only [below, room, if_false]
      have opens : Opens kdf entropy process reads _ := reconnect_opens t process a.exhausted reads
      generalize reconnect kdf entropy t process a.exhausted reads = out at opens
      cases opens with
      | failed later => exact .failed derived later _
      | renewed new =>
        have fits : Fits kdf _ (.reconnected 0) := ⟨new.counter.symm, by decide⟩
        exact .after_renewal new (transmit_served new.derived fits new.epoch.symm a _)

theorem send_served (derived : t.Derived kdf) (process : Process) (a : SendAnswer) (reads : Nat) :
    Served kdf entropy process reads t (send kdf entropy t process a reads) := by
  unfold send
  split
  next current => exact sendFrame_served derived current a reads
  · have opens : Opens kdf entropy process reads _ := reconnect_opens t process a.forked reads
    generalize reconnect kdf entropy t process a.forked reads = out at opens
    cases opens with
    | failed later => exact .failed derived later _
    | renewed new => exact .after_renewal new (sendFrame_served new.derived new.epoch.symm a _)

theorem transmit_error {a : SendAnswer} {e : ClientError}
    (failed : (t.transmit a advance).1 = .error e) : (t.transmit a advance).2 = t := by
  obtain ⟨e', refused, -⟩ | ⟨n, pid, committed, -⟩ := transmit_cases t ⟨0, 0⟩ a advance
  · rw [refused]
  · rw [committed] at failed
    cases failed

/-- A send that fails outside the two reconnect paths leaves the transport as it was. -/
theorem send_error {a : SendAnswer} {e : ClientError}
    (current : process.forkEpoch = t.connectForkEpoch)
    (room : t.ivCounter < u32Max ∨ t.ivPrefixIndex < u32Max)
    (failed : (send kdf entropy t process a reads).result = .error e) :
    (send kdf entropy t process a reads).transport = t := by
  revert failed
  unfold send sendFrame advanceNonce
  simp only [current, if_true]
  by_cases below : t.ivCounter < u32Max
  · simp only [below, if_true]
    exact transmit_error
  · simp only [below, room.resolve_left below, if_true, if_false]
    cases kdf.deriveIvPrefix t.ivSessionSalt (t.ivPrefixIndex + 1) with
    | none => simp
    | some nextPrefix => exact transmit_error

end

end SecureUdpTransport

end Varta.Client
