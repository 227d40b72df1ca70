import Varta.Lib.SessionNonces
import Varta.Ports.DotNet
import Varta.Ports.Go
import Varta.Ports.Python

/-!
# The secure senders of Python, Go and .NET

`SecureUdpTransport` of the three ports, each with the integers and the order of steps of its
source. The prefix derivation is a parameter, salts come from the numbered reads of an entropy
source, and what else the environment answers is an input of each call. Keys, plaintext and
ciphertext are left out: an accepted datagram is the place that it is sealed with. A session is
opened as `Opens` says, and a frame is sent as `Sends` says.
-/
namespace Varta.Ports

open SessionNonces

variable {Salt Iv : Type}

/-- Shared key or master key. -/
inductive SecureMode where
  | shared
  | master
  deriving DecidableEq, Repr

/-- The length of a wire frame. -/
def SecureMode.wireBytes : SecureMode → Nat
  | .shared => 60
  | .master => 64

/-- The locals of a send, before they are committed. -/
structure PendingNonce (ι Iv : Type) where
  prefixIndex : ι
  counter : ι
  ivPrefix : Iv

/-- What a send returns and leaves behind. -/
structure Sent (ε T Salt Iv : Type) where
  result : Except ε Nat
  transport : T
  reads : Nat
  accepted : Option (Place Salt Iv)

/-- A reconnect: what it returns, the transport, and the reads of entropy. -/
abbrev Reconnected (ε T : Type) := Except ε Unit × T × Nat

/-- Once the session is prepared, nothing fails. -/
def Reconnected.commit {ε T : Type} (session : Except ε (Salt × Iv) × Nat) (t : T)
    (renew : Salt → Iv → T) : Reconnected ε T :=
  match session with
  | (.error e, reads) => (.error e, t, reads)
  | (.ok (salt, ivPrefix), reads) => (.ok (), renew salt ivPrefix, reads)

/-- A send succeeds if it reports the whole plaintext. -/
def Sent.outcome {ε T : Type} (s : Sent ε T Salt Iv) : Outcome T Salt Iv :=
  ⟨decide (s.result.toOption = some 32), s.transport, s.reads, s.accepted⟩

def Reconnected.outcome {ε T : Type} (r : Reconnected ε T) : Outcome T Salt Iv :=
  ⟨r.1.isOk, r.2.1, r.2.2, none⟩

/-- The locals of a send, up to the encoding: where the transport is, or, if its counter is spent,
at the next prefix, or, if that was the last one, in a new session. -/
def reserve {ε T π : Type} (spent last : Prop) [Decidable spent] [Decidable last]
    (renewed : Reconnected ε T) (rotated : Except ε π) (current : T → π) (t : T) (reads : Nat) :
    Except ε π × T × Nat :=
  if spent then
    if last then
      match renewed with
      | (.error e, t, reads) => (.error e, t, reads)
      | (.ok (), t, reads) => (.ok (current t), t, reads)
    else (rotated, t, reads)
  else (.ok (current t), t, reads)

/-- Hand the frame to the kernel once it is sealed, and commit if all of it was taken. -/
def settle {ε T : Type} (encode : Except ε Unit) (sent : Except ε Nat) (mode : SecureMode)
    (short : Except ε Nat) (t committed : T) : Except ε Nat × T :=
  match encode with
  | .error e => (.error e, t)
  | .ok () =>
    match sent with
    | .error e => (.error e, t)
    | .ok sent => if sent ≠ mode.wireBytes then (short, t) else (.ok 32, committed)

/-- The bytes of a sealed frame that the kernel took. -/
def written {ε ε' : Type} : Except ε Unit → Except ε' Nat → Option Nat
  | .error _, _ => none
  | .ok (), sent => sent.toOption

/-- The rest of a send after its first part, which may have failed. The frame is accepted if the
kernel took all of its bytes, whatever the sender makes of that. -/
def Sent.after {ε T π : Type} (r : Except ε π × T × Nat) (transmit : T → π → Except ε Nat × T)
    (taken : T → Option Nat) (mode : T → SecureMode) (reserved : T → π → Place Salt Iv) :
    Sent ε T Salt Iv :=
  match r with
  | (.error e, t, reads) => ⟨.error e, t, reads, none⟩
  | (.ok nonce, t, reads) => ⟨(transmit t nonce).1, (transmit t nonce).2, reads,
      if taken t = some (mode t).wireBytes then some (reserved t nonce) else none⟩

/-- The salts that an entropy source has given. -/
def drawn {ε : Type} (entropy : Nat → Except ε Salt) (read : Nat) : Option Salt :=
  (entropy read).toOption

/-- A session is prepared: nothing, or a salt that was read now and its first prefix. -/
inductive Prepares {ε : Type} (kdf : Salt → Nat → Iv) (entropy : Nat → Except ε Salt)
    (reads : Nat) : Except ε (Salt × Iv) × Nat → Prop where
  | failed {e : ε} {reads' : Nat} (later : reads ≤ reads') :
      Prepares kdf entropy reads (.error e, reads')
  | prepared {salt : Salt} {reads' : Nat} (new : DrawnBetween (drawn entropy) reads reads' salt) :
      Prepares kdf entropy reads (.ok (salt, kdf salt 0), reads')

theorem drawn_now {ε : Type} {entropy : Nat → Except ε Salt} {reads : Nat} {salt : Salt}
    (read : entropy reads = .ok salt) : DrawnBetween (drawn entropy) reads (reads + 1) salt := by
  refine ⟨reads, Nat.le_refl _, Nat.lt_succ_self _, ?_⟩
  rw [drawn, read]
  rfl

section

variable {ε T π : Type} {limit : Nat} {kdf : Salt → Nat → Iv} {entropy : Nat → Except ε Salt}
  {place : T → Place Salt Iv} {reads : Nat} {p : Place Salt Iv}

/-- The salt is there, and its first prefix is derived or not. -/
theorem Prepares.derived {salt : Salt} (read : entropy reads = .ok salt) (hkdf : Except ε Unit) :
    Prepares kdf entropy reads
      ((hkdf.map fun _ => kdf salt 0).map (salt, ·), reads + 1) := by
  cases hkdf with
  | error e => exact .failed (Nat.le_succ _)
  | ok _ => exact .prepared (drawn_now read)

/-- A constructor that only wraps the session. -/
theorem Prepares.created {session : Except ε (Salt × Iv) × Nat} {wrap : Salt × Iv → T} {t : T}
    {reads' : Nat} (prepares : Prepares kdf entropy reads session)
    (created : session.map (fun session => session.map wrap) id = (.ok t, reads')) :
    ∃ salt, DrawnBetween (drawn entropy) 0 reads' salt ∧ t = wrap (salt, kdf salt 0) := by
  cases prepares with
  | failed later => cases created
  | @prepared salt reads' new =>
    cases created
    exact ⟨salt, new.mono (Nat.zero_le _) (Nat.le_refl _), rfl⟩

theorem Reconnected.commit_opens {session : Except ε (Salt × Iv) × Nat} {t : T}
    {renew : Salt → Iv → T} (prepares : Prepares kdf entropy reads session)
    (renews : ∀ salt iv, place (renew salt iv) = ⟨salt, 0, iv, 0⟩) :
    Opens kdf (drawn entropy) reads (place t)
      ((Reconnected.outcome (.commit session t renew)).view place) := by
  cases prepares with
  | failed later => exact .failed later
  | @prepared salt reads' new =>
    have opens : Opens kdf (drawn entropy) reads (place t)
        ⟨true, .first kdf salt, reads', none⟩ := .renewed new
    rw [Place.first, ← renews salt (kdf salt 0)] at opens
    exact opens

variable (limit kdf entropy place) in
/-- What a send does before it transmits: the nonce that it reserves, if any. -/
def Advances (reserved : T → π → Place Salt Iv) (reads : Nat) (p : Place Salt Iv)
    (r : Except ε π × T × Nat) : Prop :=
  Reserves limit kdf (drawn entropy) reads p (place r.2.1) r.2.2
    (r.1.toOption.map (reserved r.2.1))

theorem reserve_reserves {spent last : Prop} [Decidable spent] [Decidable last]
    {renewed : Reconnected ε T} {rotated : Except ε π} {current : T → π}
    {reserved : T → π → Place Salt Iv} {t : T} (same : ∀ t, reserved t (current t) = place t)
    (spent_eq : spent → (place t).counter = limit) (room : ¬ spent → (place t).counter < limit)
    (last_eq : last → (place t).index = limit)
    (opens : Opens kdf (drawn entropy) reads (place t) ((Reconnected.outcome renewed).view place))
    (rotates : ¬ last → ∀ nonce, rotated = .ok nonce →
      (place t).index < limit ∧ reserved t nonce = (place t).rotated kdf) :
    Advances limit kdf entropy place reserved reads (place t)
      (reserve spent last renewed rotated current t reads) := by
  unfold Advances reserve
  by_cases used : spent
  · rw [if_pos used]
    by_cases done : last
    · rw [if_pos done]
      obtain ⟨result, t', reads'⟩ := renewed
      cases result with
      | error e => exact opens.refuses
      | ok _ =>
        have restarts := opens.restarts ⟨spent_eq used, last_eq done⟩
        dsimp only [Except.toOption, Option.map_some]
        rw [same]
        exact restarts
    · rw [if_neg done]
      cases next : rotated with
      | error e => exact .refused (Nat.le_refl _)
      | ok nonce =>
        obtain ⟨inside, moved⟩ := rotates done nonce next
        dsimp only [Except.toOption, Option.map_some]
        rw [moved]
        exact .rotated (spent_eq used) inside
  · rw [if_neg used]
    dsimp only [Except.toOption, Option.map_some]
    rw [same]
    exact .counted (room used)

/-- The rest of a send: the sender goes on behind the frame `q` if all of its bytes were taken, and
else it reports no success and changes nothing. -/
inductive Settles (place : T → Place Salt Iv) (whole : Nat) (q : Place Salt Iv) (t : T) :
    Option Nat → Except ε Nat × T → Prop where
  | committed {t' : T} (moved : place t' = q.next) : Settles place whole q t (some whole) (.ok 32, t')
  | failed {taken : Option Nat} {result : Except ε Nat} (short : taken ≠ some whole)
      (unsent : result.toOption ≠ some 32) : Settles place whole q t taken (result, t)

theorem settle_settles {encode : Except ε Unit} {sent short : Except ε Nat} {mode : SecureMode}
    {q : Place Salt Iv} {t t' : T} (unsent : short.toOption ≠ some 32) (moved : place t' = q.next) :
    Settles place mode.wireBytes q t (written encode sent)
      (settle encode sent mode short t t') := by
  unfold settle
  cases encode with
  | error e => exact .failed (by simp [written]) (by simp [Except.toOption])
  | ok _ =>
    cases sent with
    | error e => exact .failed (by simp [written, Except.toOption]) (by simp [Except.toOption])
    | ok sent =>
      dsimp only
      by_cases whole : sent = mode.wireBytes
      · rw [if_neg (not_not.mpr whole), whole]
        exact .committed moved
      · rw [if_pos whole]
        exact .failed (fun all => whole (Option.some.inj all)) unsent

/-- A send of two parts. -/
theorem Sent.after_sends {r : Except ε π × T × Nat} {transmit : T → π → Except ε Nat × T}
    {taken : T → Option Nat} {mode : T → SecureMode} {reserved : T → π → Place Salt Iv}
    (positive : 0 < limit)
    (reserves : Advances limit kdf entropy place reserved reads p r)
    (settles : ∀ nonce, r.1 = .ok nonce → (reserved r.2.1 nonce).counter < limit →
      Settles place (mode r.2.1).wireBytes (reserved r.2.1 nonce) r.2.1 (taken r.2.1)
        (transmit r.2.1 nonce)) :
    Sends limit kdf (drawn entropy) reads p
      ((Sent.after r transmit taken mode reserved).outcome.view place) := by
  obtain ⟨pending, t, reads'⟩ := r
  cases pending with
  | error e => exact reserves.fails
  | ok nonce =>
    have settled := settles nonce rfl (reserves.room positive)
    dsimp only [Sent.after] at settled ⊢
    generalize transmit t nonce = rest at settled ⊢
    generalize taken t = bytes at settled ⊢
    cases settled with
    | committed moved =>
      have commits := reserves.commits
      rw [← moved] at commits
      rw [if_pos rfl]
      exact commits
    | failed short unsent =>
      dsimp only [Sent.outcome, Outcome.view]
      rw [if_neg short, decide_eq_false unsent]
      exact reserves.fails

end

/-- The counters of Go and .NET have 32 bits. -/
def u32Max : UInt32 := 0xFFFFFFFF

theorem toNat_eq_max {n : UInt32} (full : u32Max ≤ n) : n.toNat = u32Max.toNat :=
  Nat.le_antisymm (Nat.le_of_lt_succ n.toNat_lt) (UInt32.le_iff_toNat_le.mp full)

theorem toNat_lt_max {n : UInt32} (room : n ≠ u32Max) : n.toNat < u32Max.toNat :=
  Nat.lt_of_le_of_ne (Nat.le_of_lt_succ n.toNat_lt) fun full => room (UInt32.toNat_inj.mp full)

theorem toNat_succ {n : UInt32} (room : n.toNat < u32Max.toNat) :
    (n + 1).toNat = n.toNat + 1 := by
  have max : u32Max.toNat = 2 ^ 32 - 1 := rfl
  rw [UInt32.toNat_add, UInt32.toNat_one]
  omega

/-! ### Python -/

namespace Python

/-- The answers to `_prepare_session`, without the salt. -/
structure SessionAnswers where
  udpSocket : Except PyException Unit
  hkdf : Except PyException Unit

structure SendAnswers where
  session : SessionAnswers
  hkdf : Except PyException Unit
  encode : Except PyException Unit
  sent : Except PyException Nat

structure SecureUdpTransport (Salt Iv : Type) where
  mode : SecureMode
  /-- `_sock` is there. -/
  sock : Bool
  sessionSalt : Salt
  ivPrefix : Iv
  ivPrefixIndex : Nat
  ivCounter : Nat

def aeadCounterLimit : Nat := 0xFFFFFFFF

def closedSocketError : PyException := .os ⟨some 9, false, "EBADF", "OSError"⟩

namespace SecureUdpTransport

def place (t : SecureUdpTransport Salt Iv) : Place Salt Iv :=
  ⟨t.sessionSalt, t.ivPrefixIndex, t.ivPrefix, t.ivCounter⟩

/-- The place that a nonce belongs to. -/
def reserved (t : SecureUdpTransport Salt Iv) (nonce : PendingNonce Nat Iv) : Place Salt Iv :=
  ⟨t.sessionSalt, nonce.prefixIndex, nonce.ivPrefix, nonce.counter⟩

variable (kdf : Salt → Nat → Iv) (entropy : Nat → Except PyException Salt)

/-- `struct.pack` takes 32 bits. -/
def deriveIvPrefix (hkdf : Except PyException Unit) (salt : Salt) (prefixIndex : Nat) :
    Except PyException Iv :=
  if prefixIndex < 2 ^ 32 then hkdf.map fun _ => kdf salt prefixIndex
  else .error (.other "struct.error")

def prepareSession (a : SessionAnswers) (reads : Nat) : Except PyException (Salt × Iv) × Nat :=
  match a.udpSocket with
  | .error e => (.error e, reads)
  | .ok () =>
    match entropy reads with
    | .error e => (.error e, reads + 1)
    | .ok salt => ((deriveIvPrefix kdf a.hkdf salt 0).map (salt, ·), reads + 1)

/-- `__init__` with a key of the right length. -/
def init (mode : SecureMode) (a : SessionAnswers) (reads : Nat) :
    Except PyException (SecureUdpTransport Salt Iv) × Nat :=
  (prepareSession kdf entropy a reads).map
    (fun session => session.map fun (salt, ivPrefix) => ⟨mode, true, salt, ivPrefix, 0, 0⟩) id

def reconnect (t : SecureUdpTransport Salt Iv) (a : SessionAnswers) (reads : Nat) :
    Reconnected PyException (SecureUdpTransport Salt Iv) :=
  .commit (prepareSession kdf entropy a reads) t fun salt ivPrefix =>
    { t with sock := true, sessionSalt := salt, ivPrefix, ivPrefixIndex := 0, ivCounter := 0 }

/-- The locals of `send`, up to the encoding. -/
def advance (t : SecureUdpTransport Salt Iv) (a : SendAnswers) (reads : Nat) :
    Except PyException (PendingNonce Nat Iv) × SecureUdpTransport Salt Iv × Nat :=
  reserve (t.ivCounter ≥ aeadCounterLimit) (t.ivPrefixIndex ≥ aeadCounterLimit)
    (t.reconnect kdf entropy a.session reads)
    ((deriveIvPrefix kdf a.hkdf t.sessionSalt (t.ivPrefixIndex + 1)).map
      (⟨t.ivPrefixIndex + 1, 0, ·⟩))
    (fun t => ⟨t.ivPrefixIndex, t.ivCounter, t.ivPrefix⟩) t reads

/-- The rest of `send`: a short count is no success. -/
def transmit (a : SendAnswers) (t : SecureUdpTransport Salt Iv) (nonce : PendingNonce Nat Iv) :
    Except PyException Nat × SecureUdpTransport Salt Iv :=
  settle a.encode a.sent t.mode (.ok 0) t { t with
    ivPrefixIndex := nonce.prefixIndex
    ivPrefix := nonce.ivPrefix
    ivCounter := nonce.counter + 1 }

def send (t : SecureUdpTransport Salt Iv) (a : SendAnswers) (reads : Nat) :
    Sent PyException (SecureUdpTransport Salt Iv) Salt Iv :=
  if ¬ t.sock then ⟨.error closedSocketError, t, reads, none⟩
  else .after (t.advance kdf entropy a reads) (transmit a) (fun _ => written a.encode a.sent) mode
    reserved

/-! What a call does. -/

variable {kdf entropy}

theorem prepareSession_prepares (a : SessionAnswers) (reads : Nat) :
    Prepares kdf entropy reads (prepareSession kdf entropy a reads) := by
  unfold prepareSession
  cases a.udpSocket with
  | error e => exact .failed (Nat.le_refl _)
  | ok _ =>
    cases read : entropy reads with
    | error e => exact .failed (Nat.le_succ _)
    | ok salt =>
      have derived : deriveIvPrefix kdf a.hkdf salt 0 = a.hkdf.map fun _ => kdf salt 0 :=
        if_pos (by decide)
      dsimp only
      rw [derived]
      exact .derived read a.hkdf

theorem reconnect_opens (t : SecureUdpTransport Salt Iv) (a : SessionAnswers) (reads : Nat) :
    Opens kdf (drawn entropy) reads t.place
      ((Reconnected.outcome (t.reconnect kdf entropy a reads)).view place) :=
  Reconnected.commit_opens (prepareSession_prepares a reads) fun _ _ => rfl

variable {t : SecureUdpTransport Salt Iv}

theorem advance_reserves (placed : WellPlaced aeadCounterLimit kdf t.place) (a : SendAnswers)
    (reads : Nat) :
    Advances aeadCounterLimit kdf entropy place reserved reads t.place
      (t.advance kdf entropy a reads) := by
  refine reserve_reserves (fun _ => rfl) (Nat.le_antisymm placed.counter) Nat.lt_of_not_le
    (Nat.le_antisymm placed.index) (reconnect_opens t a.session reads) ?_
  intro last nonce derived
  have room : t.ivPrefixIndex < aeadCounterLimit := Nat.lt_of_not_le last
  have fits : t.ivPrefixIndex + 1 < 2 ^ 32 := Nat.succ_lt_succ room
  rw [deriveIvPrefix, if_pos fits] at derived
  cases hkdf : a.hkdf with
  | error e =>
    rw [hkdf] at derived
    cases derived
  | ok _ =>
    rw [hkdf] at derived
    cases derived
    exact ⟨room, rfl⟩

theorem send_sends (placed : WellPlaced aeadCounterLimit kdf t.place) (a : SendAnswers)
    (reads : Nat) :
    Sends aeadCounterLimit kdf (drawn entropy) reads t.place
      ((t.send kdf entropy a reads).outcome.view place) := by
  unfold send
  by_cases closed : ¬ t.sock
  · rw [if_pos closed]
    exact .refused (Nat.le_refl _)
  · rw [if_neg closed]
    exact Sent.after_sends (by decide) (advance_reserves placed a reads) fun _ _ _ =>
      settle_settles (by decide) rfl

end SecureUdpTransport

end Python

/-! ### Go -/

namespace Go

/-- The answers to `prepareSecureUDPSession`, without the salt. Go's derivation cannot fail. -/
structure SessionAnswers where
  dialUDP : Except GoError Unit

structure SendAnswers where
  session : SessionAnswers
  encode : Except GoError Unit
  /-- `conn.Write` returns a count and an error. -/
  write : Nat × Option GoError

/-- The count that comes with an error is not used by anyone. -/
def SendAnswers.kernel (a : SendAnswers) : Except GoError Nat :=
  match a.write with
  | (_, some err) => .error err
  | (n, none) => .ok n

structure SecureUDPTransport (Salt Iv : Type) where
  kind : SecureMode
  sessionSalt : Salt
  ivPrefix : Iv
  prefixIndex : UInt32
  counter : UInt32

def aeadCounterLimit : UInt32 := 0xFFFFFFFF

def errShortWrite : GoError := ⟨true, 0, "short write"⟩

namespace SecureUDPTransport

def place (t : SecureUDPTransport Salt Iv) : Place Salt Iv :=
  ⟨t.sessionSalt, t.prefixIndex.toNat, t.ivPrefix, t.counter.toNat⟩

def reserved (t : SecureUDPTransport Salt Iv) (nonce : PendingNonce UInt32 Iv) : Place Salt Iv :=
  ⟨t.sessionSalt, nonce.prefixIndex.toNat, nonce.ivPrefix, nonce.counter.toNat⟩

variable (kdf : Salt → Nat → Iv) (entropy : Nat → Except GoError Salt)

def deriveIVPrefix (salt : Salt) (prefixIndex : UInt32) : Iv := kdf salt prefixIndex.toNat

def prepareSecureUDPSession (a : SessionAnswers) (reads : Nat) :
    Except GoError (Salt × Iv) × Nat :=
  match a.dialUDP with
  | .error err => (.error err, reads)
  | .ok () => ((entropy reads).map fun salt => (salt, deriveIVPrefix kdf salt 0), reads + 1)

/-- `NewSecureUDPShared` and `NewSecureUDPMaster`. -/
def new (kind : SecureMode) (a : SessionAnswers) (reads : Nat) :
    Except GoError (SecureUDPTransport Salt Iv) × Nat :=
  (prepareSecureUDPSession kdf entropy a reads).map
    (fun session => session.map fun (salt, ivPrefix) => ⟨kind, salt, ivPrefix, 0, 0⟩) id

def reconnect (t : SecureUDPTransport Salt Iv) (a : SessionAnswers) (reads : Nat) :
    Reconnected GoError (SecureUDPTransport Salt Iv) :=
  .commit (prepareSecureUDPSession kdf entropy a reads) t fun salt ivPrefix =>
    { t with sessionSalt := salt, ivPrefix, prefixIndex := 0, counter := 0 }

/-- The locals of `Send`, up to the encoding. -/
def advance (t : SecureUDPTransport Salt Iv) (a : SendAnswers) (reads : Nat) :
    Except GoError (PendingNonce UInt32 Iv) × SecureUDPTransport Salt Iv × Nat :=
  reserve (t.counter ≥ aeadCounterLimit) (t.prefixIndex ≥ aeadCounterLimit)
    (t.reconnect kdf entropy a.session reads)
    (.ok ⟨t.prefixIndex + 1, 0, deriveIVPrefix kdf t.sessionSalt (t.prefixIndex + 1)⟩)
    (fun t => { t with }) t reads

/-- The rest of `Send`: a short count is an error. -/
def transmit (a : SendAnswers) (t : SecureUDPTransport Salt Iv) (nonce : PendingNonce UInt32 Iv) :
    Except GoError Nat × SecureUDPTransport Salt Iv :=
  settle a.encode a.kernel t.kind (.error errShortWrite) t { t with
    prefixIndex := nonce.prefixIndex
    ivPrefix := nonce.ivPrefix
    counter := nonce.counter + 1 }

def send (t : SecureUDPTransport Salt Iv) (a : SendAnswers) (reads : Nat) :
    Sent GoError (SecureUDPTransport Salt Iv) Salt Iv :=
  .after (t.advance kdf entropy a reads) (transmit a) (fun _ => written a.encode a.kernel) kind
    reserved

/-! What a call does. -/

variable {kdf entropy}

theorem prepareSecureUDPSession_prepares (a : SessionAnswers) (reads : Nat) :
    Prepares kdf entropy reads (prepareSecureUDPSession kdf entropy a reads) := by
  unfold prepareSecureUDPSession
  cases a.dialUDP with
  | error e => exact .failed (Nat.le_refl _)
  | ok _ =>
    cases read : entropy reads with
    | error e => exact .failed (Nat.le_succ _)
    | ok salt => exact .prepared (drawn_now read)

theorem reconnect_opens (t : SecureUDPTransport Salt Iv) (a : SessionAnswers) (reads : Nat) :
    Opens kdf (drawn entropy) reads t.place
      ((Reconnected.outcome (t.reconnect kdf entropy a reads)).view place) :=
  Reconnected.commit_opens (prepareSecureUDPSession_prepares a reads) fun _ _ => rfl

theorem advance_reserves {t : SecureUDPTransport Salt Iv} (a : SendAnswers) (reads : Nat) :
    Advances aeadCounterLimit.toNat kdf entropy place reserved reads t.place
      (t.advance kdf entropy a reads) := by
  have below {n : UInt32} (open_ : ¬ n ≥ aeadCounterLimit) : n.toNat < aeadCounterLimit.toNat :=
    UInt32.lt_iff_toNat_lt.mp (UInt32.not_le.mp open_)
  refine reserve_reserves (fun _ => rfl) toNat_eq_max below toNat_eq_max
    (reconnect_opens t a.session reads) ?_
  rintro last nonce ⟨⟩
  refine ⟨below last, ?_⟩
  rw [reserved, deriveIVPrefix, toNat_succ (below last)]
  rfl

theorem send_sends (t : SecureUDPTransport Salt Iv) (a : SendAnswers) (reads : Nat) :
    Sends aeadCounterLimit.toNat kdf (drawn entropy) reads t.place
      ((t.send kdf entropy a reads).outcome.view place) :=
  Sent.after_sends (by decide) (advance_reserves a reads) fun _ _ room =>
    settle_settles (by decide) (by rw [place, toNat_succ room]; rfl)

end SecureUDPTransport

end Go

/-! ### .NET -/

namespace DotNet

/-- The answers to `Reconnect`, without the salt. -/
structure SessionAnswers where
  buildConnected : Except NetException Unit
  hkdf : Except NetException Unit

structure SendAnswers where
  session : SessionAnswers
  hkdf : Except NetException Unit
  encode : Except NetException Unit
  sendWire : Except NetException Nat

structure SecureUdpTransport (Salt Iv : Type) where
  mode : SecureMode
  sessionSalt : Salt
  ivPrefix : Iv
  prefixIndex : UInt32
  counter : UInt32

/-- The locals of `Send`. -/
structure Pending (Iv : Type) extends PendingNonce UInt32 Iv where
  rotated : Bool

namespace SecureUdpTransport

def place (t : SecureUdpTransport Salt Iv) : Place Salt Iv :=
  ⟨t.sessionSalt, t.prefixIndex.toNat, t.ivPrefix, t.counter.toNat⟩

def reserved (t : SecureUdpTransport Salt Iv) (pending : Pending Iv) : Place Salt Iv :=
  ⟨t.sessionSalt, pending.prefixIndex.toNat, pending.ivPrefix, pending.counter.toNat⟩

variable (kdf : Salt → Nat → Iv) (entropy : Nat → Except NetException Salt)

def deriveIvPrefix (hkdf : Except NetException Unit) (salt : Salt) (prefixIndex : UInt32) :
    Except NetException Iv :=
  hkdf.map fun _ => kdf salt prefixIndex.toNat

/-- The new state of `Reconnect`, and of the constructor. -/
def prepareSession (a : SessionAnswers) (reads : Nat) : Except NetException (Salt × Iv) × Nat :=
  match a.buildConnected with
  | .error e => (.error e, reads)
  | .ok () =>
    match entropy reads with
    | .error e => (.error e, reads + 1)
    | .ok salt => ((deriveIvPrefix kdf a.hkdf salt 0).map (salt, ·), reads + 1)

/-- The constructor, with a key of the right length. -/
def new (mode : SecureMode) (isSupported : Bool) (a : SessionAnswers) (reads : Nat) :
    Except NetException (SecureUdpTransport Salt Iv) × Nat :=
  if ¬ isSupported then (.error (.other "PlatformNotSupportedException"), reads)
  else (prepareSession kdf entropy a reads).map
    (fun session => session.map fun (salt, ivPrefix) => ⟨mode, salt, ivPrefix, 0, 0⟩) id

def reconnect (t : SecureUdpTransport Salt Iv) (a : SessionAnswers) (reads : Nat) :
    Reconnected NetException (SecureUdpTransport Salt Iv) :=
  .commit (prepareSession kdf entropy a reads) t fun salt ivPrefix =>
    { t with sessionSalt := salt, ivPrefix, prefixIndex := 0, counter := 0 }

/-- The locals of `Send`, up to the encoding. -/
def advance (t : SecureUdpTransport Salt Iv) (a : SendAnswers) (reads : Nat) :
    Except NetException (Pending Iv) × SecureUdpTransport Salt Iv × Nat :=
  reserve (t.counter = u32Max) (t.prefixIndex = u32Max) (t.reconnect kdf entropy a.session reads)
    ((deriveIvPrefix kdf a.hkdf t.sessionSalt (t.prefixIndex + 1)).map
      fun ivPrefix => ⟨⟨t.prefixIndex + 1, 0, ivPrefix⟩, true⟩)
    (fun t => ⟨{ t with }, false⟩) t reads

/-- The rest of `Send`: prefix and index are written only after a rotation. -/
def transmit (a : SendAnswers) (t : SecureUdpTransport Salt Iv) (pending : Pending Iv) :
    Except NetException Nat × SecureUdpTransport Salt Iv :=
  let committed :=
    if pending.rotated then
      { t with ivPrefix := pending.ivPrefix, prefixIndex := pending.prefixIndex }
    else t
  settle a.encode a.sendWire t.mode (.ok 0) t { committed with counter := pending.counter + 1 }

def send (t : SecureUdpTransport Salt Iv) (a : SendAnswers) (reads : Nat) :
    Sent NetException (SecureUdpTransport Salt Iv) Salt Iv :=
  .after (t.advance kdf entropy a reads) (transmit a) (fun _ => written a.encode a.sendWire) mode
    reserved

/-! What a call does. -/

variable {kdf entropy}

theorem prepareSession_prepares (a : SessionAnswers) (reads : Nat) :
    Prepares kdf entropy reads (prepareSession kdf entropy a reads) := by
  unfold prepareSession
  cases a.buildConnected with
  | error e => exact .failed (Nat.le_refl _)
  | ok _ =>
    cases read : entropy reads with
    | error e => exact .failed (Nat.le_succ _)
    | ok salt => exact .derived read a.hkdf

variable (t : SecureUdpTransport Salt Iv)

theorem reconnect_opens (a : SessionAnswers) (reads : Nat) :
    Opens kdf (drawn entropy) reads t.place
      ((Reconnected.outcome (t.reconnect kdf entropy a reads)).view place) :=
  Reconnected.commit_opens (prepareSession_prepares a reads) fun _ _ => rfl

/-- Without a rotation the pending prefix is the one that is there. -/
def Agrees (t : SecureUdpTransport Salt Iv) (pending : Pending Iv) : Prop :=
  pending.rotated = false → pending.prefixIndex = t.prefixIndex ∧ pending.ivPrefix = t.ivPrefix

theorem advance_agrees {t : SecureUdpTransport Salt Iv} {a : SendAnswers} {reads : Nat}
    {pending : Pending Iv} (done : (t.advance kdf entropy a reads).1 = .ok pending) :
    (t.advance kdf entropy a reads).2.1.Agrees pending := by
  unfold advance reserve at done ⊢
  by_cases spent : t.counter = u32Max
  · rw [if_pos spent] at done ⊢
    by_cases last : t.prefixIndex = u32Max
    · rw [if_pos last] at done ⊢
      generalize t.reconnect kdf entropy a.session reads = r at done ⊢
      obtain ⟨result, t', reads'⟩ := r
      cases result with
      | error e => cases done
      | ok _ =>
        cases done
        exact fun _ => ⟨rfl, rfl⟩
    · rw [if_neg last] at done
      dsimp only [deriveIvPrefix] at done
      cases hkdf : a.hkdf with
      | error e =>
        rw [hkdf] at done
        cases done
      | ok _ =>
        -- after a rotation there is nothing to agree on
        rw [hkdf] at done
        cases done
        exact fun unrotated => Bool.noConfusion unrotated
  · rw [if_neg spent] at done ⊢
    cases done
    exact fun _ => ⟨rfl, rfl⟩

theorem advance_reserves (a : SendAnswers) (reads : Nat) :
    Advances u32Max.toNat kdf entropy place reserved reads t.place
      (t.advance kdf entropy a reads) := by
  refine reserve_reserves (fun _ => rfl) (congrArg UInt32.toNat) toNat_lt_max
    (congrArg UInt32.toNat) (reconnect_opens t a.session reads) ?_
  intro last pending derived
  have room : t.prefixIndex.toNat < u32Max.toNat := toNat_lt_max last
  unfold deriveIvPrefix at derived
  cases hkdf : a.hkdf with
  | error e =>
    rw [hkdf] at derived
    cases derived
  | ok _ =>
    rw [hkdf] at derived
    cases derived
    refine ⟨room, ?_⟩
    rw [reserved, toNat_succ room]
    rfl

theorem transmit_settles {t : SecureUdpTransport Salt Iv} {pending : Pending Iv}
    (agrees : t.Agrees pending) (room : pending.counter.toNat < u32Max.toNat) (a : SendAnswers) :
    Settles place t.mode.wireBytes (t.reserved pending) t (written a.encode a.sendWire)
      (transmit a t pending) := by
  refine settle_settles (by decide) ?_
  rw [place, toNat_succ room]
  cases rotated : pending.rotated with
  | true => rfl
  | false =>
    obtain ⟨index, iv⟩ := agrees rotated
    rw [reserved, index, iv]
    rfl

theorem send_sends (a : SendAnswers) (reads : Nat) :
    Sends u32Max.toNat kdf (drawn entropy) reads t.place
      ((t.send kdf entropy a reads).outcome.view place) :=
  Sent.after_sends (by decide) (advance_reserves t a reads) fun _ done room =>
    transmit_settles (advance_agrees done) room a

end SecureUdpTransport

end DotNet

end Varta.Ports
