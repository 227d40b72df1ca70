import Varta.Ports.Java
import Varta.Ports.SecureUdp

/-!
# The secure sender of Java

`SecureUdpTransport.java` with the parts of `AeadCodec.java` and `Hkdf.java` that a send goes
through. Index and counter are signed, and end at `Integer.MAX_VALUE`. A provider that fails inside
a send leaves it as an unchecked exception, and one that fails while a session is prepared as an
`IOException`.
-/
namespace Varta.Ports.Java

open SessionNonces

variable {Salt Iv : Type}

/-! ### The codec -/

/-- A checked exception of the cryptographic providers. -/
structure GeneralSecurityException where
  message : String
  deriving DecidableEq, Repr

namespace Hkdf

/-- `mac` is what the provider answers, and `okm` what it computes. -/
def hkdfSha256 {α : Type} (mac : Except GeneralSecurityException Unit) (okm : α) :
    Except Throwable α :=
  match mac with
  | .ok () => .ok okm
  | .error _ => .error (.unchecked "IllegalStateException" "HKDF-SHA256 unavailable; JDK is broken")

def deriveAgentKey (mac : Except GeneralSecurityException Unit) : Except Throwable Unit :=
  hkdfSha256 mac ()

/-- The index is written as its 32 bits. -/
def deriveIvPrefix (kdf : Salt → Nat → Iv) (mac : Except GeneralSecurityException Unit)
    (sessionSalt : Salt) (prefixIndex : Int32) : Except Throwable Iv :=
  hkdfSha256 mac (kdf sessionSalt prefixIndex.toUInt32.toNat)

end Hkdf

namespace AeadCodec

def aeadSeal (cipher : Except GeneralSecurityException Unit) : Except Throwable Unit :=
  match cipher with
  | .ok () => .ok ()
  | .error _ => .error (.unchecked "IllegalStateException" "ChaCha20-Poly1305 unavailable")

def encodeShared (cipher : Except GeneralSecurityException Unit) : Except Throwable Unit :=
  aeadSeal cipher

def encodeMaster (mac cipher : Except GeneralSecurityException Unit) : Except Throwable Unit := do
  Hkdf.deriveAgentKey mac
  aeadSeal cipher

end AeadCodec

/-! ### The transport -/

/-- The answers to `reconnect`, without the salt. -/
structure SessionAnswers where
  pid : Int32
  mac : Except GeneralSecurityException Unit
  innerReconnect : Except IOException Unit

structure SendAnswers where
  session : SessionAnswers
  /-- At the derivation of the next prefix. -/
  rotationMac : Except GeneralSecurityException Unit
  /-- At the derivation of the agent key. -/
  agentKeyMac : Except GeneralSecurityException Unit
  cipher : Except GeneralSecurityException Unit
  innerSend : Except IOException Nat

structure SecureUdpTransport (Salt Iv : Type) where
  mode : SecureMode
  sessionSalt : Salt
  ivPrefix : Iv
  prefixIndex : Int32
  counter : Int32
  agentPid : Int32

def entropyFailed : IOException :=
  ⟨.other, "IOException", some "could not read secure-session entropy",
    "could not read secure-session entropy", 0⟩

def writeZeroException : IOException := ⟨.other, "IOException", some "WriteZero", "writezero", 0⟩

namespace SecureUdpTransport

/-- Index and counter as the wire has them. -/
def place (t : SecureUdpTransport Salt Iv) : Place Salt Iv :=
  ⟨t.sessionSalt, t.prefixIndex.toUInt32.toNat, t.ivPrefix, t.counter.toUInt32.toNat⟩

def reserved (t : SecureUdpTransport Salt Iv) (nonce : PendingNonce Int32 Iv) : Place Salt Iv :=
  ⟨t.sessionSalt, nonce.prefixIndex.toUInt32.toNat, nonce.ivPrefix, nonce.counter.toUInt32.toNat⟩

variable (kdf : Salt → Nat → Iv) (entropy : Nat → Except Throwable Salt)

/-- `catch (Exception e)` takes what the source of entropy and the derivation throw. -/
def readFreshSessionMaterial (mac : Except GeneralSecurityException Unit) (reads : Nat) :
    Except Throwable (Salt × Iv) × Nat :=
  match entropy reads with
  | .error _ => (.error (.io entropyFailed), reads + 1)
  | .ok salt =>
    match Hkdf.deriveIvPrefix kdf mac salt 0 with
    | .error _ => (.error (.io entropyFailed), reads + 1)
    | .ok ivPrefix => (.ok (salt, ivPrefix), reads + 1)

/-- The constructor: the socket comes first, and `rotateSession` makes an unchecked exception of
what it is thrown. -/
def new (mode : SecureMode) (create : Except IOException Unit) (a : SessionAnswers) (reads : Nat) :
    Except Throwable (SecureUdpTransport Salt Iv) × Nat :=
  match create with
  | .error e => (.error (.io e), reads)
  | .ok () =>
    match readFreshSessionMaterial kdf entropy a.mac reads with
    | (.error _, reads) =>
      (.error (.unchecked "IllegalStateException" "could not initialise secure session"), reads)
    | (.ok (salt, ivPrefix), reads) => (.ok ⟨mode, salt, ivPrefix, 0, 0, a.pid⟩, reads)

/-- The material is read before the socket is replaced. -/
def prepareSession (a : SessionAnswers) (reads : Nat) : Except Throwable (Salt × Iv) × Nat :=
  match readFreshSessionMaterial kdf entropy a.mac reads with
  | (.error e, reads) => (.error e, reads)
  | (.ok material, reads) =>
    match a.innerReconnect with
    | .error e => (.error (.io e), reads)
    | .ok () => (.ok material, reads)

def reconnect (t : SecureUdpTransport Salt Iv) (a : SessionAnswers) (reads : Nat) :
    Reconnected Throwable (SecureUdpTransport Salt Iv) :=
  .commit (prepareSession kdf entropy a reads) t fun salt ivPrefix =>
    { t with sessionSalt := salt, ivPrefix, prefixIndex := 0, counter := 0, agentPid := a.pid }

/-- The locals of `send`, up to the encoding. -/
def advance (t : SecureUdpTransport Salt Iv) (a : SendAnswers) (reads : Nat) :
    Except Throwable (PendingNonce Int32 Iv) × SecureUdpTransport Salt Iv × Nat :=
  reserve (t.counter = Int32.maxValue) (t.prefixIndex = Int32.maxValue)
    (t.reconnect kdf entropy a.session reads)
    ((Hkdf.deriveIvPrefix kdf a.rotationMac t.sessionSalt (t.prefixIndex + 1)).map
      (⟨t.prefixIndex + 1, 0, ·⟩))
    (fun t => { t with }) t reads

def encode (t : SecureUdpTransport Salt Iv) (a : SendAnswers) : Except Throwable Unit :=
  match t.mode with
  | .shared => AeadCodec.encodeShared a.cipher
  | .master => AeadCodec.encodeMaster a.agentKeyMac a.cipher

/-- The rest of `send`. -/
def transmit (a : SendAnswers) (t : SecureUdpTransport Salt Iv) (nonce : PendingNonce Int32 Iv) :
    Except Throwable Nat × SecureUdpTransport Salt Iv :=
  match t.encode a with
  | .error e => (.error e, t)
  | .ok () =>
    match a.innerSend with
    | .error e => (.error (.io e), t)
    | .ok written =>
      if written = 0 then (.ok 0, t)
      else if written ≠ t.mode.wireBytes then (.error (.io writeZeroException), t)
      else (.ok 32, { t with
        prefixIndex := nonce.prefixIndex
        ivPrefix := nonce.ivPrefix
        counter := nonce.counter + 1 })

def send (t : SecureUdpTransport Salt Iv) (a : SendAnswers) (reads : Nat) :
    Sent Throwable (SecureUdpTransport Salt Iv) Salt Iv :=
  .after (t.advance kdf entropy a reads) (transmit a) (fun t => written (t.encode a) a.innerSend) mode
    reserved

/-! What a call does. -/

/-- The largest index and the largest counter. -/
def limit : Nat := 2 ^ 31 - 1

variable {t : SecureUdpTransport Salt Iv} {n : Int32}

theorem toNat_eq_limit (full : n = Int32.maxValue) : n.toUInt32.toNat = limit := by
  rw [full]
  decide

theorem toNat_lt_limit (bound : n.toUInt32.toNat ≤ limit) (room : n ≠ Int32.maxValue) :
    n.toUInt32.toNat < limit := by
  refine Nat.lt_of_le_of_ne bound fun full => room ?_
  have largest : Int32.maxValue.toUInt32.toNat = limit := by decide
  exact congrArg Int32.ofUInt32 (UInt32.toNat_inj.mp (full.trans largest.symm))

theorem toNat_succ (room : n.toUInt32.toNat < limit) :
    (n + 1).toUInt32.toNat = n.toUInt32.toNat + 1 := by
  have below : n.toUInt32.toNat < u32Max.toNat := Nat.lt_trans room (by decide)
  rw [Int32.toUInt32_add]
  exact Ports.toNat_succ below

variable {kdf entropy}

theorem readFreshSessionMaterial_prepares (mac : Except GeneralSecurityException Unit)
    (reads : Nat) :
    Prepares kdf entropy reads (readFreshSessionMaterial kdf entropy mac reads) := by
  unfold readFreshSessionMaterial
  cases read : entropy reads with
  | error e => exact .failed (Nat.le_succ _)
  | ok salt =>
    cases mac with
    | error e => exact .failed (Nat.le_succ _)
    | ok _ => exact .prepared (drawn_now read)

theorem new_created {mode : SecureMode} {create : Except IOException Unit} {a : SessionAnswers}
    {reads reads' : Nat} (created : new kdf entropy mode create a reads = (.ok t, reads')) :
    ∃ salt, DrawnBetween (drawn entropy) 0 reads' salt ∧ t.place = .first kdf salt := by
  unfold new at created
  cases create with
  | error e => cases created
  | ok _ =>
    have prepares : Prepares kdf entropy reads _ := readFreshSessionMaterial_prepares a.mac reads
    generalize readFreshSessionMaterial kdf entropy a.mac reads = r at prepares created
    cases prepares with
    | failed later => cases created
    | @prepared salt reads' new =>
      cases created
      exact ⟨salt, new.mono (Nat.zero_le _) (Nat.le_refl _), rfl⟩

theorem prepareSession_prepares (a : SessionAnswers) (reads : Nat) :
    Prepares kdf entropy reads (prepareSession kdf entropy a reads) := by
  unfold prepareSession
  have prepares : Prepares kdf entropy reads _ := readFreshSessionMaterial_prepares a.mac reads
  generalize readFreshSessionMaterial kdf entropy a.mac reads = r at prepares ⊢
  cases prepares with
  | failed later => exact .failed later
  | prepared new =>
    cases a.innerReconnect with
    | error e => exact .failed new.le
    | ok _ => exact .prepared new

theorem reconnect_opens (t : SecureUdpTransport Salt Iv) (a : SessionAnswers) (reads : Nat) :
    Opens kdf (drawn entropy) reads t.place
      ((Reconnected.outcome (t.reconnect kdf entropy a reads)).view place) :=
  Reconnected.commit_opens (prepareSession_prepares a reads) fun _ _ => rfl

theorem advance_reserves (placed : WellPlaced limit kdf t.place) (a : SendAnswers) (reads : Nat) :
    Advances limit kdf entropy place reserved reads t.place
      (t.advance kdf entropy a reads) := by
  refine reserve_reserves (fun _ => rfl) toNat_eq_limit (toNat_lt_limit placed.counter)
    toNat_eq_limit (reconnect_opens t a.session reads) ?_
  intro last nonce derived
  have room : t.prefixIndex.toUInt32.toNat < limit := toNat_lt_limit placed.index last
  unfold Hkdf.deriveIvPrefix Hkdf.hkdfSha256 at derived
  cases mac : a.rotationMac with
  | error e =>
    rw [mac] at derived
    cases derived
  | ok _ =>
    rw [mac] at derived
    cases derived
    refine ⟨room, ?_⟩
    rw [reserved, toNat_succ room]
    rfl

theorem transmit_settles {nonce : PendingNonce Int32 Iv}
    (room : nonce.counter.toUInt32.toNat < limit) (a : SendAnswers) :
    Settles place t.mode.wireBytes (t.reserved nonce) t (written (t.encode a) a.innerSend)
      (transmit a t nonce) := by
  unfold transmit
  cases t.encode a with
  | error e => exact .failed (by simp [written]) (by simp [Except.toOption])
  | ok _ =>
    cases a.innerSend with
    | error e => exact .failed (by simp [written, Except.toOption]) (by simp [Except.toOption])
    | ok bytes =>
      dsimp only
      by_cases none : bytes = 0
      · rw [if_pos none, none]
        refine .failed (fun all => ?_) (by decide)
        cases mode : t.mode <;> rw [mode] at all <;> cases all
      · rw [if_neg none]
        by_cases whole : bytes = t.mode.wireBytes
        · rw [if_neg (not_not.mpr whole), whole]
          refine .committed ?_
          rw [place, toNat_succ room]
          rfl
        · rw [if_pos whole]
          exact .failed (fun all => whole (Option.some.inj all)) (by simp [Except.toOption])

theorem send_sends (placed : WellPlaced limit kdf t.place) (a : SendAnswers) (reads : Nat) :
    Sends limit kdf (drawn entropy) reads t.place
      ((t.send kdf entropy a reads).outcome.view place) :=
  Sent.after_sends (by decide) (advance_reserves placed a reads) fun _ _ room =>
    transmit_settles room a

end SecureUdpTransport

end Varta.Ports.Java
