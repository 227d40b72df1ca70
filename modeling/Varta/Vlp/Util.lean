import Varta.Lib.Bytes

/-! Hex encoding of 32-byte values, `varta-vlp/src/util.rs`. -/
namespace Varta.Vlp

/-- A `[u8; 32]`. -/
structure Bytes32 where
  bytes : Bytes
  length_eq : bytes.length = 32
  deriving DecidableEq, Repr

namespace Bytes32

def zero : Bytes32 := ⟨List.replicate 32 0, List.length_replicate⟩

instance : Inhabited Bytes32 := ⟨zero⟩

@[ext] theorem ext {a b : Bytes32} (same : a.bytes = b.bytes) : a = b := by
  cases a
  cases b
  cases same
  rfl

end Bytes32

inductive HexDecodeError where
  | invalidLength (n : Nat)
  | invalidCharacter (position : Nat) (byte : UInt8)
  deriving DecidableEq, Repr

def hexVal (b : UInt8) : Option UInt8 :=
  if 0x30 ≤ b ∧ b ≤ 0x39 then some (b - 0x30)
  else if 0x61 ≤ b ∧ b ≤ 0x66 then some (b - 0x61 + 10)
  else if 0x41 ≤ b ∧ b ≤ 0x46 then some (b - 0x41 + 10)
  else none

/-- The loop of `decode_hex_32` over `chunks_exact(2)`; `i` counts pairs. -/
def decodePairs : Nat → Bytes → Except HexDecodeError (Bytes)
  | i, hiChar :: loChar :: rest => do
    let hi ← (hexVal hiChar).elim (.error (.invalidCharacter (i * 2) hiChar)) .ok
    let lo ← (hexVal loChar).elim (.error (.invalidCharacter (i * 2 + 1) loChar)) .ok
    let out ← decodePairs (i + 1) rest
    return (hi <<< 4 ||| lo) :: out
  -- `chunks_exact` ignores an odd byte at the end
  | _, _ => .ok []

theorem decodePairs_length (i : Nat) (hex : Bytes) {out : Bytes}
    (decoded : decodePairs i hex = .ok out) : out.length = hex.length / 2 := by
  induction i, hex using decodePairs.induct generalizing out with
  | case1 i hiChar loChar rest ih =>
    simp only [decodePairs, bind, Except.bind, pure, Except.pure] at decoded
    split at decoded
    · cases decoded
    split at decoded
    · cases decoded
    split at decoded
    · cases decoded
    -- each pair makes one byte
    next tail later =>
      cases decoded
      simp only [List.length_cons, ih later]
      omega
  | case2 hex i short =>
    rcases hex with _ | ⟨a, _ | ⟨b, rest⟩⟩
    · cases decoded; rfl
    · cases decoded; simp
    · exact absurd rfl (short a b rest)

def decodeHex32 (hex : Bytes) : Except HexDecodeError Bytes32 :=
  if sized : hex.length = 64 then
    match decoded : decodePairs 0 hex with
    | .ok out => .ok ⟨out, by rw [decodePairs_length 0 hex decoded, sized]⟩
    | .error e => .error e
  else .error (.invalidLength hex.length)

/-- The table `b"0123456789abcdef"` at a nibble. -/
def hexDigit (nibble : UInt8) : UInt8 :=
  if nibble < 10 then 0x30 + nibble else 0x61 + (nibble - 10)

def encodePairs (bytes : Bytes) : Bytes :=
  bytes.flatMap fun b : UInt8 => [hexDigit (b >>> 4), hexDigit (b &&& 0x0F)]

def encodeHex32 (value : Bytes32) : Bytes := encodePairs value.bytes

@[simp] theorem encodePairs_cons (b : UInt8) (rest : Bytes) :
    encodePairs (b :: rest) = hexDigit (b >>> 4) :: hexDigit (b &&& 0x0F) :: encodePairs rest := by
  simp [encodePairs]

theorem encodePairs_length (bytes : Bytes) :
    (encodePairs bytes).length = 2 * bytes.length := by
  induction bytes with
  | nil => rfl
  | cons b rest ih => simp only [encodePairs_cons, List.length_cons, ih]; omega

@[simp] theorem encodeHex32_length (value : Bytes32) : (encodeHex32 value).length = 64 := by
  rw [encodeHex32, encodePairs_length, value.length_eq]

theorem hexVal_hexDigit (nibble : UInt8) (small : nibble < 16) :
    hexVal (hexDigit nibble) = some nibble :=
  Bytes.forall_of_fin (p := fun n => n < 16 → hexVal (hexDigit n) = some n) (by decide +kernel)
    nibble small

theorem nibbles (b : UInt8) : b >>> 4 < 16 ∧ b &&& 0x0F < 16 ∧
    (b >>> 4) <<< 4 ||| (b &&& 0x0F) = b :=
  Bytes.forall_of_fin (p := fun b => b >>> 4 < 16 ∧ b &&& 0x0F < 16 ∧
    (b >>> 4) <<< 4 ||| (b &&& 0x0F) = b) (by decide +kernel) b

theorem decodePairs_encodePairs (i : Nat) (bytes : Bytes) :
    decodePairs i (encodePairs bytes) = .ok bytes := by
  induction bytes generalizing i with
  | nil => rfl
  | cons b rest ih =>
    obtain ⟨high, low, whole⟩ := nibbles b
    rw [encodePairs_cons, decodePairs, hexVal_hexDigit _ high, hexVal_hexDigit _ low, ih]
    simp [Except.bind, bind, pure, Except.pure, whole]

/-- `decode_hex_32` inverts `encode_hex_32`. -/
theorem decodeHex32_encodeHex32 (value : Bytes32) :
    decodeHex32 (encodeHex32 value) = .ok value := by
  unfold decodeHex32
  rw [dif_pos (encodeHex32_length value)]
  split
  next out decoded =>
    rw [encodeHex32, decodePairs_encodePairs] at decoded
    cases decoded
    rfl
  next e failed =>
    rw [encodeHex32, decodePairs_encodePairs] at failed
    cases failed

/-- The encoder writes lowercase hex digits only. -/
theorem mem_encodeHex32 {value : Bytes32} {b : UInt8} (member : b ∈ encodeHex32 value) :
    (0x30 ≤ b ∧ b ≤ 0x39) ∨ (0x61 ≤ b ∧ b ≤ 0x66) := by
  have table : ∀ nibble : UInt8, nibble < 16 →
      (0x30 ≤ hexDigit nibble ∧ hexDigit nibble ≤ 0x39) ∨
        (0x61 ≤ hexDigit nibble ∧ hexDigit nibble ≤ 0x66) :=
    Bytes.forall_of_fin (by decide +kernel)
  rw [encodeHex32, encodePairs, List.mem_flatMap] at member
  obtain ⟨source, _, pair⟩ := member
  obtain ⟨high, low, _⟩ := nibbles source
  simp only [List.mem_cons, List.not_mem_nil, or_false] at pair
  rcases pair with rfl | rfl
  · exact table _ high
  · exact table _ low

end Varta.Vlp
