import Varta.Lib.Crc
import Varta.Lib.LittleEndian

/-!
# CRC-32C

`varta-vlp/src/crc32c.rs`: the table, and the checksum that takes a byte at a time from it. The
checksum is the reflected shift register of `Crc`, started with ones and inverted at the end.
-/
namespace Varta.Vlp.Crc32c

def polyReflected : UInt32 := 0x82F63B78

/-- The body of the inner loop of `build_table`. -/
def tableRound (c : UInt32) : UInt32 :=
  if c &&& 1 ≠ 0 then (c >>> 1) ^^^ polyReflected else c >>> 1

def buildTable : Vector UInt32 256 := Vector.ofFn fun i => tableRound^[8] (UInt32.ofNat i)

theorem low_lt (c : UInt32) : (c &&& 0xFF).toNat < 256 :=
  Nat.lt_of_le_of_lt (UInt32.toNat_and .. ▸ Nat.and_le_right) (by decide)

/-- The body of the loop of `compute`. -/
def crcUpdate (crc : UInt32) (byte : UInt8) : UInt32 :=
  let idx := ((crc ^^^ byte.toUInt32) &&& 0xFF).toNat
  have inside : idx < 256 := low_lt _
  buildTable[idx] ^^^ (crc >>> 8)

/-- `crc32c::compute`. -/
def compute (bytes : Bytes) : UInt32 := ~~~ bytes.foldl crcUpdate 0xFFFFFFFF

/-! ### The register -/

/-- The polynomial of the register. -/
def poly : BitVec 32 := polyReflected.toBitVec

theorem toBitVec_tableRound (c : UInt32) : (tableRound c).toBitVec = Crc.shift poly c.toBitVec := by
  have masked : (c &&& 1).toBitVec = BitVec.setWidth 32 (BitVec.ofBool (c.toBitVec.getLsbD 0)) :=
    BitVec.and_one_eq_setWidth_ofBool_getLsbD
  have low : c &&& 1 ≠ 0 ↔ c.toBitVec.getLsbD 0 = true := by
    rw [ne_eq, ← UInt32.toBitVec_inj, masked]
    cases c.toBitVec.getLsbD 0 <;> decide
  unfold tableRound Crc.shift
  simp only [low]
  split <;> rfl

theorem toBitVec_iterate_tableRound (n : Nat) (c : UInt32) :
    (tableRound^[n] c).toBitVec = (Crc.shift poly)^[n] c.toBitVec := by
  induction n generalizing c with
  | zero => rfl
  | succ n ih => rw [Function.iterate_succ_apply, ih, toBitVec_tableRound]; rfl

theorem word_bits {w : Nat} (bytes : Bytes) :
    (Crc.word bytes.bits : BitVec w) = BitVec.ofNat w bytes.fromLe := by
  refine BitVec.eq_of_getLsbD_eq fun i _ => ?_
  rw [Crc.getLsbD_word, BitVec.getLsbD_ofNat, Bytes.testBit_fromLe]

/-- A byte from the table is eight shifts. -/
theorem toBitVec_crcUpdate (crc : UInt32) (byte : UInt8) :
    (crcUpdate crc byte).toBitVec = Crc.remainder poly crc.toBitVec (Bytes.bits [byte]) := by
  have short : byte.toNat < 2 ^ 8 := byte.toNat_lt
  have added : (Crc.word (Bytes.bits [byte]) : BitVec 32) = byte.toUInt32.toBitVec := by
    rw [word_bits]
    apply BitVec.eq_of_toNat_eq
    simp [Bytes.fromLe]
  have length : (Bytes.bits [byte]).length = 8 := Bytes.length_bits [byte]
  have beyond : byte.toUInt32.toBitVec >>> 8 = 0#32 := by
    apply BitVec.eq_of_toNat_eq
    simp [Nat.shiftRight_eq_div_pow]
    omega
  rw [Crc.remainder_word _ (by rw [length]; decide), length, added, ← UInt32.toBitVec_xor,
    @Crc.iterate_shift_low _ _ _ _ ((crc ^^^ byte.toUInt32) &&& 0xFF).toBitVec,
    UInt32.toBitVec_xor crc, BitVec.ushiftRight_xor_distrib, beyond, BitVec.xor_zero]
  · rw [crcUpdate, UInt32.toBitVec_xor, buildTable, Vector.getElem_ofFn, UInt32.ofNat_toNat,
      toBitVec_iterate_tableRound]
    rfl
  · intro i inside
    have mask : ∀ i < 8, (0xFF : UInt32).toBitVec.getLsbD i = true := by decide
    rw [UInt32.toBitVec_and, BitVec.getLsbD_and, mask i inside, Bool.and_true]
  · apply BitVec.eq_of_toNat_eq
    have small := low_lt (crc ^^^ byte.toUInt32)
    rw [BitVec.toNat_ushiftRight, UInt32.toNat_toBitVec, Nat.shiftRight_eq_div_pow,
      Nat.div_eq_of_lt small]
    rfl

theorem toBitVec_foldl_crcUpdate (crc : UInt32) (bytes : Bytes) :
    (bytes.foldl crcUpdate crc).toBitVec = Crc.remainder poly crc.toBitVec bytes.bits := by
  induction bytes generalizing crc with
  | nil => rfl
  | cons byte bytes ih =>
    have parts : Bytes.bits (byte :: bytes) = Bytes.bits [byte] ++ Bytes.bits bytes :=
      Bytes.bits_append [byte] bytes
    rw [List.foldl_cons, ih, toBitVec_crcUpdate, parts, Crc.remainder_append]

theorem poly_top : poly.msb = true := by decide

/-- What the register holds after a message and the checksum that goes with it. -/
def residue : BitVec 32 := (Crc.shift poly)^[32] (BitVec.allOnes 32)

/-- The checksum behind its message leaves the residue, and no other word does. -/
theorem remainder_eq_residue_iff (bytes trailer : Bytes) (four : trailer.length = 4) :
    Crc.remainder poly (BitVec.allOnes 32) (bytes ++ trailer).bits = residue ↔
      trailer.fromLe = (compute bytes).toNat := by
  have length : trailer.bits.length = 32 := by rw [Bytes.length_bits, four]
  have small := Bytes.fromLe_lt trailer
  rw [four] at small
  have message := toBitVec_foldl_crcUpdate 0xFFFFFFFF bytes
  have inverted : ∀ a b : BitVec 32, a ^^^ b = BitVec.allOnes 32 ↔ b = ~~~ a := by
    intro a b
    rw [← BitVec.xor_allOnes]
    constructor
    · intro ones
      rw [← ones, ← BitVec.xor_assoc, BitVec.xor_self, BitVec.zero_xor]
    · rintro rfl
      rw [← BitVec.xor_assoc, BitVec.xor_self, BitVec.zero_xor]
  rw [Bytes.bits_append, Crc.remainder_append, Crc.remainder_word _ (Nat.le_of_eq length), length,
    residue, ((Crc.shift_injective poly_top).iterate 32).eq_iff, word_bits, inverted,
    show BitVec.allOnes 32 = (0xFFFFFFFF : UInt32).toBitVec by decide, ← message,
    ← BitVec.toNat_inj, BitVec.toNat_ofNat, Nat.mod_eq_of_lt small]
  rfl

/-- The reference vector of RFC 3720. -/
example : compute (Bytes.ofString "123456789") = 0xE3069283 := by decide +kernel

end Varta.Vlp.Crc32c
