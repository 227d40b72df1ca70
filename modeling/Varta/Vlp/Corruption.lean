import Varta.Lib.CrcPolynomial
import Varta.Vlp.Codec

/-!
# Corrupted frames

What the checksum of a frame detects: any five flipped bits, and any burst of 32 bits, in the
fields or in the checksum itself. Bits are counted from the lowest of the first byte on.
-/
namespace Varta.Vlp

open Polynomial

namespace Bytes32

/-- The buffer with the bits of `e` flipped. -/
def xor (b e : Bytes32) : Bytes32 :=
  ⟨List.zipWith (· ^^^ ·) b.bytes e.bytes, by
    rw [List.length_zipWith, b.length_eq, e.length_eq, Nat.min_self]⟩

/-- How many bits are set. -/
def flips (e : Bytes32) : Nat := e.bytes.bits.count true

/-- No bit is set outside of 32 consecutive ones. -/
def Burst (e : Bytes32) : Prop :=
  ∃ start, ∀ i, e.bytes.bits[i]? = some true → start ≤ i ∧ i < start + 32

theorem true_mem_bits {e : Bytes32} (nonzero : e ≠ zero) : true ∈ e.bytes.bits := by
  by_contra quiet
  refine nonzero (Bytes32.ext ?_)
  rw [Bytes.eq_toLe_zero quiet, e.length_eq]
  decide

end Bytes32

namespace WireFrame

/-- The whole buffer of an accepted frame leaves the residue. -/
theorem remainder_of_decode {b : Bytes32} {f : WireFrame} (accepted : decode b = .ok f) :
    Crc.remainder Crc32c.poly (BitVec.allOnes 32) b.bytes.bits = Crc32c.residue := by
  have crc := (decode_eq_ok_iff.mp accepted).1.crc
  have four : (b.slice 28 32).length = 4 := length_slice b (by decide) (by decide)
  have bound := Bytes.fromLe_lt (b.slice 28 32)
  rw [four] at bound
  rw [← slice_all b, ← slice_append b (show 0 ≤ 28 by decide) (show 28 ≤ 32 by decide),
    Crc32c.remainder_eq_residue_iff _ _ four, ← crc, UInt32.toNat_ofNat_of_lt' bound]

/-- No two and no four bits of a frame cancel in the register. -/
theorem separated : Crc.Separated Crc32c.poly 256 :=
  Crc.separated_of_separates (m := 16685) (k := 16623) (by decide) (by decide +kernel)

/-- The generator has an even number of powers. -/
theorem generator_root : (Crc.generator Crc32c.poly).IsRoot 1 := by
  simp only [Crc.generator, Crc.toPoly, IsRoot, eval_add, eval_finsetSum,
    apply_ite (eval (1 : ZMod 2)), eval_pow, eval_X, eval_zero, one_pow]
  decide

theorem remainder_ne_zero {e : Bytes32} (nonzero : e ≠ Bytes32.zero)
    (pattern : e.flips ≤ 5 ∨ e.Burst) : Crc.remainder Crc32c.poly 0#32 e.bytes.bits ≠ 0#32 := by
  have hit := Bytes32.true_mem_bits nonzero
  rcases pattern with few | ⟨start, within⟩
  · have length : e.bytes.bits.length = 256 := by rw [Bytes.length_bits, e.length_eq]
    refine Crc.remainder_flips_ne_zero (by decide) Crc32c.poly_top generator_root ?_ hit few
    rw [length]
    exact separated
  · obtain ⟨before, burst, after, parts, quiet, inner, short⟩ := Crc.exists_burst hit within
    rw [parts]
    exact Crc.remainder_burst_ne_zero Crc32c.poly_top quiet inner short

/-- A frame with up to five flipped bits, or with flipped bits in 32 consecutive places only, is
rejected. -/
theorem corrupted_rejected {b e : Bytes32} {f : WireFrame} (accepted : decode b = .ok f)
    (nonzero : e ≠ Bytes32.zero) (pattern : e.flips ≤ 5 ∨ e.Burst) :
    ∃ err, decode (b.xor e) = .error err := by
  cases corrupted : decode (b.xor e) with
  | error err => exact ⟨err, rfl⟩
  | ok g =>
    have same : b.bytes.length = e.bytes.length := b.length_eq.trans e.length_eq.symm
    -- both buffers leave the residue, so that the error is invisible to the register
    have unseen := (remainder_of_decode corrupted).trans (remainder_of_decode accepted).symm
    rw [Bytes32.xor, Bytes.bits_xor same] at unseen
    refine absurd (Crc.remainder_error _ _ ?_ unseen) (remainder_ne_zero nonzero pattern)
    rw [Bytes.length_bits, Bytes.length_bits, same]

/-- The lowest bit of the pid. -/
def pidFlip : Bytes32 := ⟨Bytes.toLe 32 (2 ^ 32), Bytes.length_toLe ..⟩

theorem corrupted_rejected_pidFlip :
    pidFlip.flips = 1 ∧ ∃ err, decode (firstBeat.encode.xor pidFlip) = .error err := by
  have one : pidFlip.flips = 1 := by decide +kernel
  refine ⟨one, corrupted_rejected (decode_eq_ok_iff_encode.mpr ⟨firstBeat_valid, rfl⟩) ?_ ?_⟩
  · decide +kernel
  · exact Or.inl (by rw [one]; decide)

end WireFrame

end Varta.Vlp
