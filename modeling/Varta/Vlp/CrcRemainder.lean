import Varta.Lib.CrcPolynomial
import Varta.Vlp.Crc32c

/-!
# CRC-32C as a remainder

The table of `crc32c.rs` holds the reflected Castagnoli polynomial. The checksum is the one that
takes the message bit by bit, and that is a remainder modulo the generator.
-/
namespace Varta.Vlp.Crc32c

open Polynomial

/-- The Castagnoli polynomial below its highest power, not reflected. -/
def castagnoli : BitVec 32 := 0x1EDC6F41

theorem poly_eq_reverse : poly = castagnoli.reverse := by decide +kernel

theorem generator_poly : Crc.generator poly =
    X ^ 32 + ∑ i ∈ Finset.range 32, if castagnoli.getLsbD i then X ^ i else 0 := by
  simp only [Crc.generator, Crc.toPoly, poly_eq_reverse, BitVec.getMsbD_reverse]

theorem toPoly_allOnes : Crc.toPoly (BitVec.allOnes 32) = ∑ i ∈ Finset.range 32, X ^ i := by
  refine Finset.sum_congr rfl fun i inside => ?_
  have set : (BitVec.allOnes 32).getMsbD i = true := by
    simp only [Finset.mem_range] at inside
    rw [BitVec.getMsbD, BitVec.getLsbD_allOnes, Bool.and_eq_true, decide_eq_true_iff,
      decide_eq_true_iff]
    omega
  rw [set, if_pos rfl]

/-- From the table or bit by bit, the checksum is the same, and its complement is the remainder
of the message behind 32 ones. -/
theorem compute_exact (bytes : Bytes) :
    (compute bytes).toBitVec =
        ~~~ Crc.remainder castagnoli.reverse (BitVec.allOnes 32) bytes.bits ∧
      Crc.toPoly (~~~ (compute bytes).toBitVec) =
        (X ^ 32 * Crc.message bytes.bits +
            X ^ bytes.bits.length * ∑ i ∈ Finset.range 32, X ^ i) %ₘ
          (X ^ 32 + ∑ i ∈ Finset.range 32, if castagnoli.getLsbD i then X ^ i else 0) := by
  have register : (compute bytes).toBitVec =
      ~~~ Crc.remainder poly (BitVec.allOnes 32) bytes.bits := by
    rw [compute, UInt32.toBitVec_not, toBitVec_foldl_crcUpdate]
    rfl
  refine ⟨poly_eq_reverse ▸ register, ?_⟩
  rw [register, BitVec.not_not, Crc.toPoly_remainder (by decide), generator_poly, toPoly_allOnes]

end Varta.Vlp.Crc32c
