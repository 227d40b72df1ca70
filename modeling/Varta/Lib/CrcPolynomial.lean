import Mathlib
import Varta.Lib.Crc

/-!
# The register as a remainder

What a reflected register holds is a polynomial over two elements, the highest power at the low
end. A shift multiplies it by `X` modulo the generator, so that the register after a message is
the remainder of the message, `w` places up, with what the register started with on top.
-/
namespace Crc

open Polynomial

variable {w : Nat}

/-- The contents of a reflected register. -/
noncomputable def toPoly (c : BitVec w) : (ZMod 2)[X] :=
  ∑ i ∈ Finset.range w, if c.getMsbD i then X ^ i else 0

/-- The message, its first bit at the highest power. -/
noncomputable def message : List Bool → (ZMod 2)[X]
  | [] => 0
  | b :: bits => (if b then X ^ bits.length else 0) + message bits

/-- The register's polynomial with the power that it leaves out. -/
noncomputable def generator (poly : BitVec w) : (ZMod 2)[X] := X ^ w + toPoly poly

theorem coeff_toPoly (c : BitVec w) (i : Nat) :
    (toPoly c).coeff i = if c.getMsbD i then 1 else 0 := by
  have term (j : Nat) : (if c.getMsbD j then X ^ j else 0 : (ZMod 2)[X]).coeff i =
      if i = j then (if c.getMsbD j then 1 else 0) else 0 := by
    cases c.getMsbD j <;> simp [coeff_X_pow]
  rw [toPoly, finsetSum_coeff, Finset.sum_congr rfl fun j _ => term j, Finset.sum_ite_eq]
  split
  · rfl
  next outside =>
    have beyond : c.getMsbD i = false := by
      simp only [Finset.mem_range] at outside
      simp [BitVec.getMsbD, outside]
    simp [beyond]

theorem toPoly_xor (a b : BitVec w) : toPoly (a ^^^ b) = toPoly a + toPoly b := by
  ext i
  rw [coeff_add, coeff_toPoly, coeff_toPoly, coeff_toPoly, BitVec.getMsbD_xor]
  cases a.getMsbD i <;> cases b.getMsbD i <;> decide

theorem degree_toPoly_lt (c : BitVec w) : (toPoly c).degree < w := by
  refine (degree_lt_iff_coeff_zero _ _).mpr fun i beyond => ?_
  simp [coeff_toPoly, BitVec.getMsbD, Nat.not_lt.mpr beyond]

theorem generator_monic (poly : BitVec w) : (generator poly).Monic :=
  monic_X_pow_add (degree_toPoly_lt poly)

theorem toPoly_bit (positive : 0 < w) (b : Bool) :
    X * toPoly (bit b : BitVec w) = if b then X ^ w else 0 := by
  ext i
  cases b with
  | false => cases i <;> simp [coeff_toPoly]
  | true =>
    cases i with
    | zero => simp [coeff_X_pow, Nat.ne_of_lt positive]
    | succ i =>
      have low : (1#w).getMsbD i = decide (i + 1 = w) := by
        simp only [BitVec.getMsbD, BitVec.getLsbD_one]
        grind
      simp [coeff_toPoly, coeff_X_pow, low]

theorem toPoly_ushiftRight (c : BitVec w) :
    toPoly (c >>> 1) + (if c.getLsbD 0 then X ^ w else 0) = X * toPoly c := by
  ext i
  have top : (if c.getLsbD 0 then X ^ w else 0 : (ZMod 2)[X]).coeff i =
      if c.getLsbD 0 ∧ i = w then 1 else 0 := by
    cases c.getLsbD 0 <;> simp [coeff_X_pow]
  rw [coeff_add, coeff_toPoly, top, BitVec.getMsbD_ushiftRight]
  cases i with
  | zero =>
    have none : ¬ (c.getLsbD 0 ∧ 0 = w) := by
      rintro ⟨low, rfl⟩
      simp at low
    simp [none]
  | succ i =>
    rw [coeff_X_mul, coeff_toPoly]
    rcases Nat.lt_trichotomy (i + 1) w with inside | last | beyond
    · simp [inside, Nat.ne_of_lt inside]
    · have low : c.getMsbD i = c.getLsbD 0 := by
        simp [BitVec.getMsbD, ← last]
      simp [last, low]
    · simp [BitVec.getMsbD, Nat.not_lt.mpr (Nat.le_of_lt beyond), Nat.ne_of_gt beyond,
        Nat.not_lt.mpr (Nat.le_of_lt_succ beyond)]

/-- A shift is a multiplication by `X`, less the generator when a power falls out. -/
theorem toPoly_shift (poly c : BitVec w) : toPoly (shift poly c) +
    (if c.getLsbD 0 then generator poly else 0) = X * toPoly c := by
  rw [← toPoly_ushiftRight, shift]
  split
  · -- the polynomial is added twice
    rw [toPoly_xor, generator, add_comm (X ^ w), add_assoc, ← add_assoc (toPoly poly),
      CharTwo.add_self_eq_zero, zero_add]
  · rfl

theorem generator_dvd_feed (positive : 0 < w) (poly c : BitVec w) (b : Bool) :
    generator poly ∣ toPoly (feed poly c b) - (X * toPoly c + if b then X ^ w else 0) := by
  have shifted := toPoly_shift poly (c ^^^ bit b)
  rw [toPoly_xor, mul_add, toPoly_bit positive] at shifted
  rw [feed, ← shifted, sub_add_cancel_left, dvd_neg]
  split
  · exact dvd_refl _
  · exact dvd_zero _

theorem generator_dvd_remainder (positive : 0 < w) (poly c : BitVec w) (bits : List Bool) :
    generator poly ∣ toPoly (remainder poly c bits) -
      (X ^ w * message bits + X ^ bits.length * toPoly c) := by
  induction bits generalizing c with
  | nil => simp [message]
  | cons b bits ih =>
    have fed := (generator_dvd_feed positive poly c b).mul_left (X ^ bits.length)
    have sum := dvd_add (ih (feed poly c b)) fed
    convert sum using 1
    rw [remainder_cons, message, List.length_cons]
    split <;> ring

/-- After a message the register holds its remainder. -/
theorem toPoly_remainder (positive : 0 < w) (poly c : BitVec w) (bits : List Bool) :
    toPoly (remainder poly c bits) =
      (X ^ w * message bits + X ^ bits.length * toPoly c) %ₘ generator poly := by
  have monic := generator_monic poly
  have degree : (generator poly).degree = w := by
    rw [generator, degree_add_eq_left_of_degree_lt] <;> rw [degree_X_pow]
    exact degree_toPoly_lt poly
  rw [← modByMonic_eq_of_dvd_sub monic (generator_dvd_remainder positive poly c bits),
    (modByMonic_eq_self_iff monic).mpr (degree ▸ degree_toPoly_lt _)]

/-! ### Parity -/

theorem eval_message (bits : List Bool) : (message bits).eval 1 = bits.count true := by
  induction bits with
  | nil => simp [message]
  | cons b bits ih => cases b <;> simp [message, ih, add_comm]

/-- A generator with the root one sees every odd number of flipped bits. -/
theorem remainder_odd_ne_zero (positive : 0 < w) {poly : BitVec w}
    (root : (generator poly).IsRoot 1) {bits : List Bool} (flips : bits.count true % 2 = 1) :
    remainder poly 0#w bits ≠ 0#w := by
  intro gone
  have empty : toPoly (0#w) = 0 := by simp [toPoly]
  have divided := generator_dvd_remainder positive poly 0#w bits
  rw [gone, empty, mul_zero, add_zero, zero_sub, dvd_neg] at divided
  have shared := root.dvd divided
  rw [IsRoot, eval_mul, eval_pow, eval_X, one_pow, one_mul, eval_message,
    ZMod.natCast_eq_zero_iff_even] at shared
  exact absurd shared (Nat.not_even_iff.mpr flips)

/-- Up to five flipped bits are seen. -/
theorem remainder_flips_ne_zero (positive : 0 < w) {poly : BitVec w} (top : poly.msb = true)
    (root : (generator poly).IsRoot 1) {bits : List Bool} (separated : Separated poly bits.length)
    (hit : true ∈ bits) (few : bits.count true ≤ 5) : remainder poly 0#w bits ≠ 0#w := by
  have some := List.count_pos_iff.mpr hit
  -- an odd number of flips shows in the parity; two or four have to be told apart
  have flips : bits.count true % 2 = 1 ∨ bits.count true = 2 ∨ bits.count true = 4 := by omega
  exact flips.elim (remainder_odd_ne_zero positive root) (remainder_even_ne_zero top separated)

end Crc
