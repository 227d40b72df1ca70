import Mathlib.Algebra.Group.Int.Defs
import Mathlib.Algebra.Group.Nat.Defs
import Mathlib.Tactic.Common

/-!
# Machine integers

Natural numbers with the bounds and the saturating operations of fixed-width unsigned
integers, the same operations on words, and spans of time with theirs.
-/
namespace Machine

/-- One more than `u64::MAX`. -/
def u64Bound : Nat := 2 ^ 64

def u64SaturatingAdd (a b : Nat) : Nat := min (a + b) (u64Bound - 1)

def u64SaturatingMul (a b : Nat) : Nat := min (a * b) (u64Bound - 1)

def u32SaturatingAdd (a b : Nat) : Nat := min (a + b) (2 ^ 32 - 1)

theorem u64SaturatingAdd_lt (a b : Nat) : u64SaturatingAdd a b < u64Bound := by
  unfold u64SaturatingAdd u64Bound
  omega

theorem u64SaturatingAdd_gt {n : Nat} (room : u64SaturatingAdd n 1 < u64Bound - 1) :
    n < u64SaturatingAdd n 1 := by
  unfold u64SaturatingAdd at *
  omega

theorem le_u64SaturatingAdd {n : Nat} (bound : n < u64Bound) : n ≤ u64SaturatingAdd n 1 := by
  unfold u64SaturatingAdd
  omega

/-! ### Words -/

section Words

variable {w : Nat}

/-- A sum that stops at the largest value of the width. -/
def saturatingAdd (x delta : BitVec w) : BitVec w :=
  if x > BitVec.allOnes w - delta then BitVec.allOnes w else x + delta

/-- One more, unless all bits are set. -/
def saturatingIncrement (v : BitVec w) : BitVec w := if v = BitVec.allOnes w then v else v + 1#w

/-- One more, unless it is the largest signed value. -/
def saturatingInc (v : BitVec w) : BitVec w := if v = BitVec.intMax w then v else v + 1#w

theorem toNat_saturatingAdd (x delta : BitVec w) :
    (saturatingAdd x delta).toNat = min (x.toNat + delta.toNat) (2 ^ w - 1) := by
  have bound := x.isLt
  have small := delta.isLt
  have top : (BitVec.allOnes w - delta).toNat = 2 ^ w - 1 - delta.toNat := by
    rw [BitVec.toNat_sub_of_le, BitVec.toNat_allOnes]
    rw [BitVec.le_def, BitVec.toNat_allOnes]
    omega
  unfold saturatingAdd
  split
  next full =>
    rw [gt_iff_lt, BitVec.lt_def, top] at full
    rw [BitVec.toNat_allOnes]
    omega
  next room =>
    rw [gt_iff_lt, BitVec.lt_def, top] at room
    rw [BitVec.toNat_add_of_lt (by omega)]
    omega

theorem toNat_saturatingIncrement (v : BitVec w) :
    (saturatingIncrement v).toNat = min (v.toNat + 1) (2 ^ w - 1) := by
  have bound := v.isLt
  unfold saturatingIncrement
  split
  next full =>
    rw [full, BitVec.toNat_allOnes]
    omega
  next room =>
    have below : v.toNat ≠ 2 ^ w - 1 := by
      rw [← BitVec.toNat_allOnes]
      exact fun equal => room (BitVec.eq_of_toNat_eq equal)
    have one : (1#w).toNat = 1 := by
      rw [BitVec.toNat_ofNat, Nat.mod_eq_of_lt (by omega)]
    rw [BitVec.toNat_add_of_lt (by omega), one]
    omega

theorem toInt_saturatingInc (wide : 1 < w) (v : BitVec w) :
    (saturatingInc v).toInt = min (v.toInt + 1) (2 ^ (w - 1) - 1) := by
  have least := v.le_toInt
  have most := v.toInt_lt
  unfold saturatingInc
  split
  next full =>
    rw [full, BitVec.toInt_intMax]
    omega
  next room =>
    have below : v.toInt ≠ 2 ^ (w - 1) - 1 := by
      rw [← BitVec.toInt_intMax]
      exact fun equal => room (BitVec.eq_of_toInt_eq equal)
    have half : 2 ^ w = 2 ^ (w - 1) * 2 := (Nat.two_pow_pred_mul_two (by omega)).symm
    rw [BitVec.toInt_add, BitVec.toInt_one wide, half, Int.bmod_eq_of_le]
    all_goals push_cast
    all_goals omega

end Words

/-! ### Spans of time -/

/-- The longest span, in nanoseconds: `u64::MAX` seconds and 999999999 nanoseconds. -/
def durationMax : Nat := u64Bound * 10 ^ 9 - 1

structure Duration where
  nanos : Nat
  nanos_le : nanos ≤ durationMax

namespace Duration

/-- The span of so many nanoseconds, or the longest one. -/
def ofNanos (nanos : Nat) : Duration := ⟨min nanos durationMax, Nat.min_le_right ..⟩

def ofMillis (millis : Nat) : Duration := ofNanos (millis * 10 ^ 6)

def saturatingMul (d : Duration) (factor : Nat) : Duration := ofNanos (d.nanos * factor)

/-- The longer one of two spans. -/
def longer (d e : Duration) : Duration := if d.nanos ≤ e.nanos then e else d

theorem le_saturatingMul (d : Duration) {factor : Nat} (positive : 0 < factor) :
    d.nanos ≤ (d.saturatingMul factor).nanos :=
  Nat.le_min.mpr ⟨Nat.le_mul_of_pos_right _ positive, d.nanos_le⟩

end Duration

end Machine
