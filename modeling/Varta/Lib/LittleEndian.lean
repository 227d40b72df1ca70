import Mathlib.Data.Nat.Bitwise
import Varta.Lib.Bytes

/-!
# Little-endian integers

Integers of a fixed number of bytes, the lowest byte first, and the bits of a byte string in
the order that goes with them.
-/
namespace Bytes

def toLe : Nat → Nat → Bytes
  | 0, _ => []
  | width + 1, n => UInt8.ofNat n :: toLe width (n / 2 ^ 8)

def fromLe : Bytes → Nat
  | [] => 0
  | b :: bytes => 2 ^ 8 * fromLe bytes + b.toNat

@[simp] theorem length_toLe (width n : Nat) : (toLe width n).length = width := by
  induction width generalizing n with
  | zero => rfl
  | succ width ih => rw [toLe, List.length_cons, ih]

theorem fromLe_lt (bytes : Bytes) : fromLe bytes < 2 ^ (8 * bytes.length) := by
  induction bytes with
  | nil => exact Nat.one_pos
  | cons b bytes ih =>
    have small := b.toNat_lt
    rw [fromLe, List.length_cons, Nat.mul_succ, Nat.pow_add]
    omega

theorem toLe_fromLe (bytes : Bytes) : toLe bytes.length (fromLe bytes) = bytes := by
  induction bytes with
  | nil => rfl
  | cons b bytes ih =>
    have small : b.toNat < 2 ^ 8 := b.toNat_lt
    have low : UInt8.ofNat (2 ^ 8 * fromLe bytes + b.toNat) = b := by
      apply UInt8.toNat_inj.mp
      rw [UInt8.toNat_ofNat']
      omega
    have high : (2 ^ 8 * fromLe bytes + b.toNat) / 2 ^ 8 = fromLe bytes := by omega
    rw [fromLe, List.length_cons, toLe, low, high, ih]

theorem fromLe_toLe {width n : Nat} (fits : n < 2 ^ (8 * width)) : fromLe (toLe width n) = n := by
  induction width generalizing n with
  | zero =>
    rw [Nat.mul_zero, Nat.pow_zero, Nat.lt_one_iff] at fits
    rw [fits]
    rfl
  | succ width ih =>
    rw [Nat.mul_succ, Nat.pow_add] at fits
    have rest : n / 2 ^ 8 < 2 ^ (8 * width) := Nat.div_lt_of_lt_mul (by rwa [Nat.mul_comm])
    rw [toLe, fromLe, ih rest, UInt8.toNat_ofNat']
    exact Nat.div_add_mod n (2 ^ 8)

/-- The bits of the bytes, the lowest bit of each byte first. -/
def bits (bytes : Bytes) : List Bool := bytes.flatMap fun b => (List.range 8).map b.toNat.testBit

@[simp] theorem bits_nil : bits [] = [] := rfl

@[simp] theorem bits_cons (b : UInt8) (bytes : Bytes) :
    bits (b :: bytes) = (List.range 8).map b.toNat.testBit ++ bits bytes := rfl

theorem bits_append (first second : Bytes) : bits (first ++ second) = bits first ++ bits second :=
  List.flatMap_append

@[simp] theorem length_bits (bytes : Bytes) : (bits bytes).length = 8 * bytes.length := by
  induction bytes with
  | nil => rfl
  | cons b bytes ih =>
    rw [bits_cons, List.length_append, ih, List.length_map, List.length_range, List.length_cons]
    omega

/-- The bits are those of the integer. -/
theorem testBit_fromLe (bytes : Bytes) (i : Nat) :
    (fromLe bytes).testBit i = (bits bytes)[i]?.getD false := by
  induction bytes generalizing i with
  | nil => simp [fromLe]
  | cons b bytes ih =>
    have small : b.toNat < 2 ^ 8 := b.toNat_lt
    rw [fromLe, Nat.testBit_two_pow_mul_add _ small, bits_cons]
    split
    next low =>
      rw [List.getElem?_append_left (by simpa using low)]
      simp [low]
    next high =>
      rw [List.getElem?_append_right (by simpa using high), ih]
      simp

/-- Bytes without a one are zeros. -/
theorem eq_toLe_zero {bytes : Bytes} (quiet : true ∉ bits bytes) : bytes = toLe bytes.length 0 := by
  have none : fromLe bytes = 0 := by
    refine Nat.eq_of_testBit_eq fun i => ?_
    rw [testBit_fromLe, Nat.zero_testBit]
    cases here : (bits bytes)[i]? with
    | none => rfl
    | some b =>
      cases b with
      | false => rfl
      | true => exact absurd (List.mem_of_getElem? here) quiet
  rw [← none, toLe_fromLe]

/-- Flipping bytes flips their bits. -/
theorem bits_xor {xs ys : Bytes} (same : xs.length = ys.length) :
    bits (List.zipWith (· ^^^ ·) xs ys) = List.zipWith Bool.xor (bits xs) (bits ys) := by
  induction xs generalizing ys with
  | nil => rfl
  | cons x xs ih =>
    obtain ⟨y, ys, rfl⟩ := List.exists_cons_of_length_eq_add_one same.symm
    rw [List.zipWith_cons_cons, bits_cons, bits_cons, bits_cons, ih (Nat.succ.inj same),
      List.zipWith_append (by simp)]
    congr 1
    rw [List.zipWith_map, List.zipWith_self]
    simp [UInt8.toNat_xor, Nat.testBit_xor]

end Bytes
