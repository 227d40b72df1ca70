import Mathlib.Data.List.Basic
import Mathlib.Logic.Function.Iterate

/-!
# Cyclic redundancy checks

A reflected shift register of `w` bits. Each bit of the message is added to the low end of the
register, which is then shifted down; the polynomial is added when a one falls out. The
register is linear in its contents and in the message, so that an error goes unseen exactly
when it leaves an empty register empty.
-/
namespace Crc

/-! ### The register -/

variable {bits : List Bool} {k m n w : Nat} {c : BitVec w}

section

variable (poly : BitVec w)

def shift (c : BitVec w) : BitVec w := if c.getLsbD 0 then (c >>> 1) ^^^ poly else c >>> 1

/-- A bit at the low end. -/
def bit (b : Bool) : BitVec w := if b then 1#w else 0#w

def feed (c : BitVec w) (b : Bool) : BitVec w := shift poly (c ^^^ bit b)

/-- The register after a message. -/
def remainder (c : BitVec w) (bits : List Bool) : BitVec w := bits.foldl (feed poly) c

@[simp] theorem remainder_nil (c : BitVec w) : remainder poly c [] = c := rfl

@[simp] theorem remainder_cons (c : BitVec w) (b : Bool) (bits : List Bool) :
    remainder poly c (b :: bits) = remainder poly (feed poly c b) bits := rfl

theorem remainder_append (c : BitVec w) (first second : List Bool) :
    remainder poly c (first ++ second) = remainder poly (remainder poly c first) second :=
  List.foldl_append

@[simp] theorem bit_false : (bit false : BitVec w) = 0#w := rfl

@[simp] theorem bit_true : (bit true : BitVec w) = 1#w := rfl

/-! ### Linearity -/

theorem bit_xor (a b : Bool) : (bit (a ^^ b) : BitVec w) = bit a ^^^ bit b := by
  cases a <;> cases b <;> simp

theorem shift_xor (a b : BitVec w) : shift poly (a ^^^ b) = shift poly a ^^^ shift poly b := by
  unfold shift
  rw [BitVec.getLsbD_xor, BitVec.ushiftRight_xor_distrib]
  cases a.getLsbD 0 <;> cases b.getLsbD 0 <;>
    simp only [Bool.xor_false, Bool.xor_true, Bool.not_true, Bool.not_false, if_true,
      Bool.false_eq_true, if_false]
  · rw [BitVec.xor_assoc]
  · rw [BitVec.xor_assoc, BitVec.xor_assoc, BitVec.xor_comm poly]
  -- the polynomial is added twice
  · rw [BitVec.xor_assoc, BitVec.xor_comm _ poly, ← BitVec.xor_assoc poly poly, BitVec.xor_self,
      BitVec.zero_xor]

@[simp] theorem shift_zero : shift poly 0#w = 0#w := by simp [shift]

theorem iterate_shift_xor (n : Nat) (a b : BitVec w) :
    (shift poly)^[n] (a ^^^ b) = (shift poly)^[n] a ^^^ (shift poly)^[n] b := by
  induction n generalizing a b with
  | zero => rfl
  | succ n ih => rw [Function.iterate_succ_apply, shift_xor, ih]; rfl

@[simp] theorem iterate_shift_zero (n : Nat) : (shift poly)^[n] 0#w = 0#w :=
  Function.iterate_fixed (shift_zero poly) n

theorem feed_xor (c d : BitVec w) (a b : Bool) :
    feed poly (c ^^^ d) (a ^^ b) = feed poly c a ^^^ feed poly d b := by
  unfold feed
  rw [← shift_xor, bit_xor]
  congr 1
  ac_rfl

/-- The register of a sum is the sum of the registers. -/
theorem remainder_xor (c d : BitVec w) {xs ys : List Bool} (same : xs.length = ys.length) :
    remainder poly (c ^^^ d) (List.zipWith Bool.xor xs ys) =
      remainder poly c xs ^^^ remainder poly d ys := by
  induction xs generalizing c d ys with
  | nil =>
    obtain rfl := List.length_eq_zero_iff.mp same.symm
    rfl
  | cons x xs ih =>
    obtain ⟨y, ys, rfl⟩ := List.exists_cons_of_length_eq_add_one same.symm
    -- the first bits go into both registers, and the rest of both messages is as long
    rw [List.zipWith_cons_cons, remainder_cons, feed_xor, ih _ _ (Nat.succ.inj same)]
    rfl

/-- An error that the check does not see leaves the empty register empty. -/
theorem remainder_error (c : BitVec w) {xs es : List Bool} (same : xs.length = es.length)
    (unseen : remainder poly c (List.zipWith Bool.xor xs es) = remainder poly c xs) :
    remainder poly 0#w es = 0#w := by
  have sum := remainder_xor poly c 0#w same
  rw [BitVec.xor_zero, unseen] at sum
  have cancelled := congrArg (remainder poly c xs ^^^ ·) sum
  simp only [BitVec.xor_self, ← BitVec.xor_assoc, BitVec.zero_xor] at cancelled
  exact cancelled.symm

variable {poly}

/-- A register whose polynomial has its top bit set loses nothing. -/
theorem eq_zero_of_shift (top : poly.msb = true) (gone : shift poly c = 0#w) : c = 0#w := by
  unfold shift at gone
  split at gone
  next =>
    -- the shifted register has no top bit to cancel the polynomial's
    have same : c >>> 1 = poly := BitVec.xor_eq_zero_iff.mp gone
    rw [← same, BitVec.msb_ushiftRight] at top
    simp at top
  next low =>
    refine BitVec.eq_of_getLsbD_eq fun i inside => ?_
    rw [BitVec.getLsbD_zero]
    cases i with
    | zero => exact Bool.not_eq_true _ ▸ low
    | succ i =>
      have clear := congrArg (BitVec.getLsbD · i) gone
      simp only [BitVec.getLsbD_ushiftRight, BitVec.getLsbD_zero] at clear
      rw [Nat.add_comm]
      exact clear

theorem shift_injective (top : poly.msb = true) : Function.Injective (shift poly) := by
  intro a b same
  have gone : shift poly (a ^^^ b) = 0#w := by rw [shift_xor, same, BitVec.xor_self]
  exact BitVec.xor_eq_zero_iff.mp (eq_zero_of_shift top gone)

theorem iterate_shift_ne_zero (top : poly.msb = true) (n : Nat) (some : c ≠ 0#w) :
    (shift poly)^[n] c ≠ 0#w := by
  intro gone
  refine some (((shift_injective top).iterate n) ?_)
  rw [gone, iterate_shift_zero]

/-! ### Bursts -/

/-- The bits as one register, the first at the low end. -/
def word : List Bool → BitVec w
  | [] => 0#w
  | b :: bits => bit b ^^^ word bits <<< 1

theorem getLsbD_word (bits : List Bool) (i : Nat) :
    (word bits : BitVec w).getLsbD i = (decide (i < w) && bits[i]?.getD false) := by
  induction bits generalizing i with
  | nil => simp [word]
  | cons b bits ih =>
    rw [word, BitVec.getLsbD_xor, BitVec.getLsbD_shiftLeft]
    cases i with
    | zero => cases b <;> simp [bit]
    | succ i =>
      rw [Nat.add_sub_cancel, ih]
      have high : (bit b : BitVec w).getLsbD (i + 1) = false := by cases b <;> simp [bit]
      rw [high]
      by_cases inside : i + 1 < w
      · simp [inside, Nat.lt_of_succ_lt inside]
      · simp [inside]

/-- What was shifted up by one comes down without the polynomial. -/
theorem shift_word (short : bits.length < w) : shift poly (word bits <<< 1) = word bits := by
  have low : (word bits <<< 1 : BitVec w).getLsbD 0 = false := by simp
  rw [shift, low, if_neg Bool.false_ne_true]
  refine BitVec.eq_of_getLsbD_eq fun i inside => ?_
  rw [BitVec.getLsbD_ushiftRight, BitVec.getLsbD_shiftLeft, Nat.add_sub_cancel_left]
  by_cases room : 1 + i < w
  · simp [room]
  · -- the top bit is beyond the bits
    rw [getLsbD_word]
    have past : bits.length ≤ i := by omega
    simp [room, List.getElem?_eq_none past]

/-- A message that fits into the register is added to it as one word. -/
theorem remainder_word (c : BitVec w) (short : bits.length ≤ w) :
    remainder poly c bits = (shift poly)^[bits.length] (c ^^^ word bits) := by
  induction bits generalizing c with
  | nil => rw [word, BitVec.xor_zero]; rfl
  | cons b bits ih =>
    rw [remainder_cons, ih _ (Nat.le_of_succ_le short), List.length_cons,
      Function.iterate_succ_apply, word, ← BitVec.xor_assoc, shift_xor poly (c ^^^ bit b),
      shift_word short]
    rfl

/-- Where no one is in the low places, nothing falls out. -/
theorem iterate_shift_of_clear (clear : ∀ i < n, c.getLsbD i = false) :
    (shift poly)^[n] c = c >>> n := by
  induction n generalizing c with
  | zero => simp
  | succ n ih =>
    have down : shift poly c = c >>> 1 := by
      rw [shift, clear 0 (Nat.succ_pos n), if_neg Bool.false_ne_true]
    rw [Function.iterate_succ_apply, down, ih, ← BitVec.shiftRight_add, Nat.add_comm]
    intro i inside
    rw [BitVec.getLsbD_ushiftRight]
    exact clear (1 + i) (by omega)

/-- The low places of the register decide what is added to the rest: this is what a table of
`n` shifts holds. -/
theorem iterate_shift_low {low : BitVec w} (same : ∀ i < n, low.getLsbD i = c.getLsbD i)
    (small : low >>> n = 0#w) : (shift poly)^[n] c = (shift poly)^[n] low ^^^ c >>> n := by
  have high : ∀ i < n, (low ^^^ c).getLsbD i = false := by
    intro i inside
    rw [BitVec.getLsbD_xor, same i inside, Bool.xor_self]
  have parts : c = low ^^^ (low ^^^ c) := by
    rw [← BitVec.xor_assoc, BitVec.xor_self, BitVec.zero_xor]
  calc (shift poly)^[n] c
      = (shift poly)^[n] (low ^^^ (low ^^^ c)) := congrArg _ parts
    _ = (shift poly)^[n] low ^^^ (low ^^^ c) >>> n := by
        rw [iterate_shift_xor, iterate_shift_of_clear high]
    _ = (shift poly)^[n] low ^^^ c >>> n := by
        rw [BitVec.ushiftRight_xor_distrib, small, BitVec.zero_xor]

theorem remainder_quiet (c : BitVec w) (quiet : true ∉ bits) :
    remainder poly c bits = (shift poly)^[bits.length] c := by
  induction bits generalizing c with
  | nil => rfl
  | cons b bits ih =>
    rw [List.mem_cons, not_or] at quiet
    have off : b = false := by simpa using quiet.1
    rw [remainder_cons, ih _ quiet.2, feed, off, bit_false, BitVec.xor_zero]
    rfl

theorem word_ne_zero (short : bits.length ≤ w) (hit : true ∈ bits) :
    (word bits : BitVec w) ≠ 0#w := by
  intro none
  obtain ⟨i, inside, here⟩ := List.getElem_of_mem hit
  have clear := congrArg (BitVec.getLsbD · i) none
  simp only [getLsbD_word, BitVec.getLsbD_zero, List.getElem?_eq_getElem inside, here] at clear
  simp [Nat.lt_of_lt_of_le inside short] at clear

/-- A burst no longer than the register is seen. -/
theorem remainder_burst_ne_zero (top : poly.msb = true) {before burst after : List Bool}
    (quiet : true ∉ before ++ after) (hit : true ∈ burst) (short : burst.length ≤ w) :
    remainder poly 0#w (before ++ (burst ++ after)) ≠ 0#w := by
  rw [List.mem_append, not_or] at quiet
  -- the register is empty up to the burst, takes it as one word and is only shifted after it
  rw [remainder_append, remainder_append, remainder_quiet _ quiet.1, iterate_shift_zero,
    remainder_word _ short, BitVec.zero_xor, remainder_quiet _ quiet.2]
  exact iterate_shift_ne_zero top _ (iterate_shift_ne_zero top _ (word_ne_zero short hit))

/-- A message with ones in `n` consecutive places only. -/
theorem exists_burst {start : Nat} (hit : true ∈ bits)
    (within : ∀ i, bits[i]? = some true → start ≤ i ∧ i < start + n) :
    ∃ before burst after, bits = before ++ (burst ++ after) ∧ true ∉ before ++ after ∧
      true ∈ burst ∧ burst.length ≤ n := by
  have parts : bits = bits.take start ++ ((bits.drop start).take n ++ (bits.drop start).drop n) := by
    rw [List.take_append_drop, List.take_append_drop]
  have quiet : true ∉ bits.take start ++ (bits.drop start).drop n := by
    intro member
    rcases List.mem_append.mp member with early | late
    · obtain ⟨i, here⟩ := List.mem_iff_getElem?.mp early
      rw [List.getElem?_take] at here
      split at here
      next below => exact absurd (within i here).1 (Nat.not_le.mpr below)
      next => cases here
    · obtain ⟨i, here⟩ := List.mem_iff_getElem?.mp late
      rw [List.getElem?_drop, List.getElem?_drop] at here
      have bound := (within _ here).2
      omega
  refine ⟨_, _, _, parts, quiet, ?_, List.length_take_le ..⟩
  rw [parts, List.mem_append, List.mem_append] at hit
  rw [List.mem_append, not_or] at quiet
  rcases hit with early | inner | late
  · exact absurd early quiet.1
  · exact inner
  · exact absurd late quiet.2

/-! ### A few flipped bits -/

/-- How often each one of the message is shifted, the first one first. -/
def exponents : List Bool → List Nat
  | [] => []
  | b :: bits => if b then (bits.length + 1) :: exponents bits else exponents bits

variable (poly) in
/-- The sum of the powers of the shift. -/
def syndrome (exponents : List Nat) : BitVec w :=
  exponents.foldr (fun n sum => (shift poly)^[n] 1#w ^^^ sum) 0#w

theorem length_exponents (bits : List Bool) : (exponents bits).length = bits.count true := by
  induction bits with
  | nil => rfl
  | cons b bits ih => cases b <;> simp [exponents, ih]

theorem mem_exponents (member : n ∈ exponents bits) : 0 < n ∧ n ≤ bits.length := by
  induction bits with
  | nil => cases member
  | cons b bits ih =>
    rw [List.length_cons]
    cases b with
    | false =>
      have later := ih member
      omega
    | true =>
      rcases List.mem_cons.mp member with rfl | later
      · omega
      · have later := ih later
        omega

theorem exponents_sorted (bits : List Bool) : (exponents bits).Pairwise (· > ·) := by
  induction bits with
  | nil => exact .nil
  | cons b bits ih =>
    cases b with
    | false => exact ih
    | true => exact .cons (fun n later => Nat.lt_succ_of_le (mem_exponents later).2) ih

theorem remainder_eq_syndrome (c : BitVec w) (bits : List Bool) :
    remainder poly c bits = (shift poly)^[bits.length] c ^^^ syndrome poly (exponents bits) := by
  induction bits generalizing c with
  | nil => exact BitVec.xor_zero.symm
  | cons b bits ih =>
    rw [remainder_cons, ih, feed, shift_xor, iterate_shift_xor]
    cases b with
    | false => rw [bit_false, shift_zero, iterate_shift_zero, BitVec.xor_zero]; rfl
    -- a one is shifted once by itself, and once by each bit after it
    | true => rw [BitVec.xor_assoc]; rfl

variable (poly) in
/-- Two ones, `d` places apart. -/
def gap (d : Nat) : BitVec w := 1#w ^^^ (shift poly)^[d] 1#w

/-- Two ones as one gap, shifted. -/
theorem pair_eq {i j : Nat} (later : j ≤ i) :
    (shift poly)^[i] 1#w ^^^ (shift poly)^[j] 1#w = (shift poly)^[j] (gap poly (i - j)) := by
  rw [gap, iterate_shift_xor, ← Function.iterate_add_apply, Nat.add_sub_cancel' later,
    BitVec.xor_comm]

/-- No two and no four ones within `n` places cancel. -/
structure Separated (poly : BitVec w) (n : Nat) : Prop where
  two : ∀ d, 0 < d → d < n → gap poly d ≠ 0#w
  four : ∀ a b d, 0 < a → a < n → 0 < b → 0 < d → b + d < n →
    (shift poly)^[b] (gap poly d) ≠ gap poly a

theorem syndrome_two_ne_zero (top : poly.msb = true) {i j : Nat} (separated : Separated poly n)
    (later : j < i) (inside : i ≤ n) (positive : 0 < j) : syndrome poly [i, j] ≠ 0#w := by
  have sum : syndrome poly [i, j] = (shift poly)^[j] (gap poly (i - j)) := by
    rw [← pair_eq (Nat.le_of_lt later)]
    exact congrArg _ BitVec.xor_zero
  rw [sum]
  exact iterate_shift_ne_zero top j (separated.two _ (by omega) (by omega))

theorem syndrome_four_ne_zero (top : poly.msb = true) {i j l : Nat} (separated : Separated poly n)
    (first : j < i) (second : k < j) (third : l < k) (inside : i ≤ n) (positive : 0 < l) :
    syndrome poly [i, j, k, l] ≠ 0#w := by
  -- two gaps, the first of them `j - l` places above the other
  have sum : syndrome poly [i, j, k, l] =
      (shift poly)^[l] ((shift poly)^[j - l] (gap poly (i - j)) ^^^ gap poly (k - l)) := by
    rw [iterate_shift_xor, ← Function.iterate_add_apply, Nat.add_sub_cancel' (by omega),
      ← pair_eq (Nat.le_of_lt first), ← pair_eq (Nat.le_of_lt third), BitVec.xor_assoc]
    simp only [syndrome, List.foldr_cons, List.foldr_nil, BitVec.xor_zero]
  rw [sum]
  refine iterate_shift_ne_zero top l fun cancelled => ?_
  exact separated.four (k - l) (j - l) (i - j) (by omega) (by omega) (by omega) (by omega)
    (by omega) (BitVec.xor_eq_zero_iff.mp cancelled)

/-- An even number of flipped bits, up to four, is seen. -/
theorem remainder_even_ne_zero (top : poly.msb = true) (separated : Separated poly bits.length)
    (flips : bits.count true = 2 ∨ bits.count true = 4) : remainder poly 0#w bits ≠ 0#w := by
  have sum := @remainder_eq_syndrome w poly 0#w bits
  rw [iterate_shift_zero, BitVec.zero_xor] at sum
  have sorted := exponents_sorted bits
  have bounds := fun n => @mem_exponents bits n
  have length := length_exponents bits
  rw [sum]
  generalize exponents bits = places at sorted bounds length
  rcases flips with flips | flips <;> rw [flips] at length
  · obtain ⟨i, j, rfl⟩ := List.length_eq_two.mp length
    simp only [List.pairwise_cons, List.mem_cons, List.not_mem_nil, or_false, forall_eq] at sorted
    exact syndrome_two_ne_zero top separated sorted.1 (bounds i (by simp)).2 (bounds j (by simp)).1
  · obtain ⟨i, rest, rfl⟩ := List.exists_cons_of_length_eq_add_one length
    obtain ⟨j, k, l, rfl⟩ := List.length_eq_three.mp (Nat.succ.inj length)
    simp only [List.pairwise_cons, List.mem_cons, List.not_mem_nil, or_false, forall_eq_or_imp,
      forall_eq] at sorted
    obtain ⟨⟨first, _⟩, ⟨second, _⟩, third, _⟩ := sorted
    exact syndrome_four_ne_zero top separated first second third (bounds i (by simp)).2
      (bounds l (by simp)).1

/-! ### Searching for cancelling bits -/

end

/-- `shift` on numbers. -/
def shiftNat (poly c : Nat) : Nat := (c >>> 1) ^^^ (c % 2 * poly)

theorem toNat_shift (poly c : BitVec w) : (shift poly c).toNat = shiftNat poly.toNat c.toNat := by
  unfold shift shiftNat
  have low : c.getLsbD 0 = decide (c.toNat % 2 = 1) := by
    rw [BitVec.getLsbD, Nat.testBit_zero]
  rcases Nat.mod_two_eq_zero_or_one c.toNat with even | odd
  · rw [low, even]
    simp
  · rw [low, odd]
    simp

theorem toNat_iterate_shift (poly c : BitVec w) (n : Nat) :
    ((shift poly)^[n] c).toNat = (shiftNat poly.toNat)^[n] c.toNat := by
  induction n generalizing c with
  | zero => rfl
  | succ n ih => rw [Function.iterate_succ_apply, Function.iterate_succ_apply, ih, toNat_shift]

section

variable (poly : Nat)

/-- The first `n` numbers that the shift makes of `c`. -/
def orbit : Nat → Nat → List Nat
  | 0, _ => []
  | n + 1, c => shiftNat poly c :: orbit n (shiftNat poly c)

theorem mem_orbit (inside : k < n) (c : Nat) : (shiftNat poly)^[k + 1] c ∈ orbit poly n c := by
  induction n generalizing k c with
  | zero => cases inside
  | succ n ih =>
    cases k with
    | zero => exact List.mem_cons_self
    | succ k => exact List.mem_cons_of_mem _ (ih (Nat.lt_of_succ_lt_succ inside) (shiftNat poly c))

/-- The gaps below `n + 1`. -/
def gaps (n : Nat) : List Nat := (orbit poly n 1).map (1 ^^^ ·)

/-- The residues of numbers modulo `m`, as a set of bits. -/
def residues (m : Nat) : List Nat → Nat
  | [] => 0
  | x :: xs => 1 <<< (x % m) ||| residues m xs

theorem testBit_residues {x : Nat} {xs : List Nat} (member : x ∈ xs) :
    (residues m xs).testBit (x % m) = true := by
  induction xs with
  | nil => cases member
  | cons y ys ih =>
    rw [residues, Nat.testBit_or, Bool.or_eq_true]
    rcases List.mem_cons.mp member with rfl | later
    · left
      rw [Nat.one_shiftLeft, Nat.testBit_two_pow_self]
    · exact Or.inr (ih later)

/-- The modulus shows that `x` is not one of the numbers whose residues are in the set. -/
def excludes (m set x : Nat) : Bool := set >>> (x % m) % 2 == 0

theorem not_mem_of_excludes {x : Nat} {xs : List Nat} (out : excludes m (residues m xs) x = true) :
    x ∉ xs := by
  intro member
  have here := testBit_residues (m := m) member
  rw [Nat.testBit_eq_decide_div_mod_eq, decide_eq_true_iff] at here
  rw [excludes, Nat.shiftRight_eq_div_pow, here] at out
  cases out

/-- The test holds for the first `n` numbers that the shift makes of `c`. -/
def allShifts (test : Nat → Bool) : Nat → Nat → Bool
  | 0, _ => true
  | n + 1, c => test (shiftNat poly c) && allShifts test n (shiftNat poly c)

theorem allShifts_sound {test : Nat → Bool} {c : Nat} (passed : allShifts poly test n c = true)
    (inside : k < n) : test ((shiftNat poly)^[k + 1] c) = true := by
  induction n generalizing c k with
  | zero => cases inside
  | succ n ih =>
    rw [allShifts, Bool.and_eq_true] at passed
    cases k with
    | zero => exact passed.1
    | succ k =>
      rw [Function.iterate_succ_apply _ (k + 1)]
      exact ih passed.2 (Nat.lt_of_succ_lt_succ inside)

/-- From `c` on, `n` places: each gap and what the shift makes of it passes the test. -/
def passes (test : Nat → Bool) : Nat → Nat → Bool
  | 0, _ => true
  | n + 1, c =>
    allShifts poly test n (1 ^^^ shiftNat poly c) && passes test n (shiftNat poly c)

theorem passes_sound {test : Nat → Bool} {c : Nat} (passed : passes poly test n c = true)
    {b d : Nat} (inside : b + d + 1 < n) :
    test ((shiftNat poly)^[b + 1] (1 ^^^ (shiftNat poly)^[d + 1] c)) = true := by
  -- on the places left; the distance counts down with them
  induction n generalizing c d with
  | zero => cases inside
  | succ n ih =>
    rw [passes, Bool.and_eq_true] at passed
    cases d with
    | zero => exact allShifts_sound poly passed.1 (by omega)
    | succ d =>
      rw [Function.iterate_succ_apply _ (d + 1)]
      exact ih passed.2 (by omega)

/-- The search, by residues modulo `m` and modulo `k`. Any two moduli will do with which it
succeeds. -/
def separates (n m k : Nat) : Bool :=
  (gaps poly n).all (· != 0) &&
    passes poly (fun x => excludes m (residues m (gaps poly n)) x ||
      excludes k (residues k (gaps poly n)) x) n 1

end

theorem separated_of_separates {poly : BitVec w} (positive : 0 < w)
    (found : separates poly.toNat n m k = true) : Separated poly (n + 1) := by
  rw [separates, Bool.and_eq_true] at found
  have one : (1#w).toNat = 1 := by
    rw [BitVec.toNat_ofNat, Nat.mod_eq_of_lt (Nat.one_lt_two_pow (Nat.ne_of_gt positive))]
  have toNat_gap : ∀ d, (gap poly d).toNat = 1 ^^^ (shiftNat poly.toNat)^[d] 1 := by
    intro d
    rw [gap, BitVec.toNat_xor, toNat_iterate_shift, one]
  have mem_gaps : ∀ d, d < n → (gap poly (d + 1)).toNat ∈ gaps poly.toNat n := by
    intro d inside
    rw [toNat_gap]
    exact List.mem_map_of_mem (mem_orbit _ inside 1)
  constructor
  case two =>
    rintro (_ | d) distant inside none
    · cases distant
    · have nonzero := List.all_eq_true.mp found.1 _ (mem_gaps d (Nat.lt_of_succ_lt_succ inside))
      rw [none] at nonzero
      simp at nonzero
  case four =>
    rintro (_ | a) (_ | b) (_ | d) small below shifted distant inside same
    case succ.succ.succ =>
      have out := passes_sound _ found.2 (b := b) (d := d) (by omega)
      rw [← toNat_gap, ← toNat_iterate_shift, same, Bool.or_eq_true] at out
      have here := mem_gaps a (Nat.lt_of_succ_lt_succ below)
      exact out.elim (not_mem_of_excludes · here) (not_mem_of_excludes · here)
    all_goals omega

end Crc
