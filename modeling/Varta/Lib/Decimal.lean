import Mathlib.Data.List.Basic
import Mathlib.Tactic.IntervalCases

/-!
# Decimal columns

Printing naturals in base ten and reading unsigned integers back the way a
fixed-width parser does: an optional `+`, at least one digit, leading zeros
allowed, and a refusal as soon as the value leaves the type.
-/
namespace Decimal

def zero : UInt8 := 0x30
def plus : UInt8 := 0x2B
def minus : UInt8 := 0x2D

/-- `n` in base ten, most significant digit first. -/
def print (n : Nat) : List UInt8 :=
  (Nat.toDigits 10 n).map Char.toUInt8

def printInt : Int → List UInt8
  | .ofNat n => print n
  | .negSucc n => minus :: print (n + 1)

def digit (b : UInt8) : Option Nat :=
  if zero ≤ b ∧ b ≤ 0x39 then some (b - zero).toNat else none

/-- One round of the digit loop: checked multiplication by ten, checked addition. -/
def push (bound acc : Nat) (b : UInt8) : Option Nat := do
  let d ← digit b
  if acc * 10 + d < bound then some (acc * 10 + d) else none

def parseDigits (bound : Nat) (text : List UInt8) : Option Nat :=
  text.foldlM (push bound) 0

/-- Read an unsigned integer below `bound`. -/
def parse (bound : Nat) : List UInt8 → Option Nat
  | [] => none
  | b :: rest =>
    if b = plus then
      -- a sign alone is no number
      if rest = [] then none else parseDigits bound rest
    else parseDigits bound (b :: rest)

/-! ### Printing -/

theorem print_eq (n : Nat) :
    print n = if n < 10 then [(Nat.digitChar n).toUInt8]
      else print (n / 10) ++ [(Nat.digitChar (n % 10)).toUInt8] := by
  unfold print
  rw [Nat.toDigits_eq_if (by omega)]
  split <;> simp

theorem print_ne_nil (n : Nat) : print n ≠ [] := by
  rw [print_eq]
  split <;> simp

theorem digit_digitChar (d : Nat) (small : d < 10) :
    digit (Nat.digitChar d).toUInt8 = some d := by
  interval_cases d <;> decide

theorem digit_ne_none_of_mem_print (n : Nat) : ∀ b ∈ print n, digit b ≠ none := by
  -- on the number without its last digit
  induction n using Nat.strongRecOn with
  | _ n ih =>
    intro b member
    rw [print_eq] at member
    split at member
    next small =>
      rw [List.mem_singleton] at member
      rw [member, digit_digitChar n small]
      simp
    next large =>
      rcases List.mem_append.mp member with front | last
      · exact ih (n / 10) (by omega) b front
      · rw [List.mem_singleton] at last
        rw [last, digit_digitChar (n % 10) (by omega)]
        simp

theorem digit_range {b : UInt8} (isDigit : digit b ≠ none) : 0x30 ≤ b ∧ b ≤ 0x39 := by
  unfold digit at isDigit
  split at isDigit
  next range => exact range
  next => exact absurd rfl isDigit

/-! ### Reading -/

theorem push_bind (bound acc d : Nat) (b : UInt8) (isDigit : digit b = some d)
    (fits : acc * 10 + d < bound) : push bound acc b = some (acc * 10 + d) := by
  simp [push, isDigit, fits]

theorem parseDigits_print (bound n : Nat) (fits : n < bound) :
    parseDigits bound (print n) = some n := by
  unfold parseDigits
  induction n using Nat.strongRecOn with
  | _ n ih =>
    rw [print_eq]
    split
    next small =>
      simp [push_bind bound 0 n _ (digit_digitChar n small) (by omega)]
    next large =>
      -- the value of the digits so far stays below the bound
      have front := ih (n / 10) (by omega) (by omega)
      have last := push_bind bound (n / 10) (n % 10) _ (digit_digitChar (n % 10) (by omega))
        (by omega)
      have whole : n / 10 * 10 + n % 10 = n := by omega
      rw [List.foldlM_append, front]
      simp [last, whole]

theorem parse_print (bound n : Nat) (fits : n < bound) : parse bound (print n) = some n := by
  cases h : print n with
  | nil => exact absurd h (print_ne_nil n)
  | cons b rest =>
    have isDigit := digit_ne_none_of_mem_print n b (by simp [h])
    have unsigned : b ≠ plus := by
      rintro rfl
      exact isDigit (by decide)
    rw [parse, if_neg unsigned, ← h, parseDigits_print bound n fits]

/-- A number starts with a sign or a digit. -/
theorem parse_head {bound v : Nat} {b : UInt8} {rest : List UInt8}
    (read : parse bound (b :: rest) = some v) : b = plus ∨ digit b ≠ none := by
  by_cases signed : b = plus
  · exact Or.inl signed
  · right
    intro notDigit
    simp [parse, signed, parseDigits, push, notDigit] at read

end Decimal
