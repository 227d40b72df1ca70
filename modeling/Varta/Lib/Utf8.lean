import Mathlib.Data.List.Basic

/-!
# Well-formed UTF-8

A byte string is text when an eight-state scanner reads it from `boundary` back to
`boundary`. The scanner is the table of well-formed byte sequences: it refuses
overlong forms, surrogates and code points above U+10FFFF at the second byte, so
running it over a concatenation is running it over the parts in turn.
-/
namespace Utf8

/-- What the scanner still owes: nothing, some plain continuation bytes, or a second
byte from the restricted range that follows one of the four special lead bytes. -/
inductive Pending where
  | boundary
  | one
  | two
  | three
  | afterE0
  | afterED
  | afterF0
  | afterF4
  deriving DecidableEq, Repr

def between (lo hi b : UInt8) (next : Pending) : Option Pending :=
  if lo ≤ b ∧ b ≤ hi then some next else none

/-- The scanner at a character boundary. `0xC0`, `0xC1` and everything above `0xF4`
never lead a sequence. -/
def lead (b : UInt8) : Option Pending :=
  if b < 0x80 then some .boundary
  else if b < 0xC2 then none
  else if b < 0xE0 then some .one
  else if b = 0xE0 then some .afterE0
  else if b = 0xED then some .afterED
  else if b < 0xF0 then some .two
  else if b = 0xF0 then some .afterF0
  else if b < 0xF4 then some .three
  else if b = 0xF4 then some .afterF4
  else none

def scan : Pending → UInt8 → Option Pending
  | .boundary, b => lead b
  | .one, b => between 0x80 0xBF b .boundary
  | .two, b => between 0x80 0xBF b .one
  | .three, b => between 0x80 0xBF b .two
  | .afterE0, b => between 0xA0 0xBF b .one
  | .afterED, b => between 0x80 0x9F b .one
  | .afterF0, b => between 0x90 0xBF b .two
  | .afterF4, b => between 0x80 0x8F b .two

/-- Whether `bytes` is the UTF-8 encoding of some text. -/
def valid (bytes : List UInt8) : Bool :=
  bytes.foldlM scan .boundary == some .boundary

theorem valid_iff (bytes : List UInt8) :
    valid bytes = true ↔ bytes.foldlM scan .boundary = some .boundary := by
  simp [valid]

/-- Reading on from a valid prefix is reading from the start. -/
theorem valid_append (front back : List UInt8) (text : valid front = true) :
    valid (front ++ back) = valid back := by
  rw [valid_iff] at text
  simp [valid, List.foldlM_append, text]

theorem valid_append_of_valid (front back : List UInt8) (hf : valid front = true)
    (hb : valid back = true) : valid (front ++ back) = true := by
  rw [valid_append front back hf, hb]

/-- ASCII bytes keep the scanner at a boundary. -/
theorem valid_of_ascii (bytes : List UInt8) (ascii : ∀ b ∈ bytes, b < 0x80) :
    valid bytes = true := by
  rw [valid_iff]
  induction bytes with
  | nil => rfl
  | cons b rest ih =>
    -- one byte, one character
    have head : scan .boundary b = some .boundary := by
      simp [scan, lead, ascii b (by simp)]
    rw [List.foldlM_cons, head]
    exact ih fun c hc => ascii c (by simp [hc])

/-- A byte rewriting the scanner cannot notice keeps validity. -/
theorem valid_map (f : UInt8 → UInt8) (same : ∀ p b, scan p (f b) = scan p b)
    (bytes : List UInt8) : valid (bytes.map f) = valid bytes := by
  simp only [valid, List.foldlM_map, same]

/-- Text: bytes that carry the proof of their own validity. -/
structure Str where
  bytes : List UInt8
  valid : Utf8.valid bytes = true
  deriving DecidableEq

end Utf8
