import Varta.Lib.Decimal
import Varta.Lib.Bytes
import Varta.Vlp.Frame

/-!
# Exported lines

The lines that `FileExporter` writes, `exporter/file.rs`, and the lengths that it adds up for
them without looking at the text again.
-/
namespace Varta.Exporter

open Vlp (Status)

/-- What `record` reads of an `Event`. The text of an error is its `Debug` or `Display`. -/
inductive Event where
  | beat (pid : UInt32) (status : Status) (payload : UInt32) (nonce observerNs : Nat)
  | stall (pid : UInt32) (lastNonce observerNs : Nat)
  | decode (message : Bytes) (observerNs : Nat)
  | io (message : Bytes) (observerNs : Nat)
  | ctrlTruncated (message : Bytes) (observerNs : Nat)
  | authFailure (claimedPid : UInt32) (observerNs : Nat)
  | originConflict (claimedPid : UInt32) (observerNs : Nat)
  | namespaceConflict (claimedPid : UInt32) (observerNs : Nat)
  deriving DecidableEq, Repr

def statusLabel : Status → Bytes
  | .ok => Bytes.ofString "ok"
  | .degraded => Bytes.ofString "degraded"
  | .critical => Bytes.ofString "critical"
  | .stall => Bytes.ofString "stall"

def lowerHex (nibble : UInt8) : UInt8 :=
  let nibble := nibble &&& 0x0F
  if nibble < 10 then 0x30 + nibble else 0x61 + (nibble - 10)

/-- One round of `write_escaped_tsv_field`. -/
def escapedByte (byte : UInt8) : Bytes :=
  if byte = 0x5C then [0x5C, 0x5C]
  else if byte = 0x09 then [0x5C, 0x74]
  else if byte = 0x0A then [0x5C, 0x6E]
  else if byte = 0x0D then [0x5C, 0x72]
  else if byte ≤ 0x1F ∨ byte = 0x7F then [0x5C, 0x78, lowerHex (byte >>> 4), lowerHex (byte &&& 0x0F)]
  else [byte]

def escapedTsvField (raw : Bytes) : Bytes := raw.flatMap escapedByte

def escapedTsvFieldLen (raw : Bytes) : Nat :=
  (raw.map fun byte =>
    if byte = 0x5C ∨ byte = 0x09 ∨ byte = 0x0A ∨ byte = 0x0D then 2
    else if byte ≤ 0x1F ∨ byte = 0x7F then 4
    else 1).sum

/-- The loop of `decimal_digits`. -/
def countDigits (n : Nat) : Nat := if n = 0 then 0 else countDigits (n / 10) + 1

def decimalDigits (n : Nat) : Nat := if n = 0 then 1 else countDigits n

def tab : UInt8 := 0x09
def newline : UInt8 := 0x0A
def dash : UInt8 := 0x2D

/-- Six columns. -/
def columns (observerNs : Nat) (kind pid nonce status payload : Bytes) : Bytes :=
  Decimal.print observerNs ++ tab :: (kind ++ tab :: (pid ++ tab :: (nonce ++ tab ::
    (status ++ tab :: (payload ++ [newline])))))

def mismatchLine (claimedPid : UInt32) (observerNs : Nat) (reason : Bytes) : Bytes :=
  columns observerNs (Bytes.ofString "mismatch") (Decimal.print claimedPid.toNat) [dash] [dash] reason

/-- `write_text_event_line`. -/
def textEventLine (observerNs : Nat) (kind raw : Bytes) : Bytes :=
  columns observerNs kind [dash] [dash] [dash] (escapedTsvField raw)

def Event.line : Event → Bytes
  | .beat pid status payload nonce observerNs =>
    columns observerNs (Bytes.ofString "beat") (Decimal.print pid.toNat) (Decimal.print nonce)
      (statusLabel status) (Decimal.print payload.toNat)
  | .stall pid lastNonce observerNs =>
    columns observerNs (Bytes.ofString "stall") (Decimal.print pid.toNat)
      (Decimal.print lastNonce) (Bytes.ofString "stall") [dash]
  | .decode message observerNs => textEventLine observerNs (Bytes.ofString "decode") message
  | .io message observerNs => textEventLine observerNs (Bytes.ofString "io") message
  | .ctrlTruncated message observerNs => textEventLine observerNs (Bytes.ofString "ctrunc") message
  | .authFailure pid observerNs => mismatchLine pid observerNs (Bytes.ofString "auth_failure")
  | .originConflict pid observerNs => mismatchLine pid observerNs (Bytes.ofString "origin_conflict")
  | .namespaceConflict pid observerNs =>
    mismatchLine pid observerNs (Bytes.ofString "namespace_conflict")

def evictionLine (pid : UInt32) (observerNs : Nat) : Bytes :=
  columns observerNs (Bytes.ofString "eviction") (Decimal.print pid.toNat) [dash] [dash] [dash]

/-! ### Lengths -/

def textEventLineLen (observerNs : Nat) (kind raw : Bytes) : Nat :=
  decimalDigits observerNs + 1 + kind.length + 1 + 1 + 1 + 1 + 1 + 1 + 1 +
    escapedTsvFieldLen raw + 1

/-- The length that `record` hands to `after_write`. -/
def Event.lineLen : Event → Nat
  | .beat pid status payload nonce observerNs =>
    decimalDigits observerNs + 1 + 4 + 1 + decimalDigits pid.toNat + 1 + decimalDigits nonce + 1 +
      (statusLabel status).length + 1 + decimalDigits payload.toNat + 1
  | .stall pid lastNonce observerNs =>
    decimalDigits observerNs + 1 + 5 + 1 + decimalDigits pid.toNat + 1 + decimalDigits lastNonce + 1 +
      5 + 1 + 1 + 1
  | .decode message observerNs => textEventLineLen observerNs (Bytes.ofString "decode") message
  | .io message observerNs => textEventLineLen observerNs (Bytes.ofString "io") message
  | .ctrlTruncated message observerNs =>
    textEventLineLen observerNs (Bytes.ofString "ctrunc") message
  | .authFailure pid observerNs =>
    decimalDigits observerNs + 1 + 8 + 1 + decimalDigits pid.toNat + 1 + 1 + 1 + 1 + 1 + 12 + 1
  -- these two are formatted a second time for their length
  | .originConflict pid observerNs =>
    (mismatchLine pid observerNs (Bytes.ofString "origin_conflict")).length
  | .namespaceConflict pid observerNs =>
    (mismatchLine pid observerNs (Bytes.ofString "namespace_conflict")).length

def evictionLineLen (pid : UInt32) (observerNs : Nat) : Nat :=
  decimalDigits observerNs + 1 + 8 + 1 + decimalDigits pid.toNat + 1 + 1 + 1 + 1 + 1 + 1 + 1

theorem countDigits_eq (n : Nat) (positive : n ≠ 0) : countDigits n = (Decimal.print n).length := by
  induction n using Nat.strongRecOn with
  | _ n ih =>
    rw [countDigits, if_neg positive, Decimal.print_eq]
    split
    next small =>
      rw [Nat.div_eq_of_lt small, countDigits]
      rfl
    next large =>
      rw [ih (n / 10) (by omega) (by omega), List.length_append]
      rfl

theorem decimalDigits_eq (n : Nat) : decimalDigits n = (Decimal.print n).length := by
  unfold decimalDigits
  split
  next zero => rw [zero]; rfl
  next positive => exact countDigits_eq n positive

theorem escapedTsvFieldLen_eq (raw : Bytes) : escapedTsvFieldLen raw = (escapedTsvField raw).length := by
  unfold escapedTsvFieldLen escapedTsvField
  rw [List.length_flatMap]
  congr 1
  refine List.map_congr_left fun byte _ => ?_
  unfold escapedByte
  by_cases short : byte = 0x5C ∨ byte = 0x09 ∨ byte = 0x0A ∨ byte = 0x0D
  · rw [if_pos short]
    rcases short with rfl | rfl | rfl | rfl <;> rfl
  · rw [if_neg short]
    simp only [not_or] at short
    simp only [short, if_false]
    split <;> rfl

theorem length_columns (observerNs : Nat) (kind pid nonce status payload : Bytes) :
    (columns observerNs kind pid nonce status payload).length =
      decimalDigits observerNs + 1 + kind.length + 1 + pid.length + 1 + nonce.length + 1 +
        status.length + 1 + payload.length + 1 := by
  simp only [columns, List.length_append, List.length_cons, List.length_nil, decimalDigits_eq]
  omega

/-- The length that is counted is the length that is written. -/
theorem lineLen_eq (ev : Event) : ev.lineLen = ev.line.length := by
  cases ev <;>
    simp only [Event.lineLen, Event.line, textEventLine, textEventLineLen, mismatchLine,
      length_columns, decimalDigits_eq, escapedTsvFieldLen_eq] <;> rfl

theorem evictionLineLen_eq (pid : UInt32) (observerNs : Nat) :
    evictionLineLen pid observerNs = (evictionLine pid observerNs).length := by
  rw [evictionLine, length_columns, evictionLineLen, decimalDigits_eq pid.toNat]
  rfl

end Varta.Exporter
