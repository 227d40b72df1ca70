import Varta.Audit.Schema

/-!
# Restart probe

`probe_tail_file`, `last_v2_header_end` and `classify_tail` of `audit/rotation.rs`:
what an existing audit file says about where to resume.
-/
namespace Varta.Audit

open Vlp (Bytes32)

/-- Maximum bytes read from the tail of an existing file when resuming. -/
def tailScanBytes : Nat := 4096

structure TailProbe where
  lastSeq : Nat
  lastChain : Bytes32
  reason : BootReason
  truncateTo : Option Nat
  hasV2Header : Bool
  deriving DecidableEq, Repr

/-- The look-back of both branches of `classify_tail`: the last line of `view`, unless it
starts at offset 0 of a read that began after the data region, where offset 0 is only
where the window cut. -/
def trustedLine (view : Bytes) (scanStart dataStart : Nat) : Option Bytes :=
  let prevStart := Lines.lineStart newline view
  if prevStart ≠ 0 ∨ scanStart ≤ dataStart then some (view.drop prevStart) else none

/-- The clean-tail branch once the last line and the trusted line before it are known. -/
def cleanVerdict (lastLine : Bytes) (lookBack : Option Bytes) : TailProbe × Bool :=
  match parseRecord lastLine with
  | some (seq, chain) => (⟨seq, chain, .resume, none, true⟩, true)
  | none =>
    -- the last line is whole but not a record: look one line back
    match lookBack with
    | some prevLine =>
      match parseRecord prevLine with
      | some (seq, chain) =>
        -- the unreadable line still spends the sequence number it starts with
        let lastSeq := match parseLeadingSeq lastLine with
          | some driftSeq => max seq driftSeq
          | none => seq
        (⟨lastSeq, chain, .schemaDrift, none, true⟩, true)
      | none => (⟨(parseLeadingSeq lastLine).getD 0, .zero, .schemaDrift, none, true⟩, false)
    | none => (⟨0, .zero, .schemaDrift, none, true⟩, false)

/-- The torn-tail branch. -/
def tornVerdict (truncateTo : Nat) (lookBack : Option Bytes) : TailProbe × Bool :=
  match lookBack.bind parseRecord with
  | some (seq, chain) => (⟨seq, chain, .corruptTail, some truncateTo, true⟩, true)
  | none => (⟨0, .zero, .corruptTail, some truncateTo, true⟩, false)

/-- Read the tail `buf`, which begins at absolute offset `scanStart`. The flag says
whether a real prior record was recovered. -/
def classifyTail (buf : Bytes) (scanStart dataStart : Nat) : TailProbe × Bool :=
  -- clean tail: the file ends in a newline
  if buf.getLast? = some newline then
    let view := buf.dropLast
    let lastLineStart := Lines.lineStart newline view
    let lastLine := view.drop lastLineStart
    let prior := if lastLineStart = 0 then [] else view.take (lastLineStart - 1)
    cleanVerdict lastLine (trustedLine prior scanStart dataStart)
  else
    -- torn tail: cut back to just after the last newline in sight
    match Lines.rposition (· == newline) buf with
    | some rel => tornVerdict (scanStart + rel + 1) (trustedLine (buf.take rel) scanStart dataStart)
    -- no newline in the buffer: cut back to the start of the data region
    | none => tornVerdict dataStart none

def lastV2HeaderEnd (buf : Bytes) : Option Nat :=
  (Lines.lastOccurrence auditHeaderV2 buf).map (· + auditHeaderV2.length)

/-- A native v2 file: one bounded read of the tail, widened to the whole data region when
that read recovered nothing and began after it. -/
def probeNative (content : Bytes) : TailProbe :=
  let total := content.length
  let scanStart := total - min tailScanBytes total
  let dataStart := auditHeaderV2.length
  let (probe, recovered) := classifyTail (content.drop scanStart) scanStart dataStart
  -- a read that reached the data region has seen all there is
  if recovered ∨ scanStart ≤ dataStart then probe
  else (classifyTail (content.drop dataStart) dataStart dataStart).1

/-- `str::from_utf8(head).unwrap_or("")` over the first 64 bytes. -/
def headStr (content : Bytes) : Bytes :=
  let head := content.take 64
  if Utf8.valid head = true then head else []

def probeTailFile (content : Bytes) : TailProbe :=
  if content.length = 0 then ⟨0, .zero, .fresh, none, false⟩
  else
    let headIsV2 := auditHeaderText.isPrefixOf (headStr content)
    let headIsV1 := auditHeaderV1Prefix.isPrefixOf (headStr content)
    if headIsV2 then probeNative content
    else
      match lastV2HeaderEnd content with
      -- no v2 header anywhere: the caller appends one
      | none => ⟨0, .zero, if headIsV1 then .legacyV1 else .schemaDrift, none, false⟩
      | some dataStart => (classifyTail (content.drop dataStart) dataStart dataStart).1

/-! ### `classify_tail` over the lines of its buffer -/

section Classify

variable (scanStart dataStart : Nat)

variable (init : List Bytes) (last : Bytes)

theorem dropLast_terminated :
    (Lines.terminated newline (init ++ [last])).dropLast = Lines.terminated newline init ++ last := by
  rw [Lines.terminated_concat, ← List.append_assoc, List.dropLast_concat]

theorem lineStart_view (clear : newline ∉ last) :
    Lines.lineStart newline (Lines.terminated newline init ++ last) =
      (Lines.terminated newline init).length := by
  -- without a line in front, `last` starts the buffer
  rcases List.eq_nil_or_concat init with rfl | ⟨init, p, rfl⟩
  · simpa using Lines.lineStart_of_not_mem newline clear
  · rw [List.concat_eq_append, Lines.terminated_concat]
    have split : Lines.terminated newline init ++ (p ++ [newline]) ++ last =
        (Lines.terminated newline init ++ p) ++ newline :: last := by simp
    rw [split, Lines.lineStart_append newline _ _ clear]
    simp
    omega

theorem terminated_length_eq_zero_iff (lines : List Bytes) :
    (Lines.terminated newline lines).length = 0 ↔ lines = [] := by
  cases lines <;> simp

theorem trustedLine_view (clear : newline ∉ last) :
    trustedLine (Lines.terminated newline init ++ last) scanStart dataStart =
      if init ≠ [] ∨ scanStart ≤ dataStart then some last else none := by
  have boundary : (Lines.terminated newline init).length ≠ 0 ↔ init ≠ [] :=
    not_congr (terminated_length_eq_zero_iff init)
  simp only [trustedLine, lineStart_view init last clear, boundary, List.drop_left]

/-- The line before the last one, where there is one. -/
def lineBefore (init : List Bytes) : Option Bytes :=
  match init.getLast? with
  | some prev => if init.dropLast ≠ [] ∨ scanStart ≤ dataStart then some prev else none
  | none => if scanStart ≤ dataStart then some [] else none

theorem lineBefore_concat (prev : Bytes) :
    lineBefore scanStart dataStart (init ++ [prev]) =
      if init ≠ [] ∨ scanStart ≤ dataStart then some prev else none := by
  simp [lineBefore]

theorem classifyTail_clean (clear : ∀ line ∈ init, newline ∉ line) (clearLast : newline ∉ last) :
    classifyTail (Lines.terminated newline (init ++ [last])) scanStart dataStart =
      cleanVerdict last (lineBefore scanStart dataStart init) := by
  have ends : (Lines.terminated newline (init ++ [last])).getLast? = some newline := by
    rw [Lines.terminated_concat, ← List.append_assoc, List.getLast?_concat]
  simp only [classifyTail, if_pos ends, dropLast_terminated, lineStart_view init last clearLast,
    List.drop_left, terminated_length_eq_zero_iff]
  congr 1
  rcases List.eq_nil_or_concat init with rfl | ⟨init, p, rfl⟩
  · have empty := trustedLine_view scanStart dataStart [] [] (by simp)
    simpa [lineBefore] using empty
  · -- what is left in front of the last line, without its newline
    have prior : (Lines.terminated newline (init ++ [p]) ++ last).take
        ((Lines.terminated newline (init ++ [p])).length - 1) =
          Lines.terminated newline init ++ p := by
      rw [List.take_append_of_le_length (by omega), ← List.dropLast_eq_take, dropLast_terminated]
    rw [List.concat_eq_append, if_neg (by simp), prior,
      trustedLine_view scanStart dataStart init p (clear p (by simp)), lineBefore_concat]

theorem classifyTail_torn (torn : Bytes) (clearLast : newline ∉ last) (clearTorn : newline ∉ torn)
    (nonempty : torn ≠ []) :
    classifyTail (Lines.terminated newline (init ++ [last]) ++ torn) scanStart dataStart =
      tornVerdict (scanStart + (Lines.terminated newline (init ++ [last])).length)
        (if init ≠ [] ∨ scanStart ≤ dataStart then some last else none) := by
  have open_end : (Lines.terminated newline (init ++ [last]) ++ torn).getLast? ≠ some newline := by
    rw [List.getLast?_append_of_ne_nil _ nonempty]
    intro ends
    exact clearTorn (List.mem_of_getLast? ends)
  have split : Lines.terminated newline (init ++ [last]) ++ torn =
      (Lines.terminated newline init ++ last) ++ newline :: torn := by
    simp [Lines.terminated_append]
  rw [classifyTail, if_neg open_end, split, Lines.rposition_sep newline _ _ clearTorn]
  dsimp only
  rw [List.take_left, trustedLine_view scanStart dataStart init last clearLast]
  simp [Lines.terminated_append, Nat.add_assoc]

theorem classifyTail_unterminated (torn : Bytes) (clear : newline ∉ torn) :
    classifyTail torn scanStart dataStart = tornVerdict dataStart none := by
  have open_end : torn.getLast? ≠ some newline := fun ends => clear (List.mem_of_getLast? ends)
  rw [classifyTail, if_neg open_end, Lines.rposition_sep_none newline clear]

end Classify

end Varta.Audit
