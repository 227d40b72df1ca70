import Varta.Audit.TailTruncation

/-!
# Where a written file resumes

Files made of the v2 header and records as the log writes them, cut at any byte after
the header, as a crash may leave them.
-/
namespace Varta.Audit

open Vlp (Bytes32)

/-- The bytes of a native v2 file holding `records`. -/
def recordsFile (records : List Record) : Bytes := auditFile (records.map Record.line) []

/-- The records whose newline lies within the first `room` bytes of the data region. -/
def completeBefore : Nat → List Record → List Record
  | _, [] => []
  | room, r :: records =>
    if r.line.length + 1 ≤ room then r :: completeBefore (room - (r.line.length + 1)) records
    else []

/-- The file as a crash leaves it when only `room` bytes after the header were kept. -/
def cutFile (records : List Record) (room : Nat) : Bytes :=
  (recordsFile records).take (auditHeaderV2.length + room)

/-- The seq and chain columns of the last complete record, or the start of a new log. -/
def resumesAt (records : List Record) (room : Nat) : Nat × Bytes32 :=
  match (completeBefore room records).getLast? with
  | some r => (r.seq, r.chain.raw)
  | none => (0, .zero)

/-- The cut file ends in a whole record longer than the tail window, and the part of it
that the window shows starts with a number other than its sequence number. -/
def WindowMisreads (records : List Record) (room : Nat) : Prop :=
  Utf8.valid ((cutFile records room).take 64) = true ∧
    (cutFile records room).getLast? = some newline ∧
    ∃ r k, (completeBefore room records).getLast? = some r ∧ tailScanBytes ≤ r.line.length ∧
      parseLeadingSeq (r.line.drop (r.line.length - (tailScanBytes - 1))) = some k ∧ k ≠ r.seq

/-! ### Cutting a written file -/

variable (r : Record) (lines : List Bytes) (records : List Record) (torn : Bytes)

theorem take_terminated (room : Nat) :
    ∃ torn, (Lines.terminated newline (records.map Record.line)).take room =
      Lines.terminated newline ((completeBefore room records).map Record.line) ++ torn ∧
        newline ∉ torn := by
  -- the cut falls behind the first record, or inside it
  induction records generalizing room with
  | nil => exact ⟨[], by simp [completeBefore], by simp⟩
  | cons r records ih =>
    rw [completeBefore, List.map_cons, Lines.terminated_cons]
    split
    next fits =>
      obtain ⟨torn, rest, clear⟩ := ih (room - (r.line.length + 1))
      refine ⟨torn, ?_, clear⟩
      have split : r.line ++ newline :: Lines.terminated newline (records.map Record.line) =
          (r.line ++ [newline]) ++ Lines.terminated newline (records.map Record.line) := by simp
      rw [split, List.take_append, List.take_of_length_le (by simpa using fits)]
      simp [rest]
    next short =>
      refine ⟨r.line.take room, ?_, fun member => ?_⟩
      · rw [List.take_append_of_le_length (by omega)]
        simp
      · exact r.plain_line.2 (List.mem_of_mem_take member)

theorem cutFile_eq (room : Nat) :
    ∃ torn, cutFile records room =
      auditFile ((completeBefore room records).map Record.line) torn ∧ newline ∉ torn := by
  obtain ⟨torn, rest, clear⟩ := take_terminated records room
  refine ⟨torn, ?_, clear⟩
  rw [cutFile, recordsFile, auditFile, List.append_nil, List.take_length_add_append, rest]
  rfl

theorem newline_not_mem_lines : ∀ line ∈ records.map Record.line, newline ∉ line := by
  intro line member
  obtain ⟨r, _, rfl⟩ := List.mem_map.mp member
  exact r.plain_line.2

/-! ### The header search -/

theorem Record.not_ends_in_header : ¬ auditHeaderText <:+ r.line := by
  intro ends
  cases h : r.chain with
  -- without a hash the line ends in a dash, the header text in a digit
  | none =>
    have dashEnd : dash <:+ r.line := by
      rw [Record.line, h]
      exact (List.suffix_cons tab _).trans (List.suffix_append _ _)
    have two : Bytes.ofString "2" <:+ r.line := List.IsSuffix.trans (by decide) ends
    exact absurd (List.suffix_of_suffix_length_le two dashEnd (by decide)) (by decide)
  -- with one it ends in 64 hex digits, longer than the header text and without its hash mark
  | some value =>
    have hexEnd : Vlp.encodeHex32 value <:+ r.line := by
      rw [Record.line, h]
      exact (List.suffix_cons tab _).trans (List.suffix_append _ _)
    have inside := List.suffix_of_suffix_length_le ends hexEnd
      (by rw [auditHeaderText_length, Vlp.encodeHex32_length]; omega)
    have mark : hashMark ∈ Vlp.encodeHex32 value := inside.subset (by decide)
    rcases Vlp.mem_encodeHex32 mark with ⟨low, _⟩ | ⟨low, _⟩ <;> exact absurd low (by decide)

theorem auditFile_eq_terminated :
    auditFile lines torn = Lines.terminated newline (auditHeaderText :: lines) ++ torn := by
  simp [auditFile, auditHeaderV2]

section

variable (before : List Bytes) (line : Bytes) (later : List Bytes) (lines : List Bytes)
  (torn : Bytes) (shape : auditHeaderText :: lines = before ++ line :: later)
  (clear : ∀ l ∈ lines, newline ∉ l) (clearTorn : newline ∉ torn) (ends : auditHeaderText <:+ line)
  (last : ∀ l ∈ later, ¬ auditHeaderText <:+ l)

include shape clear clearTorn ends last

/-- The data region starts after the last line that ends in the header text. -/
theorem lastV2HeaderEnd_auditFile :
    lastV2HeaderEnd (auditFile lines torn) =
      some (Lines.terminated newline (before ++ [line])).length := by
  have clearAll : ∀ l ∈ before ++ line :: later, newline ∉ l := by
    rw [← shape, List.forall_mem_cons]
    exact ⟨newline_not_mem_auditHeaderText, clear⟩
  rw [lastV2HeaderEnd, auditFile_eq_terminated, shape, auditHeaderV2,
    Lines.lastOccurrence_terminated newline auditHeaderText newline_not_mem_auditHeaderText
      before line later torn clearAll clearTorn ends last]
  have fits := ends.length_le
  simp [Lines.terminated_append]
  omega

/-- Behind a head that is not text, the probe reads the region after that line. -/
theorem probeTailFile_migrated (noText : ¬ Utf8.valid ((auditFile lines torn).take 64) = true) :
    probeTailFile (auditFile lines torn) =
      regionProbe later torn (Lines.terminated newline (before ++ [line])).length := by
  have nonempty : ¬ (auditFile lines torn).length = 0 := by
    simp [auditFile, auditHeaderV2_length]
  -- `unwrap_or("")` leaves an empty head, which starts with no header
  have drifted : ¬ auditHeaderText.isPrefixOf (headStr (auditFile lines torn)) = true :=
    fun head => noText ((headIsV2_iff _).mp head).1
  have region : (auditFile lines torn).drop (Lines.terminated newline (before ++ [line])).length =
      Lines.terminated newline later ++ torn := by
    have split : auditFile lines torn =
        Lines.terminated newline (before ++ [line]) ++ (Lines.terminated newline later ++ torn) := by
      rw [auditFile_eq_terminated, shape]
      simp [Lines.terminated_append]
    rw [split, List.drop_left]
  simp only [probeTailFile, if_neg nonempty, if_neg drifted,
    lastV2HeaderEnd_auditFile before line later lines torn shape clear clearTorn ends last,
    region, regionProbe]

end

theorem probeTailFile_native (text : Utf8.valid ((auditFile lines torn).take 64) = true) :
    probeTailFile (auditFile lines torn) = probeNative (auditFile lines torn) := by
  have nonempty : ¬ (auditFile lines torn).length = 0 := by
    simp [auditFile, auditHeaderV2_length]
  have head : auditHeaderText.isPrefixOf (headStr (auditFile lines torn)) = true := by
    rw [headIsV2_iff]
    refine ⟨text, ?_⟩
    rw [auditFile, auditHeaderV2, List.append_assoc]
    exact List.prefix_append _ _
  simp only [probeTailFile, if_neg nonempty, head, if_true]

/-! ### Resuming -/

/-- The region of whole records resumes at its last record. -/
theorem regionProbe_records (clearTorn : newline ∉ torn) (dataStart : Nat) :
    (regionProbe (records.map Record.line) torn dataStart).resumePoint =
      match records.getLast? with
      | some r => (r.seq, r.chain.raw)
      | none => (0, .zero) := by
  rcases List.eq_nil_or_concat records with rfl | ⟨init, r, rfl⟩
  · rw [List.map_nil, regionProbe, Lines.terminated_nil, List.nil_append,
      classifyTail_unterminated _ _ _ clearTorn]
    rfl
  · have clear := newline_not_mem_lines (init ++ [r])
    rw [List.concat_eq_append, List.map_append, List.map_singleton] at *
    rw [List.getLast?_concat]
    by_cases hollow : torn = []
    · subst hollow
      rw [regionProbe_clean _ _ (by simpa using clear)]
      simp [cleanVerdict, r.parseRecord_line, TailProbe.resumePoint]
    · rw [regionProbe_torn _ _ _ r.plain_line.2 clearTorn hollow]
      simp [tornVerdict, r.parseRecord_line, TailProbe.resumePoint]

theorem Record.line_length_sub :
    ∃ front, ∀ j, j ≤ front → lastColumn (r.line.drop j) = r.chain.text ∧
      r.line.length ≤ front + 65 := by
  refine ⟨(hashBody r.seq r.entry.body).length, fun j room => ⟨?_, ?_⟩⟩
  · rw [Record.line, List.drop_append_of_le_length room]
    exact lastColumn_append _ _ (tab_not_mem_text r.chain)
  · have short : r.chain.text.length ≤ 64 := by
      cases r.chain with
      | none => decide
      | some value => exact (Vlp.encodeHex32_length value).le
    simp only [Record.line, List.length_append, List.length_cons]
    omega

/-- The chain column is always inside the window, so only the sequence number can be
misread. -/
theorem Record.parseRecord_window (long : tailScanBytes ≤ r.line.length) :
    parseRecord (r.line.drop (r.line.length - (tailScanBytes - 1))) =
      (parseLeadingSeq (r.line.drop (r.line.length - (tailScanBytes - 1)))).map
        fun seq => (seq, r.chain.raw) := by
  have scan : tailScanBytes = 4096 := rfl
  obtain ⟨front, columns⟩ := r.line_length_sub
  have bound := (columns 0 (Nat.zero_le _)).2
  have column := (columns (r.line.length - (tailScanBytes - 1)) (by omega)).1
  -- the chain column is at most 65 bytes long, so the cut is in front of it
  rw [parseRecord_eq, column, decodeChain_text]
  cases parseLeadingSeq (r.line.drop (r.line.length - (tailScanBytes - 1))) <;> rfl

theorem windowRecord_records :
    windowRecord (records.map Record.line) [] =
      records.getLast?.bind fun r =>
        if tailScanBytes ≤ r.line.length then
          (parseLeadingSeq (r.line.drop (r.line.length - (tailScanBytes - 1)))).map
            fun seq => (seq, r.chain.raw)
        else none := by
  rcases List.eq_nil_or_concat records with rfl | ⟨init, r, rfl⟩
  · rfl
  · rw [List.concat_eq_append, List.map_append, List.map_singleton, windowRecord_concat,
      List.getLast?_concat, Option.bind_some]
    split
    next long => exact r.parseRecord_window long
    next => rfl

theorem getLast?_auditFile (clearTorn : newline ∉ torn) :
    (auditFile lines torn).getLast? = some newline ↔ torn = [] := by
  constructor
  · intro ends
    by_contra nonempty
    rw [auditFile_eq_terminated, List.getLast?_append_of_ne_nil _ nonempty] at ends
    exact clearTorn (List.mem_of_getLast? ends)
  · rintro rfl
    rcases List.eq_nil_or_concat lines with rfl | ⟨init, last, rfl⟩
    · decide
    · rw [auditFile_eq_terminated, List.concat_eq_append, ← List.cons_append,
        Lines.terminated_concat, List.append_nil, ← List.append_assoc, List.getLast?_concat]

theorem misread_iff (seq : Nat) (chain : Bytes32) (read : Option Nat) :
    (read.map fun k => (k, chain)).getD (seq, chain) = (seq, chain) ↔
      ¬ ∃ k, read = some k ∧ k ≠ seq := by
  cases read <;> simp

/-- A file of written records, cut anywhere after its header, resumes at the last record
it still holds, except where the window misreads a record too long for it. -/
theorem probeTailFile_resumes_iff (records : List Record) (room : Nat) :
    (probeTailFile (cutFile records room)).resumePoint = resumesAt records room ↔
      ¬ WindowMisreads records room := by
  obtain ⟨torn, shape, clearTorn⟩ := cutFile_eq records room
  unfold WindowMisreads resumesAt
  rw [shape, getLast?_auditFile _ _ clearTorn]
  generalize completeBefore room records = kept
  have clear := newline_not_mem_lines kept
  have region := regionProbe_records kept torn clearTorn
  by_cases text : Utf8.valid ((auditFile (kept.map Record.line) torn).take 64) = true
  · rw [probeTailFile_native _ _ text, probeNative_resumePoint _ _ clear clearTorn, region]
    simp only [text, true_and]
    by_cases hollow : torn = []
    · -- a clean tail: the last line is in sight as a whole, or cut by the window
      subst hollow
      rw [windowRecord_records]
      cases last : kept.getLast? with
      | none => simp
      | some r =>
        by_cases long : tailScanBytes ≤ r.line.length
        · rw [Option.bind_some, if_pos long]
          dsimp only
          rw [misread_iff]
          refine not_congr ⟨fun ⟨k, read, other⟩ =>
            ⟨rfl, r, k, rfl, long, read, other⟩, ?_⟩
          rintro ⟨_, r', k, same, _, read, other⟩
          cases same
          exact ⟨k, read, other⟩
        · -- a line shorter than the window is read as it is
          rw [Option.bind_some, if_neg long]
          refine iff_of_true rfl ?_
          rintro ⟨_, r', k, same, long', _⟩
          cases same
          exact long long'
    · -- a torn tail: the look-back only trusts whole lines
      rw [windowRecord_of_torn _ hollow]
      simp [hollow]
  · -- the head check fails, and the header search finds the real header
    have migrated := probeTailFile_migrated [] auditHeaderText (kept.map Record.line)
      (kept.map Record.line) torn rfl clear clearTorn (List.suffix_refl _)
      (by simpa using fun r _ => r.not_ends_in_header) text
    rw [migrated, region]
    simp [text]

def longPath : Bytes := 0x2F :: List.replicate 4062 0x78

theorem valid_longPath : Utf8.valid longPath = true := by
  refine Utf8.valid_of_ascii _ fun b member => ?_
  rcases List.mem_cons.mp member with rfl | rest
  · decide
  · rw [List.eq_of_mem_replicate rest]
    decide

/-- A program path of 4063 bytes makes a `spawn` line of 4096, one more than the window
shows of a line with its newline. -/
def longPathRecord : Record where
  seq := 12
  seq_lt := by decide
  entry := .spawn {
    wallclockMs := 0, observerNs := 0, agentPid := 7, childPid := 8
    mode := execMode, mode_exec := rfl
    program := ⟨longPath, valid_longPath⟩
    source := ⟨Bytes.ofString "inline", by decide⟩
    templateLen := 0 }
  chain := none

set_option maxRecDepth 20000 in
/-- The window starts at the second digit of `12`, and the log resumes at 2. -/
theorem probeTailFile_misreads_longPathRecord :
    (probeTailFile (cutFile [longPathRecord] 4097)).lastSeq = 2 ∧
      resumesAt [longPathRecord] 4097 = (12, .zero) := by
  decide +kernel

end Varta.Audit
