import Varta.Audit.Create

/-!
# Sequence numbers across a restart

Any v2 file whose complete lines start with increasing sequence numbers, whatever the
later columns hold. The log that `create` opens continues above all of them exactly when
the last line was read.
-/
namespace Varta.Audit

open Machine
open Vlp (Bytes32)

/-- A complete line whose leading column is a sequence number. -/
structure SeqLine where
  bytes : Bytes
  oneLine : newline ∉ bytes
  seq : Nat
  reads : Decimal.parse u64Bound (firstColumn bytes) = some seq
  notMax : seq < u64Bound - 1

/-- The last line is read for its sequence number: a line at the very end must be text,
one before a torn fragment must be a whole record. -/
def ReadsLast (torn : Bytes) (last : SeqLine) : Prop :=
  if torn = [] then Utf8.valid last.bytes = true else (parseRecord last.bytes).isSome = true

/-- What the probe needs in order to step past `last`. -/
def SeqRecovered (lines : List SeqLine) (torn : Bytes) (last : SeqLine) : Prop :=
  if Utf8.valid ((auditFile (lines.map SeqLine.bytes) torn).take 64) = true then
    match windowRecord (lines.map SeqLine.bytes) torn with
    | some record => last.seq ≤ record.1
    | none => ReadsLast torn last
  else ¬ auditHeaderText <:+ last.bytes ∧ ReadsLast torn last

/-! ### The last line -/

theorem SeqLine.parseLeadingSeq_bytes (line : SeqLine) :
    parseLeadingSeq line.bytes = if Utf8.valid line.bytes = true then some line.seq else none :=
  parseLeadingSeq_of_parse line.reads

theorem SeqLine.seq_of_parseRecord (line : SeqLine) {seq : Nat} {chain : Bytes32}
    (read : parseRecord line.bytes = some (seq, chain)) : seq = line.seq := by
  have leading := ((parseRecord_some_iff _ _ _).mp read).1
  rw [line.parseLeadingSeq_bytes] at leading
  split at leading
  · exact (Option.some.inj leading).symm
  · cases leading

theorem cleanVerdict_lastSeq (last : SeqLine) (prev : Bytes)
    (below : ∀ seq chain, parseRecord prev = some (seq, chain) → seq < last.seq) :
    last.seq ≤ (cleanVerdict last.bytes (some prev)).1.lastSeq ↔
      last.seq = 0 ∨ Utf8.valid last.bytes = true := by
  have leading := last.parseLeadingSeq_bytes
  by_cases text : Utf8.valid last.bytes = true
  · rw [if_pos text] at leading
    refine iff_of_true ?_ (Or.inr text)
    unfold cleanVerdict
    split
    next seq chain read => exact (last.seq_of_parseRecord read).ge
    next =>
      simp only [leading, Option.getD_some]
      split
      · exact le_max_right _ _
      · exact le_refl _
  · rw [if_neg text] at leading
    have unread : parseRecord last.bytes = none := by rw [parseRecord_eq, leading]; rfl
    simp only [cleanVerdict, unread, leading, Option.getD_none, text, Bool.false_eq_true, or_false]
    split
    next seq chain read =>
      have := below seq chain read
      simp only
      omega
    next => exact Nat.le_zero

theorem tornVerdict_lastSeq (t : Nat) (last : SeqLine) :
    last.seq ≤ (tornVerdict t (some last.bytes)).1.lastSeq ↔
      last.seq = 0 ∨ (parseRecord last.bytes).isSome = true := by
  cases read : parseRecord last.bytes with
  | none => simp [tornVerdict, read]
  | some record =>
    obtain ⟨seq, chain⟩ := record
    simp [tornVerdict, read, last.seq_of_parseRecord read]

theorem map_bytes_oneLine (log : List SeqLine) : ∀ line ∈ log.map SeqLine.bytes, newline ∉ line := by
  intro line member
  obtain ⟨l, _, rfl⟩ := List.mem_map.mp member
  exact l.oneLine

/-- Reading the region that ends in `last`. -/
theorem regionProbe_lastSeq (init : List SeqLine) (last : SeqLine) (torn : Bytes)
    (increasing : ∀ l ∈ init, l.seq < last.seq) (clearTorn : newline ∉ torn) (dataStart : Nat) :
    last.seq ≤ (regionProbe (init.map SeqLine.bytes ++ [last.bytes]) torn dataStart).lastSeq ↔
      last.seq = 0 ∨ ReadsLast torn last := by
  unfold ReadsLast
  by_cases hollow : torn = []
  · subst hollow
    have clear := map_bytes_oneLine (init ++ [last])
    rw [List.map_append, List.map_singleton] at clear
    rw [regionProbe_clean _ _ clear, if_pos rfl]
    refine cleanVerdict_lastSeq last _ fun seq chain read => ?_
    -- the look-back can only find a line with a smaller number
    rcases List.eq_nil_or_concat init with rfl | ⟨init, prev, rfl⟩
    · have empty : parseRecord [] = none := by decide
      rw [List.map_nil, List.getLastD_nil, empty] at read
      cases read
    · rw [List.concat_eq_append, List.map_append, List.map_singleton, List.getLastD_concat] at read
      rw [prev.seq_of_parseRecord read]
      exact increasing prev (by simp)
  · rw [regionProbe_torn _ _ _ last.oneLine clearTorn hollow, if_neg hollow]
    exact tornVerdict_lastSeq _ last

/-- The lines after any line but the last end in the last. -/
theorem lines_after {init : List SeqLine} {last : SeqLine} {before later : List Bytes}
    {line first : Bytes}
    (shape : first :: (init ++ [last]).map SeqLine.bytes = before ++ line :: later)
    (nonempty : later ≠ []) :
    ∃ tail : List SeqLine, (∀ l ∈ tail, l ∈ init) ∧ later = tail.map SeqLine.bytes ++ [last.bytes] := by
  have suffix : later = ((init ++ [last]).drop before.length).map SeqLine.bytes := by
    have after := congrArg (List.drop (before.length + 1)) shape
    rw [List.drop_succ_cons, ← List.map_drop, ← List.drop_drop, List.drop_left] at after
    exact after.symm
  -- something is left behind the cut, so the cut is in front of the last line
  have inside : before.length ≤ init.length := by
    by_contra beyond
    rw [List.drop_eq_nil_of_le (by simp; omega)] at suffix
    exact nonempty suffix
  refine ⟨init.drop before.length, fun l hl => List.mem_of_mem_drop hl, ?_⟩
  rw [suffix, List.drop_append_of_le_length inside, List.map_append, List.map_singleton]

section

variable (init : List SeqLine) (last : SeqLine) (torn : Bytes)
  (increasing : ∀ l ∈ init, l.seq < last.seq) (clearTorn : newline ∉ torn)

include increasing clearTorn

/-- Past a file start that reads as text, the last line counts when the window has it. -/
theorem probeNative_lastSeq
    (text : Utf8.valid ((auditFile ((init ++ [last]).map SeqLine.bytes) torn).take 64) = true) :
    last.seq ≤
        (probeTailFile (auditFile ((init ++ [last]).map SeqLine.bytes) torn)).lastSeq ↔
      last.seq = 0 ∨ SeqRecovered (init ++ [last]) torn last := by
  have native := congrArg Prod.fst
    (probeNative_resumePoint _ _ (map_bytes_oneLine (init ++ [last])) clearTorn)
  unfold SeqRecovered
  rw [probeTailFile_native _ _ text, if_pos text]
  simp only [TailProbe.resumePoint] at native
  rw [native]
  cases windowRecord ((init ++ [last]).map SeqLine.bytes) torn with
  | none =>
    rw [List.map_append, List.map_singleton]
    exact regionProbe_lastSeq init last torn increasing clearTorn _
  | some record =>
    simp only [Option.getD_some]
    constructor
    · exact Or.inr
    · rintro (zero | read)
      · omega
      · exact read

/-- Past a file start that is cut inside a character, the last line counts unless it ends in the
header text, which the probe then takes for the header. -/
theorem probeMigrated_lastSeq
    (text : ¬ Utf8.valid ((auditFile ((init ++ [last]).map SeqLine.bytes) torn).take 64) = true) :
    last.seq ≤
        (probeTailFile (auditFile ((init ++ [last]).map SeqLine.bytes) torn)).lastSeq ↔
      last.seq = 0 ∨ SeqRecovered (init ++ [last]) torn last := by
  have clear := map_bytes_oneLine (init ++ [last])
  unfold SeqRecovered
  rw [if_neg text]
  -- the last line ending in the header text, the real header at the latest
  obtain ⟨i, found⟩ := Option.ne_none_iff_exists'.mp
    (fun none => by
      have := (Lines.rposition_eq_none_iff (fun l => decide (auditHeaderText <:+ l))
        (auditHeaderText :: (init ++ [last]).map SeqLine.bytes)).mp none auditHeaderText (by simp)
      simp at this)
  obtain ⟨before, line, later, shape, _, ends, rest⟩ := Lines.rposition_split _ _ found
  simp only [decide_eq_true_eq, decide_eq_false_iff_not] at ends rest
  rw [probeTailFile_migrated before line later _ torn shape clear clearTorn ends rest text]
  by_cases hollow : later = []
  · -- the last line itself is taken for the header: nothing is left to classify
    subst hollow
    have same : last.bytes = line := by
      have newest := congrArg List.getLast? shape
      rw [List.map_append, List.map_singleton, ← List.cons_append, List.getLast?_concat,
        List.getLast?_concat] at newest
      exact Option.some.inj newest
    rw [regionProbe, Lines.terminated_nil, List.nil_append,
      classifyTail_unterminated _ _ _ clearTorn, same]
    simp [tornVerdict, ends]
  · obtain ⟨tail, inside, rfl⟩ := lines_after shape hollow
    have open_end : ¬ auditHeaderText <:+ last.bytes := rest last.bytes (by simp)
    rw [regionProbe_lastSeq tail last torn (fun l hl => increasing l (inside l hl)) clearTorn]
    simp [open_end]

/-- The probe steps past the last line exactly when it was recovered. -/
theorem probeTailFile_lastSeq :
    last.seq ≤
        (probeTailFile (auditFile ((init ++ [last]).map SeqLine.bytes) torn)).lastSeq ↔
      last.seq = 0 ∨ SeqRecovered (init ++ [last]) torn last := by
  by_cases text : Utf8.valid ((auditFile ((init ++ [last]).map SeqLine.bytes) torn).take 64) = true
  · exact probeNative_lastSeq init last torn increasing clearTorn text
  · exact probeMigrated_lastSeq init last torn increasing clearTorn text

end

/-! ### What stays in the file -/

theorem cleanVerdict_hasV2Header (last : Bytes) (lookBack : Option Bytes) :
    (cleanVerdict last lookBack).1.hasV2Header = true := by
  unfold cleanVerdict
  repeat' split
  all_goals rfl

theorem tornVerdict_hasV2Header (t : Nat) (lookBack : Option Bytes) :
    (tornVerdict t lookBack).1.hasV2Header = true := by
  unfold tornVerdict
  split <;> rfl

theorem classifyTail_hasV2Header (buf : Bytes) (scanStart dataStart : Nat) :
    (classifyTail buf scanStart dataStart).1.hasV2Header = true := by
  unfold classifyTail
  split
  · exact cleanVerdict_hasV2Header _ _
  · split <;> exact tornVerdict_hasV2Header _ _

theorem probeNative_hasV2Header (content : Bytes) : (probeNative content).hasV2Header = true := by
  simp only [probeNative]
  split <;> exact classifyTail_hasV2Header _ _ _

variable (lines : List Bytes) (torn : Bytes)

theorem lastV2HeaderEnd_auditFile_isSome : lastV2HeaderEnd (auditFile lines torn) ≠ none := by
  intro missing
  have nowhere := (Lines.lastOccurrence_eq_none_iff auditHeaderV2 (by decide) _).mp
    (Option.map_eq_none_iff.mp missing) 0
  exact nowhere (List.prefix_append _ _)

theorem probeTailFile_hasV2Header : (probeTailFile (auditFile lines torn)).hasV2Header = true := by
  have nonempty : ¬ (auditFile lines torn).length = 0 := by
    simp [auditFile, auditHeaderV2_length]
  simp only [probeTailFile, if_neg nonempty]
  split
  · exact probeNative_hasV2Header _
  · split
    next missing => exact absurd missing (lastV2HeaderEnd_auditFile_isSome lines torn)
    next => exact classifyTail_hasV2Header _ _ _

/-- Truncation leaves every complete line in place. -/
theorem applyTruncation_auditFile (clearTorn : newline ∉ torn) :
    ∃ rest, applyTruncation (probeTailFile (auditFile lines torn)) (auditFile lines torn) =
      auditFile lines rest ∧ newline ∉ rest := by
  unfold applyTruncation
  split
  next n asked =>
    have longer : auditFile lines torn ≠ auditHeaderText := fun same => by
      have := congrArg List.length same
      simp [auditFile, auditHeaderV2_length, auditHeaderText_length] at this
      omega
    have safe := probeTailFile_truncationSafe longer asked
    have past : (Lines.terminated newline (auditHeaderText :: lines)).length ≤ n := by
      by_contra short
      obtain ⟨init, line, shape⟩ : ∃ init line, auditHeaderText :: lines = init ++ [line] :=
        ⟨_, _, (List.dropLast_append_getLast (List.cons_ne_nil auditHeaderText lines)).symm⟩
      have fragment := safe.drops_fragment
      rw [auditFile_eq_terminated, shape, Lines.terminated_concat, ← List.append_assoc,
        List.append_assoc, List.drop_append_of_le_length] at fragment
      · simp at fragment
      · rw [shape, Lines.terminated_concat, ← List.append_assoc, List.length_append] at short
        simp only [List.length_singleton] at short
        omega
    refine ⟨torn.take (n - (Lines.terminated newline (auditHeaderText :: lines)).length), ?_,
      fun member => clearTorn (List.mem_of_mem_take member)⟩
    rw [setLen, Nat.sub_eq_zero_of_le safe.within, List.replicate_zero, List.append_nil,
      auditFile_eq_terminated, auditFile_eq_terminated, List.take_append,
      List.take_of_length_le past]
  next => exact ⟨torn, rfl, clearTorn⟩

/-- The complete lines of a v2 file. -/
def dataLines (content : Bytes) : List Bytes :=
  Lines.completeLines newline (content.drop auditHeaderV2.length)

theorem dataLines_auditFile (clear : ∀ line ∈ lines, newline ∉ line) (clearTorn : newline ∉ torn) :
    dataLines (auditFile lines torn) = lines := by
  rw [dataLines, auditFile, List.drop_left, Lines.completeLines_terminated newline _ _ clear clearTorn]

theorem openProbed_ok {env : Nat → Answer} {cfg : AuditConfig} {inode : Nat} {fs : Fs}
    {probe : TailProbe} {s : Sys} (opened : openProbed env cfg inode fs probe = .ok s)
    (header : probe.hasV2Header = true) :
    s.log.nextSeq = u64SaturatingAdd probe.lastSeq 1 ∧
      s.fs.bytesOf inode = applyTruncation probe (fs.bytesOf inode) := by
  simp only [openProbed, header, if_true] at opened
  split at opened
  · cases opened
  · cases opened
    constructor
    · dsimp only
      split <;> rfl
    · cases asked : probe.truncateTo with
      | none => simp [applyTruncation, asked]
      | some n => simp [applyTruncation, asked, Fs.bytesOf, Chunk.bytes]

theorem openProbed_auditFile {env : Nat → Answer} {cfg : AuditConfig} {inode : Nat} {fs : Fs}
    {s : Sys} (lines : List SeqLine) (torn : Bytes) (clearTorn : newline ∉ torn)
    (content : fs.bytesOf inode = auditFile (lines.map SeqLine.bytes) torn)
    (opened : openProbed env cfg inode fs (probeTailFile (fs.bytesOf inode)) = .ok s) :
    dataLines (s.fs.bytesOf inode) = lines.map SeqLine.bytes ∧
      s.log.nextSeq = u64SaturatingAdd
        (probeTailFile (auditFile (lines.map SeqLine.bytes) torn)).lastSeq 1 := by
  rw [content] at opened
  obtain ⟨next, bytes⟩ := openProbed_ok opened (probeTailFile_hasV2Header _ _)
  obtain ⟨rest, kept, clearRest⟩ := applyTruncation_auditFile (lines.map SeqLine.bytes) torn clearTorn
  rw [bytes, content, kept]
  exact ⟨dataLines_auditFile _ _ (map_bytes_oneLine lines) clearRest, next⟩

/-- The opened log continues above every line left in the file exactly when the probe
recovered the last of them. -/
theorem openProbed_nextSeq_iff (env : Nat → Answer) (cfg : AuditConfig) (inode : Nat) (fs : Fs)
    (s : Sys) (lines : List SeqLine) (torn : Bytes)
    (increasing : lines.Pairwise fun a b => a.seq < b.seq) (clearTorn : newline ∉ torn)
    (content : fs.bytesOf inode = auditFile (lines.map SeqLine.bytes) torn)
    (opened : openProbed env cfg inode fs (probeTailFile (fs.bytesOf inode)) = .ok s) :
    (∀ line ∈ dataLines (s.fs.bytesOf inode), ∀ seq,
        Decimal.parse u64Bound (firstColumn line) = some seq → seq < s.log.nextSeq) ↔
      ∀ last, lines.getLast? = some last → last.seq = 0 ∨ SeqRecovered lines torn last := by
  obtain ⟨kept, next⟩ := openProbed_auditFile lines torn clearTorn content opened
  rw [kept, next]
  rcases List.eq_nil_or_concat lines with rfl | ⟨init, last, rfl⟩
  · simp
  · rw [List.concat_eq_append] at *
    have below : ∀ l ∈ init, l.seq < last.seq := fun l hl =>
      (List.pairwise_append.mp increasing).2.2 l hl last (by simp)
    rw [List.getLast?_concat]
    -- the last line has the largest number, so the log must pass that one
    have passes : last.seq < u64SaturatingAdd
        (probeTailFile (auditFile ((init ++ [last]).map SeqLine.bytes) torn)).lastSeq 1 ↔
          last.seq = 0 ∨ SeqRecovered (init ++ [last]) torn last := by
      rw [← probeTailFile_lastSeq init last torn below clearTorn]
      have notMax := last.notMax
      unfold u64SaturatingAdd
      omega
    constructor
    · intro all newest same
      cases same
      exact passes.mp (all last.bytes (by simp) last.seq last.reads)
    · intro recovered line member seq read
      obtain ⟨l, hl, rfl⟩ := List.mem_map.mp member
      have same : seq = l.seq := Option.some.inj (read.symm.trans l.reads)
      have newest := passes.mpr (recovered last rfl)
      -- an older line, or the last one itself
      rcases List.mem_append.mp hl with old | new
      · exact same ▸ lt_trans (below l old) newest
      · rw [List.mem_singleton] at new
        exact same ▸ new ▸ newest

/-! ### Reopening a file in a quiet environment -/

def fileFs (content : Bytes) : Fs where
  live := some 0
  gen := fun _ => none
  files := fun _ => [.raw content]
  nextInode := 1
  events := []

/-- `next_seq` of the log opened over `content`, with the complete lines left under it. -/
def reopen (content : Bytes) : Option (Nat × List Bytes) :=
  match openProbed (fun _ => quietAnswer) (.default 1) 0 (fileFs content)
      (probeTailFile ((fileFs content).bytesOf 0)) with
  | .ok s => some (s.log.nextSeq, dataLines (s.fs.bytesOf 0))
  | .error _ => none

/-- A record with a column this version does not know. -/
def driftLine : Bytes := Bytes.ofString "5\tnew"

/-- A record with one flipped bit in a text column. -/
def rottenLine : Bytes := Bytes.ofString "5\t" ++ [0xFF] ++ Bytes.ofString "\t-"

/-- The last complete line carries 5 and the log continues at 1: before a torn fragment
when the line is no record of this version, and at a clean end when it is not text. -/
theorem reopen_reuses_sequence_numbers :
    reopen (auditFile [driftLine] (Bytes.ofString "6\t")) = some (1, [driftLine]) ∧
      reopen (auditFile [rottenLine] []) = some (1, [rottenLine]) ∧
      Decimal.parse u64Bound (firstColumn driftLine) = some 5 ∧
      Decimal.parse u64Bound (firstColumn rottenLine) = some 5 := by
  decide

def driftSeqLine : SeqLine := ⟨driftLine, by decide, 5, by decide, by decide⟩

/-- The same line at a clean end is stepped over. -/
theorem openProbed_nextSeq_driftLine :
    ∃ s, openProbed (fun _ => quietAnswer) (.default 1) 0 (fileFs (auditFile [driftLine] []))
        (probeTailFile ((fileFs (auditFile [driftLine] [])).bytesOf 0)) = .ok s ∧
      ∀ line ∈ dataLines (s.fs.bytesOf 0), ∀ seq,
        Decimal.parse u64Bound (firstColumn line) = some seq → seq < s.log.nextSeq := by
  refine ⟨_, rfl, (openProbed_nextSeq_iff (fun _ => quietAnswer) (.default 1) 0
    (fileFs (auditFile [driftLine] [])) _ [driftSeqLine] [] (by simp) (by simp)
    (by simp [fileFs, Fs.bytesOf, Chunk.bytes, driftSeqLine]) rfl).mpr ?_⟩
  intro last newest
  obtain rfl : driftSeqLine = last := by simpa using newest
  right
  rw [SeqRecovered, if_pos (by decide)]
  exact (by decide : Utf8.valid driftSeqLine.bytes = true)

end Varta.Audit
