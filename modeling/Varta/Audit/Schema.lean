import Varta.Lib.Machine
import Varta.Lib.Utf8
import Varta.Lib.Decimal
import Varta.Lib.Lines
import Varta.Vlp.Util

/-!
# Audit records

The TSV lines of `audit/schema.rs` with the bodies that `record_spawn`,
`record_complete`, `record_refused` (`audit/mod.rs`) and `emit_boot`
(`audit/writer.rs`) write, and the two readers used on restart.
-/
namespace Varta.Audit

open Machine
open Utf8 (Str)
open Vlp (Bytes32 encodeHex32 decodeHex32)

def tab : UInt8 := 0x09
def newline : UInt8 := 0x0A
def carriageReturn : UInt8 := 0x0D
def space : UInt8 := 0x20
def hashMark : UInt8 := 0x23

/-- `AUDIT_HEADER_V2` without its newline. -/
def auditHeaderText : Bytes := Bytes.ofString "# varta-watch recovery audit v2"

def auditHeaderV2 : Bytes := auditHeaderText ++ [newline]

def auditHeaderV1Prefix : Bytes := Bytes.ofString "# varta-watch recovery audit v1"

inductive CompleteOutcome where
  | reaped
  | killed
  | reapFailed
  deriving DecidableEq, Repr

def CompleteOutcome.asStr : CompleteOutcome → Bytes
  | .reaped => Bytes.ofString "reaped"
  | .killed => Bytes.ofString "killed"
  | .reapFailed => Bytes.ofString "reap_failed"

inductive BootReason where
  | fresh
  | resume
  | legacyV1
  | corruptTail
  | schemaDrift
  | rotation
  deriving DecidableEq, Repr

def BootReason.asStr : BootReason → Bytes
  | .fresh => Bytes.ofString "fresh"
  | .resume => Bytes.ofString "resume"
  | .legacyV1 => Bytes.ofString "legacy_v1"
  | .corruptTail => Bytes.ofString "corrupt_tail"
  | .schemaDrift => Bytes.ofString "schema_drift"
  | .rotation => Bytes.ofString "rotation"

inductive AuditKind where
  | boot
  | spawn
  | complete
  | refused
  deriving DecidableEq, Repr

def AuditKind.asBytes : AuditKind → Bytes
  | .boot => Bytes.ofString "boot"
  | .spawn => Bytes.ofString "spawn"
  | .complete => Bytes.ofString "complete"
  | .refused => Bytes.ofString "refused"

/-! ### Record payloads -/

/-- The only value `SpawnRecord::mode` takes since shell mode was removed. -/
def execMode : Bytes := Bytes.ofString "exec"

structure SpawnRecord where
  wallclockMs : UInt64
  observerNs : UInt64
  agentPid : UInt32
  childPid : UInt32
  mode : Bytes
  mode_exec : mode = execMode
  program : Str
  source : Str
  templateLen : UInt32

structure CompleteRecord where
  wallclockMs : UInt64
  observerNs : UInt64
  agentPid : UInt32
  childPid : UInt32
  outcome : CompleteOutcome
  exitCode : Option Int32
  signal : Option Int32
  durationNs : UInt64
  stdoutLen : UInt32
  stderrLen : UInt32
  truncated : Bool

structure RefusedRecord where
  wallclockMs : UInt64
  observerNs : UInt64
  agentPid : UInt32
  reason : Str

/-- The arguments of `emit_boot` with the clock it reads and the daemon's pid. -/
structure BootRecord where
  wallclockMs : UInt64
  daemonPid : UInt32
  prev : Option Bytes32
  reason : BootReason

/-! ### Columns -/

def sanitizeByte (b : UInt8) : UInt8 :=
  if b = tab ∨ b = newline ∨ b = carriageReturn then space else b

/-- The three characters replaced are single bytes, and no byte of a longer
character equals one of them, so the character loop is a byte map. -/
def sanitize (s : Str) : Bytes := s.bytes.map sanitizeByte

def dash : Bytes := Bytes.ofString "-"

def optionColumn {α : Type} (render : α → Bytes) : Option α → Bytes
  | some value => render value
  | none => dash

/-- `write!` with tabs between the columns. -/
def tsv (columns : List Bytes) : Bytes := List.intercalate [tab] columns

def SpawnRecord.body (rec : SpawnRecord) : Bytes :=
  tsv [Decimal.print rec.wallclockMs.toNat, Decimal.print rec.observerNs.toNat,
    Bytes.ofString "spawn", Decimal.print rec.agentPid.toNat, Decimal.print rec.childPid.toNat,
    rec.mode, sanitize rec.program, sanitize rec.source, Decimal.print rec.templateLen.toNat]

def RefusedRecord.body (rec : RefusedRecord) : Bytes :=
  tsv [Decimal.print rec.wallclockMs.toNat, Decimal.print rec.observerNs.toNat,
    -- no child pid: nothing was spawned
    Bytes.ofString "refused", Decimal.print rec.agentPid.toNat, sanitize rec.reason]

def CompleteRecord.body (rec : CompleteRecord) : Bytes :=
  tsv [Decimal.print rec.wallclockMs.toNat, Decimal.print rec.observerNs.toNat,
    Bytes.ofString "complete", Decimal.print rec.agentPid.toNat, Decimal.print rec.childPid.toNat,
    rec.outcome.asStr, optionColumn (fun c : Int32 => Decimal.printInt c.toInt) rec.exitCode,
    optionColumn (fun s : Int32 => Decimal.printInt s.toInt) rec.signal,
    Decimal.print rec.durationNs.toNat, Decimal.print rec.stdoutLen.toNat,
    Decimal.print rec.stderrLen.toNat,
    if rec.truncated then Bytes.ofString "true" else Bytes.ofString "false"]

def BootRecord.body (rec : BootRecord) : Bytes :=
  -- the observer column of a boot line is always 0
  tsv [Decimal.print rec.wallclockMs.toNat, Decimal.print 0, Bytes.ofString "boot",
    Decimal.print rec.daemonPid.toNat, optionColumn encodeHex32 rec.prev, rec.reason.asStr]

inductive Entry where
  | boot (rec : BootRecord)
  | spawn (rec : SpawnRecord)
  | complete (rec : CompleteRecord)
  | refused (rec : RefusedRecord)

def Entry.kind : Entry → AuditKind
  | .boot _ => .boot
  | .spawn _ => .spawn
  | .complete _ => .complete
  | .refused _ => .refused

def Entry.body : Entry → Bytes
  | .boot rec => rec.body
  | .spawn rec => rec.body
  | .complete rec => rec.body
  | .refused rec => rec.body

/-- What goes into the chain hash: `{seq}\t{body}`. -/
def hashBody (seq : Nat) (body : Bytes) : Bytes := Decimal.print seq ++ tab :: body

/-- The chain column: a hash with the `audit-chain` feature, `-` without. -/
abbrev ChainColumn := Option Bytes32

def ChainColumn.text : ChainColumn → Bytes := optionColumn encodeHex32

/-- What a reader takes the column to say; `-` stands for the zero chain. -/
def ChainColumn.raw (chain : ChainColumn) : Bytes32 := chain.getD .zero

/-- A written record. -/
structure Record where
  seq : Nat
  seq_lt : seq < u64Bound
  entry : Entry
  chain : ChainColumn

/-- The line `emit` and `emit_direct` format, without the newline. -/
def Record.line (r : Record) : Bytes :=
  hashBody r.seq r.entry.body ++ tab :: ChainColumn.text r.chain

/-! ### Readers -/

/-- The first element of `split('\t')`. -/
def firstColumn (line : Bytes) : Bytes := line.takeWhile (· ≠ tab)

/-- The first element of `rsplit('\t')`. -/
def lastColumn (line : Bytes) : Bytes := line.drop (Lines.lineStart tab line)

def parseRecord (line : Bytes) : Option (Nat × Bytes32) :=
  if Utf8.valid line = false then none
  -- header and comment lines are no records
  else if line.head? = some hashMark then none
  else do
    let seq ← Decimal.parse u64Bound (firstColumn line)
    let chainStr := lastColumn line
    -- builds without `audit-chain` write `-` for the hash
    if chainStr = dash then return (seq, .zero)
    if chainStr.length ≠ 64 then none
    match decodeHex32 chainStr with
    | .ok raw => return (seq, raw)
    | .error _ => none

def parseLeadingSeq (line : Bytes) : Option Nat :=
  if Utf8.valid line = false then none
  else if line.head? = some hashMark then none
  else Decimal.parse u64Bound (firstColumn line)

/-! ### Every written column is text on one line -/

def Plain (column : Bytes) : Prop := Utf8.valid column = true ∧ newline ∉ column

instance (column : Bytes) : Decidable (Plain column) :=
  inferInstanceAs (Decidable (_ ∧ _))

theorem Plain.append {front back : Bytes} (hf : Plain front) (hb : Plain back) :
    Plain (front ++ back) :=
  ⟨Utf8.valid_append_of_valid _ _ hf.1 hb.1, by simp [hf.2, hb.2]⟩

theorem plain_of_ascii {column : Bytes} (ascii : ∀ b ∈ column, b < 0x80 ∧ b ≠ newline) :
    Plain column :=
  ⟨Utf8.valid_of_ascii column fun b hb => (ascii b hb).1, fun member => (ascii _ member).2 rfl⟩

theorem plain_print (n : Nat) : Plain (Decimal.print n) := by
  refine plain_of_ascii fun b member => ?_
  obtain ⟨low, high⟩ := Decimal.digit_range (Decimal.digit_ne_none_of_mem_print n b member)
  refine ⟨UInt8.lt_of_le_of_lt high (by decide), ?_⟩
  rintro rfl
  exact absurd low (by decide)

theorem plain_printInt (n : Int) : Plain (Decimal.printInt n) := by
  cases n with
  | ofNat n => exact plain_print n
  -- an exit code or signal may be negative: a sign in front of the digits
  | negSucc n => exact @Plain.append [Decimal.minus] _ (by decide) (plain_print (n + 1))

theorem plain_encodeHex32 (value : Bytes32) : Plain (encodeHex32 value) := by
  refine plain_of_ascii fun b member => ?_
  rcases Vlp.mem_encodeHex32 member with ⟨low, high⟩ | ⟨low, high⟩
  all_goals
    refine ⟨UInt8.lt_of_le_of_lt high (by decide), ?_⟩
    rintro rfl
    exact absurd low (by decide)

theorem plain_optionColumn {α : Type} (render : α → Bytes) (value : Option α)
    (plain : ∀ v, Plain (render v)) : Plain (optionColumn render value) := by
  cases value with
  | none => exact (by decide : Plain dash)
  | some v => exact plain v

theorem scan_sanitizeByte (state : Utf8.Pending) (b : UInt8) :
    Utf8.scan state (sanitizeByte b) = Utf8.scan state b := by
  -- finitely many scanner states and bytes: every case is evaluated
  cases state <;> revert b <;> exact Bytes.forall_of_fin (by decide +kernel)

theorem plain_sanitize (s : Str) : Plain (sanitize s) := by
  refine ⟨?_, fun member => ?_⟩
  · rw [sanitize, Utf8.valid_map sanitizeByte scan_sanitizeByte, s.valid]
  · obtain ⟨b, _, same⟩ := List.mem_map.mp member
    unfold sanitizeByte at same
    split at same
    next => exact absurd same (by decide)
    next other => exact other (Or.inr (Or.inl same))

theorem plain_tsv (columns : List Bytes) (plain : ∀ c ∈ columns, Plain c) :
    Plain (tsv columns) := by
  induction columns with
  | nil => exact (by decide : Plain [])
  | cons c rest ih =>
    have later := ih fun d hd => plain d (by simp [hd])
    cases rest with
    | nil => simpa [tsv] using plain c (by simp)
    | cons d rest =>
      -- `intercalate` puts the separator in front of every column but the first
      have step : tsv (c :: d :: rest) = c ++ ([tab] ++ tsv (d :: rest)) := by
        simp [tsv, List.intercalate]
      rw [step]
      exact (plain c (by simp)).append (Plain.append (by decide) later)

theorem CompleteOutcome.plain_asStr (outcome : CompleteOutcome) : Plain outcome.asStr := by
  cases outcome <;> decide

theorem BootReason.plain_asStr (reason : BootReason) : Plain reason.asStr := by
  cases reason <;> decide

theorem Entry.plain_body (entry : Entry) : Plain entry.body := by
  cases entry with
  | boot rec =>
    refine plain_tsv _ ?_
    simp only [List.forall_mem_cons, List.not_mem_nil, false_implies, implies_true, and_true]
    exact ⟨plain_print _, plain_print _, by decide, plain_print _,
      plain_optionColumn _ _ plain_encodeHex32, rec.reason.plain_asStr⟩
  | spawn rec =>
    refine plain_tsv _ ?_
    simp only [List.forall_mem_cons, List.not_mem_nil, false_implies, implies_true, and_true]
    exact ⟨plain_print _, plain_print _, by decide, plain_print _, plain_print _,
      -- the mode is a literal; program and source are the columns that need sanitising
      rec.mode_exec ▸ (by decide : Plain execMode), plain_sanitize _, plain_sanitize _,
      plain_print _⟩
  | complete rec =>
    refine plain_tsv _ ?_
    simp only [List.forall_mem_cons, List.not_mem_nil, false_implies, implies_true, and_true]
    refine ⟨plain_print _, plain_print _, by decide, plain_print _, plain_print _,
      rec.outcome.plain_asStr, plain_optionColumn _ _ fun _ => plain_printInt _,
      plain_optionColumn _ _ fun _ => plain_printInt _, plain_print _, plain_print _,
      plain_print _, ?_⟩
    cases rec.truncated <;> decide
  | refused rec =>
    refine plain_tsv _ ?_
    simp only [List.forall_mem_cons, List.not_mem_nil, false_implies, implies_true, and_true]
    exact ⟨plain_print _, plain_print _, by decide, plain_print _, plain_sanitize _⟩

variable (r : Record) (chain : ChainColumn)

theorem ChainColumn.plain_text : Plain chain.text :=
  plain_optionColumn _ _ plain_encodeHex32

theorem Record.plain_line : Plain r.line := by
  unfold Record.line hashBody
  exact ((plain_print _).append (@Plain.append [tab] _ (by decide) r.entry.plain_body)).append
    (@Plain.append [tab] _ (by decide) r.chain.plain_text)

/-! ### Reading a written line back -/

/-- The chain column alone, as `parse_record` reads it. -/
def decodeChain (column : Bytes) : Option Bytes32 :=
  if column = dash then some .zero
  else if column.length ≠ 64 then none
  else (decodeHex32 column).toOption

theorem parseRecord_eq (line : Bytes) :
    parseRecord line =
      (parseLeadingSeq line).bind fun seq => (decodeChain (lastColumn line)).map (seq, ·) := by
  unfold parseRecord parseLeadingSeq decodeChain
  split
  · rfl
  split
  · rfl
  cases Decimal.parse u64Bound (firstColumn line) with
  | none => rfl
  | some seq =>
    simp only [Option.bind_eq_bind, Option.bind_some, Option.pure_def]
    split
    · rfl
    split
    · rfl
    cases decodeHex32 (lastColumn line) <;> rfl

theorem parseRecord_some_iff (line : Bytes) (seq : Nat) (chain : Bytes32) :
    parseRecord line = some (seq, chain) ↔
      parseLeadingSeq line = some seq ∧ decodeChain (lastColumn line) = some chain := by
  rw [parseRecord_eq]
  cases parseLeadingSeq line <;> cases decodeChain (lastColumn line) <;> simp

theorem decodeChain_text : decodeChain chain.text = some chain.raw := by
  cases chain with
  | none => rfl
  | some value =>
    have sized : (encodeHex32 value).length = 64 := Vlp.encodeHex32_length value
    -- 64 hex digits cannot be mistaken for the single dash
    have long : encodeHex32 value ≠ dash := fun same => by
      rw [same] at sized
      exact absurd sized (by decide)
    simp [decodeChain, ChainColumn.text, optionColumn, long, ChainColumn.raw,
      Vlp.decodeHex32_encodeHex32, Except.toOption]

theorem tab_not_mem_text : tab ∉ chain.text := by
  cases chain with
  | none => decide
  | some value =>
    intro member
    rcases Vlp.mem_encodeHex32 member with ⟨low, _⟩ | ⟨low, _⟩ <;> exact absurd low (by decide)

theorem lastColumn_append (front column : Bytes) (clear : tab ∉ column) :
    lastColumn (front ++ tab :: column) = column := by
  rw [lastColumn, Lines.lineStart_append tab front column clear]
  simp

theorem tab_not_mem_print (n : Nat) : tab ∉ Decimal.print n := by
  intro member
  have low := (Decimal.digit_range (Decimal.digit_ne_none_of_mem_print n tab member)).1
  exact absurd low (by decide)

theorem firstColumn_append (column rest : Bytes) (clear : tab ∉ column) :
    firstColumn (column ++ tab :: rest) = column := by
  unfold firstColumn
  rw [List.takeWhile_append_of_pos]
  · simp
  · intro b member
    have other : b ≠ tab := fun same => clear (same ▸ member)
    simpa using other

theorem head_ne_hashMark_of_parse {line : Bytes} {seq : Nat}
    (read : Decimal.parse u64Bound (firstColumn line) = some seq) :
    line.head? ≠ some hashMark := by
  cases line with
  | nil => simp
  | cons b rest =>
    rintro same
    obtain rfl : b = hashMark := by simpa using same
    have start : firstColumn (hashMark :: rest) = hashMark :: rest.takeWhile (· ≠ tab) := by
      simp [firstColumn, hashMark, tab]
    rw [start] at read
    -- a number starts with a plus or a digit, never with the hash mark
    rcases Decimal.parse_head read with sign | digit
    · exact absurd sign (by decide)
    · exact digit (by decide)

/-- On text whose first column is a number, `parse_leading_seq` reads that number. -/
theorem parseLeadingSeq_of_parse {line : Bytes} {seq : Nat}
    (read : Decimal.parse u64Bound (firstColumn line) = some seq) :
    parseLeadingSeq line = if Utf8.valid line = true then some seq else none := by
  cases h : Utf8.valid line <;> simp [parseLeadingSeq, h, head_ne_hashMark_of_parse read, read]

theorem Record.parseLeadingSeq_line : parseLeadingSeq r.line = some r.seq := by
  have first : firstColumn r.line = Decimal.print r.seq := by
    unfold Record.line hashBody
    rw [List.append_assoc, List.cons_append]
    exact firstColumn_append _ _ (tab_not_mem_print r.seq)
  have read := Decimal.parse_print u64Bound r.seq r.seq_lt
  rw [← first] at read
  rw [parseLeadingSeq_of_parse read, r.plain_line.1, if_pos rfl]

theorem Record.lastColumn_line : lastColumn r.line = r.chain.text :=
  lastColumn_append _ _ (tab_not_mem_text r.chain)

/-- A written record is read back as its own sequence number and chain. -/
theorem Record.parseRecord_line : parseRecord r.line = some (r.seq, r.chain.raw) := by
  rw [parseRecord_some_iff]
  exact ⟨r.parseLeadingSeq_line, by rw [r.lastColumn_line, decodeChain_text]⟩

end Varta.Audit
