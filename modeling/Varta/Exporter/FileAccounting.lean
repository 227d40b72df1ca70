import Varta.Exporter.Retention
import Varta.Lib.PrefixCode

/-!
# Accounting and framing of the exported file

A line is a row of six columns, and the text of a message can be read back from its column.
While no call that records fails, the length that the exporter counts is that of the live file
with what is still in the buffer, and what it has written is one line for each call.
-/
namespace Varta.Exporter

open Machine
open Audit (IoError)
open PrefixCode (PrefixFree)

/-! ### Rows -/

/-- A column holds neither of the two separators. -/
def IsColumn (column : Bytes) : Prop := tab ∉ column ∧ newline ∉ column

/-- A line with a newline at its end and nowhere else, and six columns in front of it. -/
def IsRow (line : Bytes) : Prop :=
  ∃ cells : List Bytes, cells.length = 6 ∧ (∀ cell ∈ cells, IsColumn cell) ∧
    line = List.intercalate [tab] cells ++ [newline]

instance (column : Bytes) : Decidable (IsColumn column) := inferInstanceAs (Decidable (_ ∧ _))

theorem isColumn_print (n : Nat) : IsColumn (Decimal.print n) := by
  constructor
  · intro there
    have range := Decimal.digit_range (Decimal.digit_ne_none_of_mem_print n tab there)
    exact absurd range (by decide)
  · intro there
    have range := Decimal.digit_range (Decimal.digit_ne_none_of_mem_print n newline there)
    exact absurd range (by decide)

theorem isColumn_statusLabel (status : Vlp.Status) : IsColumn (statusLabel status) := by
  cases status <;> decide

variable {s t : Sys} {max : Nat} {text : Bytes} (observerNs : Nat) (byte : UInt8)

theorem isRow_columns {kind pid nonce status payload : Bytes} (kindColumn : IsColumn kind)
    (pidColumn : IsColumn pid) (nonceColumn : IsColumn nonce) (statusColumn : IsColumn status)
    (payloadColumn : IsColumn payload) :
    IsRow (columns observerNs kind pid nonce status payload) := by
  refine ⟨[Decimal.print observerNs, kind, pid, nonce, status, payload], rfl, ?_, ?_⟩
  · simp only [List.mem_cons, List.not_mem_nil, or_false, forall_eq_or_imp, forall_eq]
    exact ⟨isColumn_print observerNs, kindColumn, pidColumn, nonceColumn, statusColumn,
      payloadColumn⟩
  · simp [columns, List.intercalate]

/-! ### Escaped text -/

/-- The bytes that are not written as they are. -/
def escapes (byte : UInt8) : Bool := byte = 0x5C ∨ byte ≤ 0x1F ∨ byte = 0x7F

def escapedBytes : List UInt8 := 0x5C :: 0x7F :: (List.range 32).map UInt8.ofNat

theorem mem_escapedBytes : escapes byte = true → byte ∈ escapedBytes := by
  revert byte
  apply Bytes.forall_of_fin
  decide +kernel

theorem escapedByte_plain :
    escapes byte = false → escapedByte byte = [byte] ∧ byte ≠ 0x5C ∧ IsColumn [byte] := by
  revert byte
  apply Bytes.forall_of_fin
  decide +kernel

/-- An escape begins with a backslash and holds no separator. -/
theorem escapedByte_escaped {byte : UInt8} (escaped : escapes byte = true) :
    (∃ rest, escapedByte byte = 0x5C :: rest) ∧ IsColumn (escapedByte byte) := by
  have all : ∀ byte ∈ escapedBytes,
      escapedByte byte = 0x5C :: (escapedByte byte).tail ∧ IsColumn (escapedByte byte) := by
    decide +kernel
  obtain ⟨begins, column⟩ := all byte (mem_escapedBytes byte escaped)
  exact ⟨⟨_, begins⟩, column⟩

theorem isColumn_escapedByte : IsColumn (escapedByte byte) := by
  cases escaped : escapes byte with
  | true => exact (escapedByte_escaped escaped).2
  | false =>
    obtain ⟨plain, -, column⟩ := escapedByte_plain byte escaped
    rw [plain]
    exact column

theorem prefixFree_escapedByte : PrefixFree escapedByte := by
  have pairs : ∀ a ∈ escapedBytes, ∀ b ∈ escapedBytes, escapedByte a <+: escapedByte b → a = b := by
    decide +kernel
  intro a b begins
  cases escaped : escapes a with
  | true =>
    obtain ⟨⟨rest, shape⟩, -⟩ := escapedByte_escaped escaped
    cases escaped' : escapes b with
    | true => exact pairs a (mem_escapedBytes a escaped) b (mem_escapedBytes b escaped') begins
    | false =>
      -- a byte that is written as it is is no backslash
      obtain ⟨plain, other, -⟩ := escapedByte_plain b escaped'
      rw [shape, plain, List.cons_prefix_cons] at begins
      exact absurd begins.1.symm other
  | false =>
    obtain ⟨plain, other, -⟩ := escapedByte_plain a escaped
    cases escaped' : escapes b with
    | true =>
      obtain ⟨⟨rest, shape⟩, -⟩ := escapedByte_escaped escaped'
      rw [plain, shape, List.cons_prefix_cons] at begins
      exact absurd begins.1 other
    | false =>
      obtain ⟨plain', -, -⟩ := escapedByte_plain b escaped'
      rw [plain, plain', List.cons_prefix_cons] at begins
      exact begins.1

theorem escapedTsvField_injective : Function.Injective escapedTsvField := by
  refine prefixFree_escapedByte.flatMap_injective fun byte => ?_
  cases escaped : escapes byte with
  | true =>
    obtain ⟨⟨rest, shape⟩, -⟩ := escapedByte_escaped escaped
    rw [shape]
    exact List.cons_ne_nil _ rest
  | false =>
    rw [(escapedByte_plain byte escaped).1]
    exact List.cons_ne_nil byte []

theorem isColumn_escapedTsvField (raw : Bytes) : IsColumn (escapedTsvField raw) := by
  constructor
  · intro there
    obtain ⟨byte, -, inside⟩ := List.mem_flatMap.mp there
    exact (isColumn_escapedByte byte).1 inside
  · intro there
    obtain ⟨byte, -, inside⟩ := List.mem_flatMap.mp there
    exact (isColumn_escapedByte byte).2 inside

theorem isRow_textEventLine {kind : Bytes} (kindColumn : IsColumn kind) (raw : Bytes) :
    IsRow (textEventLine observerNs kind raw) :=
  isRow_columns observerNs kindColumn (by decide) (by decide) (by decide)
    (isColumn_escapedTsvField raw)

theorem isRow_mismatchLine (claimedPid : UInt32) (observerNs : Nat) {reason : Bytes}
    (reasonColumn : IsColumn reason) : IsRow (mismatchLine claimedPid observerNs reason) :=
  isRow_columns observerNs (by decide) (isColumn_print _) (by decide) (by decide) reasonColumn

theorem isRow_line (ev : Event) : IsRow ev.line := by
  cases ev with
  | beat pid status payload nonce observerNs =>
    exact isRow_columns observerNs (by decide) (isColumn_print _) (isColumn_print _)
      (isColumn_statusLabel status) (isColumn_print _)
  | stall pid lastNonce observerNs =>
    exact isRow_columns observerNs (by decide) (isColumn_print _) (isColumn_print _) (by decide)
      (by decide)
  | decode message observerNs | io message observerNs | ctrlTruncated message observerNs =>
    exact isRow_textEventLine observerNs (by decide) message
  | authFailure pid observerNs | originConflict pid observerNs | namespaceConflict pid observerNs =>
    exact isRow_mismatchLine pid observerNs (by decide)

theorem isRow_evictionLine (pid : UInt32) (observerNs : Nat) :
    IsRow (evictionLine pid observerNs) :=
  isRow_columns observerNs (by decide) (isColumn_print _) (by decide) (by decide) (by decide)

/-! ### What is in the live file -/

/-- The bytes that a list of pieces takes. -/
def totalLength (pieces : List Piece) : Nat := (pieces.map Piece.length).sum

@[simp] theorem totalLength_nil : totalLength [] = 0 := rfl

@[simp] theorem totalLength_append (pieces more : List Piece) :
    totalLength (pieces ++ more) = totalLength pieces + totalLength more := by
  simp [totalLength]

/-- The live file, and behind it what is in the buffer. -/
def Sys.livePieces (s : Sys) : List Piece :=
  (s.fs.entry .live).elim [] s.fs.data ++ s.exporter.sink.buffer

/-- All that has been written so far, whether it has left the buffer or not. -/
def Sys.stream (s : Sys) : List Piece := s.handed.map Prod.fst ++ s.exporter.sink.buffer

/-- The sink writes to the live file, and counts what is in it. -/
structure Counted (max : Nat) (s : Sys) : Prop extends Opened s where
  cap : s.exporter.maxBytes = some max
  idle : s.exporter.rotationReopenPending = false
  counted : s.exporter.bytesWritten = totalLength s.livePieces

theorem Opened.livePieces (opened : Opened s) (idle : s.exporter.rotationReopenPending = false) :
    s.livePieces = s.fs.data s.exporter.sink.inode ++ s.exporter.sink.buffer := by
  rw [Sys.livePieces, opened.live idle]
  rfl

/-- Pieces may have gone from the buffer to the file; nothing else that counts has changed. -/
structure Conveys (s t : Sys) : Prop where
  inode : t.exporter.sink.inode = s.exporter.sink.inode
  pending : t.exporter.rotationReopenPending = s.exporter.rotationReopenPending
  cap : t.exporter.maxBytes = s.exporter.maxBytes
  bytesWritten : t.exporter.bytesWritten = s.exporter.bytesWritten
  serial : t.serial = s.serial
  entry : t.fs.entry = s.fs.entry
  next : t.fs.next = s.fs.next
  pieces : t.fs.data t.exporter.sink.inode ++ t.exporter.sink.buffer =
    s.fs.data s.exporter.sink.inode ++ s.exporter.sink.buffer
  stream : t.stream = s.stream

theorem Conveys.refl (s : Sys) : Conveys s s := ⟨rfl, rfl, rfl, rfl, rfl, rfl, rfl, rfl, rfl⟩

theorem Conveys.trans {u : Sys} (first : Conveys s t) (second : Conveys t u) :
    Conveys s u where
  inode := second.inode.trans first.inode
  pending := second.pending.trans first.pending
  cap := second.cap.trans first.cap
  bytesWritten := second.bytesWritten.trans first.bytesWritten
  serial := second.serial.trans first.serial
  entry := second.entry.trans first.entry
  next := second.next.trans first.next
  pieces := second.pieces.trans first.pieces
  stream := second.stream.trans first.stream

theorem conveys_handOver (s : Sys) (n : Nat) : Conveys s (s.handOver n) := by
  refine ⟨rfl, rfl, rfl, rfl, rfl, rfl, rfl, ?_, ?_⟩
  · simp only [Sys.handOver, Files.append_data, if_true, List.append_assoc, List.take_append_drop]
  · simp only [Sys.stream, Sys.handOver, List.map_append, List.map_map, Function.comp_def,
      List.map_id', List.append_assoc, List.take_append_drop]

theorem conveys_flushSink (f : FlushAnswer) (s : Sys) : Conveys s (flushSink f s).2 := by
  obtain ⟨n, flushed⟩ := flushSink_eq f s
  rw [flushed]
  exact conveys_handOver s n

theorem conveys_rememberError (s : Sys) (e : IoError) : Conveys s (s.rememberError e) :=
  ⟨rfl, rfl, rfl, rfl, rfl, rfl, rfl, rfl, rfl⟩

theorem Conveys.opened (conveys : Conveys s t) (opened : Opened s) : Opened t := by
  constructor
  · rw [conveys.inode, conveys.next]
    exact opened.below
  · rw [conveys.pending, conveys.inode, conveys.entry]
    exact opened.live

theorem Conveys.livePieces (conveys : Conveys s t) (opened : Opened s)
    (idle : s.exporter.rotationReopenPending = false) : t.livePieces = s.livePieces := by
  rw [(conveys.opened opened).livePieces (conveys.pending.trans idle), opened.livePieces idle]
  exact conveys.pieces

/-! ### A call -/

section

variable (a : Answers)

theorem conveys_syncIfDue (s : Sys) : Conveys s (syncIfDue a s).2 := by
  unfold syncIfDue
  split
  · have counted : Conveys s { s with exporter := { s.exporter with
        writesSinceSync := u32SaturatingAdd s.exporter.writesSinceSync 1 } } :=
      ⟨rfl, rfl, rfl, rfl, rfl, rfl, rfl, rfl, rfl⟩
    dsimp only
    split
    · have flushed := counted.trans (conveys_flushSink a.syncFlush _)
      unfold flushAndSync
      generalize flushSink a.syncFlush _ = result at flushed
      obtain ⟨outcome, t⟩ := result
      cases outcome with
      | error e => exact flushed.trans (conveys_rememberError t e)
      | ok done =>
        dsimp only at flushed ⊢
        cases a.syncData with
        | some f => exact flushed.trans (conveys_rememberError t (.fault f))
        | none => exact flushed.trans ⟨rfl, rfl, rfl, rfl, rfl, rfl, rfl, rfl, rfl⟩
    · exact counted
  · exact .refl s

/-- The exporter with a line more in its count. -/
def Sys.weigh (s : Sys) (lineLen : Nat) : Sys :=
  { s with exporter := { s.exporter with
      bytesWritten := u64SaturatingAdd s.exporter.bytesWritten lineLen } }

/-- Where `after_write` gets to while the live file is there. -/
inductive Weighed (max lineLen : Nat) (s : Sys) : Stage → Sys → Prop
  | below {t : Sys} (conveys : Conveys s t) (small : (t.weigh lineLen).exporter.bytesWritten < max) :
      Weighed max lineLen s .done (t.weigh lineLen)
  | failed {t : Sys} (e : IoError) : Weighed max lineLen s (.failed e) t
  | full {t u : Sys} (conveys : Conveys s t) (flushed : Conveys (t.weigh lineLen) u)
      (empty : u.exporter.sink.buffer = []) : Weighed max lineLen s .rotating u

theorem stage_weighed (cap : s.exporter.maxBytes = some max)
    (idle : s.exporter.rotationReopenPending = false) (lineLen : Nat) :
    Weighed max lineLen s (stage a lineLen s).2.1 (stage a lineLen s).2.2 := by
  have synced := conveys_syncIfDue a s
  unfold stage
  generalize syncIfDue a s = result at synced
  obtain ⟨firstErr, t⟩ := result
  dsimp only at synced ⊢
  have capped : t.exporter.maxBytes = some max := synced.cap.trans cap
  have here : t.exporter.rotationReopenPending = false := synced.pending.trans idle
  split
  next uncapped => exact absurd (uncapped.symm.trans capped) (by simp)
  next other found =>
    obtain rfl : other = max := Option.some.inj (found.symm.trans capped)
    rw [if_neg (by rw [here]; exact Bool.false_ne_true)]
    split
    next small => exact .below synced small
    next =>
      have flushed := conveys_flushSink a.rotateFlush (t.weigh lineLen)
      unfold flushSink at flushed ⊢
      cases fault : a.rotateFlush.fault with
      | some f => exact .failed _
      | none =>
        rw [fault] at flushed
        -- a flush that succeeds leaves nothing in the buffer
        exact .full synced flushed List.drop_length

/-- A live file that was made anew is empty, and the count starts again. -/
structure Renewed (s t : Sys) : Prop where
  pieces : t.livePieces = []
  bytesWritten : t.exporter.bytesWritten = 0
  cap : t.exporter.maxBytes = s.exporter.maxBytes
  idle : t.exporter.rotationReopenPending = false
  serial : t.serial = s.serial
  stream : t.stream = s.stream

theorem reopenLive_renewed (empty : s.exporter.sink.buffer = [])
    (done : (reopenLive a s).1.isOk = true) : Renewed s (reopenLive a s).2 := by
  unfold reopenLive at done ⊢
  split at done
  next inode fs made =>
    obtain ⟨-, rfl, rfl⟩ := createNewExportFile_ok made
    -- the old buffer has nothing left to flush
    have dropped (n : Nat) : Sys.handOver { s with fs := s.fs.create .live } n =
        { s with fs := (s.fs.create .live).append s.exporter.sink.inode [] } := by
      simp only [Sys.handOver, empty, List.take_nil, List.drop_nil, List.map_nil, List.append_nil]
      rw [← empty]
    obtain ⟨n, flushed⟩ := flushSink_eq a.dropFlush { s with fs := s.fs.create .live }
    rw [dropped n] at flushed
    have swapped : Renewed s (swapSink a s.fs.next { s with fs := s.fs.create .live }) := by
      unfold swapSink
      rw [flushed]
      refine ⟨?_, rfl, rfl, rfl, rfl, ?_⟩
      · have named : ((s.fs.create .live).append s.exporter.sink.inode []).entry .live =
            some s.fs.next := (Files.create_entry s.fs .live .live).trans (if_pos rfl)
        simp only [Sys.livePieces, named, Option.elim, Files.append_data, Files.create_data,
          List.append_nil, if_true]
        split
        next same => rw [if_pos same.symm]
        next => rfl
      · simp only [Sys.stream, empty]
    dsimp only
    unfold syncParentDir
    split
    · exact swapped
    · exact { swapped with }
  next e fs failed => simp [reopenFailed, Except.isOk, Except.toBool] at done

/-- A call writes one line: it is the next of the stream, and the live file has it unless a
rotation has taken the file away. -/
structure Adds (max : Nat) (s : Sys) (text : Bytes) (t : Sys) : Prop where
  counted : Counted max t
  serial : t.serial = s.serial + 1
  stream : t.stream = s.stream ++ [.line s.serial text]
  pieces : t.livePieces <:+ s.livePieces ++ [.line s.serial text]

theorem writeLine_ok (written : writeLine a text s = (.ok (), t)) : Conveys (s.push text) t := by
  unfold writeLine at written
  split at written
  · cases written
    exact conveys_handOver _ a.spilled
  · cases written

/-- The live file before the call, with the line behind it. -/
theorem push_livePieces (s : Sys) (text : Bytes) :
    (s.push text).livePieces = s.livePieces ++ [.line s.serial text] :=
  (List.append_assoc ..).symm

theorem push_stream (s : Sys) (text : Bytes) :
    (s.push text).stream = s.stream ++ [.line s.serial text] :=
  (List.append_assoc ..).symm

theorem report_isOk {firstErr : Option IoError} {result : Except IoError Unit}
    (done : (report firstErr result).isOk = true) : result.isOk = true := by
  cases firstErr with
  | none => exact done
  | some e => cases done

/-- The line fits: the count is exact, because the cap is a word and the count is below it. -/
theorem adds_weigh (word : max < u64Bound) (counted : Counted max s)
    (conveys : Conveys (s.push text) t)
    (small : (t.weigh text.length).exporter.bytesWritten < max) :
    Adds max s text (t.weigh text.length) := by
  have opened : Opened (s.push text) := ⟨counted.below, counted.live⟩
  have opened' := conveys.opened opened
  have pieces : (t.weigh text.length).livePieces = s.livePieces ++ [.line s.serial text] :=
    (conveys.livePieces opened counted.idle).trans (push_livePieces s text)
  refine ⟨⟨⟨opened'.below, opened'.live⟩, conveys.cap.trans counted.cap,
    conveys.pending.trans counted.idle, ?_⟩, conveys.serial, ?_, ?_⟩
  · have before : t.exporter.bytesWritten = totalLength s.livePieces :=
      conveys.bytesWritten.trans counted.counted
    have line : totalLength [.line s.serial text] = text.length := by
      simp [totalLength, Piece.length]
    rw [pieces, totalLength_append, line, ← before]
    simp only [Sys.weigh, u64SaturatingAdd] at small ⊢
    omega
  · exact conveys.stream.trans (push_stream s text)
  · rw [pieces]

/-- The line fills the file: it is rotated away with the file, and a new one is started. -/
theorem adds_renewed {u v : Sys} (counted : Counted max s) (conveys : Conveys (s.push text) t)
    (flushed : Conveys (t.weigh text.length) u) (rotated : Rotated a u v)
    (renewed : Renewed v (reopenLive a v).2) : Adds max s text (reopenLive a v).2 := by
  have opened : Opened (s.push text) := ⟨counted.below, counted.live⟩
  have weighed : Opened (t.weigh text.length) :=
    ⟨(conveys.opened opened).below, (conveys.opened opened).live⟩
  have below := rotated.below (flushed.opened weighed)
  refine ⟨⟨reopenLive_opened a below, ?_, renewed.idle, ?_⟩, ?_, ?_, ?_⟩
  · rw [renewed.cap, rotated.exporter, flushed.cap]
    exact conveys.cap.trans counted.cap
  · rw [renewed.bytesWritten, renewed.pieces]
    exact totalLength_nil.symm
  · rw [renewed.serial, rotated.serial, flushed.serial]
    exact conveys.serial
  · have carried : v.stream = u.stream := by
      rw [Sys.stream, rotated.handed, rotated.exporter, Sys.stream]
    rw [renewed.stream, carried, flushed.stream]
    exact conveys.stream.trans (push_stream s text)
  · rw [renewed.pieces]
    exact List.nil_suffix

theorem recordLine_adds (word : max < u64Bound) (counted : Counted max s) (text : Bytes)
    (done : (recordLine a text text.length s).1.isOk = true) :
    Adds max s text (recordLine a text text.length s).2 := by
  unfold recordLine at done ⊢
  cases written : writeLine a text s with
  | mk result t =>
    rw [written] at done
    cases result with
    | error e => cases done
    | ok accepted =>
      have pushed := writeLine_ok a written
      have weighed := stage_weighed a (pushed.cap.trans counted.cap)
        (pushed.pending.trans counted.idle) text.length
      unfold afterWrite at done ⊢
      dsimp only at done ⊢
      generalize stage a text.length t = stop at weighed done
      obtain ⟨firstErr, next, u⟩ := stop
      dsimp only at weighed done ⊢
      cases weighed with
      | below conveys small => exact adds_weigh word counted (pushed.trans conveys) small
      | failed e => exact absurd (report_isOk done) Bool.false_ne_true
      | @full t' _ conveys flushed empty =>
        have opened : Opened (s.push text) := ⟨counted.below, counted.live⟩
        have sink := (pushed.trans conveys).opened opened
        have weighed : Opened (t'.weigh text.length) := ⟨sink.below, sink.live⟩
        have here := flushed.opened weighed
        have idle : u.exporter.rotationReopenPending = false := by
          rw [flushed.pending]
          exact (pushed.trans conveys).pending.trans counted.idle
        dsimp only at done ⊢
        rcases rotate_cases a (here.live idle) here.below with
          ⟨e, v, failed, -, -⟩ | ⟨v, through, rotated, -⟩
        · rw [failed] at done
          exact absurd (report_isOk done) Bool.false_ne_true
        · rw [through] at done ⊢
          have emptied : v.exporter.sink.buffer = [] := by
            rw [rotated.exporter]
            exact empty
          have renewed := reopenLive_renewed a emptied (report_isOk done)
          exact adds_renewed a counted (pushed.trans conveys) flushed rotated renewed

end

/-! ### Runs -/

/-- The line that a call records. -/
def Op.line : Op → Option Bytes
  | .record ev _ => some ev.line
  | .recordEvictionPid pid observerNs _ => some (evictionLine pid observerNs)
  | .flush _ => none

/-- The call records its line without an error. A flush may return what it likes. -/
def Op.recorded (s : Sys) : Op → Bool
  | .record ev a => (Exporter.record a ev s).1.isOk
  | .recordEvictionPid pid observerNs a => (Exporter.recordEvictionPid a pid observerNs s).1.isOk
  | .flush _ => true

/-- Lines, numbered from `serial` on. -/
def numbered (serial : Nat) : List Bytes → List Piece
  | [] => []
  | text :: texts => .line serial text :: numbered (serial + 1) texts

theorem isRow_of_line {op : Op} (line : op.line = some text) : IsRow text := by
  cases op with
  | record ev a =>
    cases line
    exact isRow_line ev
  | recordEvictionPid pid observerNs a =>
    cases line
    exact isRow_evictionLine pid observerNs
  | flush f => cases line

theorem Counted.flush (counted : Counted max s) (f : FlushAnswer) :
    let t := (Exporter.flush f s).2
    Counted max t ∧ t.serial = s.serial ∧ t.stream = s.stream ∧ t.livePieces = s.livePieces := by
  have conveys := conveys_flushSink f s
  have opened := conveys.opened counted.toOpened
  have pieces := conveys.livePieces counted.toOpened counted.idle
  refine ⟨⟨⟨opened.below, opened.live⟩, conveys.cap.trans counted.cap,
    conveys.pending.trans counted.idle, ?_⟩, conveys.serial, conveys.stream, pieces⟩
  exact conveys.bytesWritten.trans (counted.counted.trans (congrArg totalLength pieces.symm))

/-- Step lemma: a call that records adds its line. -/
theorem Counted.applyOp (word : max < u64Bound) (counted : Counted max s) {op : Op}
    (line : op.line = some text) (done : op.recorded s = true) :
    Adds max s text (applyOp s op) := by
  cases op with
  | record ev a =>
    cases line
    simp only [Op.recorded, record, lineLen_eq] at done
    simp only [Exporter.applyOp, record, lineLen_eq]
    exact recordLine_adds a word counted ev.line done
  | recordEvictionPid pid observerNs a =>
    cases line
    simp only [Op.recorded, recordEvictionPid, evictionLineLen_eq] at done
    simp only [Exporter.applyOp, recordEvictionPid, evictionLineLen_eq]
    exact recordLine_adds a word counted (evictionLine pid observerNs) done
  | flush f => cases line

/-- Run lemma: the lines of the calls, in order, are what is written, and the live file has the
last of them. -/
theorem Counted.run (word : max < u64Bound) (counted : Counted max s) {ops : List Op}
    (recorded : Steps.Guarded Exporter.applyOp (fun s op => op.recorded s = true) s ops) :
    let t := Steps.run Exporter.applyOp s ops
    let lines := numbered s.serial (ops.filterMap Op.line)
    Counted max t ∧ t.stream = s.stream ++ lines ∧ t.livePieces <:+ s.livePieces ++ lines := by
  induction ops generalizing s with
  | nil => exact ⟨counted, (List.append_nil _).symm, by simp [numbered]⟩
  | cons op ops ih =>
    obtain ⟨done, recorded⟩ := recorded
    cases line : op.line with
    | none =>
      cases op with
      | record | recordEvictionPid => cases line
      | flush f =>
        obtain ⟨counted', serial, stream, pieces⟩ := counted.flush f
        have rest := ih counted' recorded
        rw [serial, stream, pieces] at rest
        rw [List.filterMap_cons, line]
        exact rest
    | some text =>
      obtain ⟨counted', serial, stream, pieces⟩ := counted.applyOp word line done
      obtain ⟨final, wrote, suffix⟩ := ih counted' recorded
      rw [List.filterMap_cons, line]
      refine ⟨final, ?_, ?_⟩
      · rw [Steps.run_cons, wrote, stream, serial, List.append_assoc]
        rfl
      · rw [serial] at suffix
        obtain ⟨front, shape⟩ := pieces
        refine suffix.trans ⟨front, ?_⟩
        rw [← List.append_assoc, shape, List.append_assoc]
        rfl

theorem create_counted {o : OpenAnswers} {syncEvery : Nat} {fs : Files Path Bytes} (wf : fs.Wf)
    (made : create o (some max) syncEvery fs = .ok s) :
    Counted max s ∧ s.stream = [] ∧ s.serial = 0 := by
  have fresh := create_fresh wf made
  unfold create at made
  simp only [bind, Except.bind] at made
  split at made
  · cases made
  split at made
  · cases made
  next found located =>
    split at made
    · cases made
    · cases made
      refine ⟨⟨fresh.toOpened, rfl, rfl, ?_⟩, rfl, rfl⟩
      rw [fresh.toOpened.livePieces rfl, List.append_nil]
      rfl

/-- The count of the exporter is the length of the live file and its buffer after every run
whose events and evictions were recorded without an error. Each of them has written its line
and nothing else, in order, a row of six columns, and a message can be read back from its
column. -/
theorem export_accounted {o : OpenAnswers} {max syncEvery : Nat} {fs : Files Path Bytes} {s : Sys}
    (wf : fs.Wf) (word : max < u64Bound) (made : create o (some max) syncEvery fs = .ok s)
    {ops : List Op} (recorded : Steps.Guarded applyOp (fun s op => op.recorded s = true) s ops) :
    let t := Steps.run applyOp s ops
    let lines := numbered 0 (ops.filterMap Op.line)
    t.exporter.bytesWritten = totalLength t.livePieces ∧ t.stream = lines ∧
      t.livePieces <:+ s.livePieces ++ lines ∧
      (∀ op ∈ ops, ∀ text, op.line = some text → IsRow text) ∧
      Function.Injective escapedTsvField := by
  obtain ⟨counted, nothing, first⟩ := create_counted wf made
  obtain ⟨final, wrote, suffix⟩ := counted.run word recorded
  rw [nothing, first] at wrote
  rw [first] at suffix
  exact ⟨final.counted, wrote, suffix, fun op _ text line => isRow_of_line line,
    escapedTsvField_injective⟩

/-- A beat, a message with a tab in it, an eviction and a flush. -/
def mixedEvents : List Op :=
  [beatLine 1 quietAnswers, .record (.decode [0x61, 0x09, 0x62] 2) quietAnswers,
    .recordEvictionPid 42 3 quietAnswers, .flush ⟨none, 0⟩]

/-- The count after a run, if the run has recorded all its events. -/
def countOf (ops : List Op) : Option Nat :=
  match fullExporter 0 with
  | .ok s =>
    if Steps.Guarded applyOp (fun s op => op.recorded s = true) s ops then
      some (Steps.run applyOp s ops).exporter.bytesWritten
    else none
  | .error _ => none

set_option maxRecDepth 20000 in
/-- The beat fills the file and is rotated away with it; the other two lines are counted. -/
theorem export_accounted_mixed :
    countOf mixedEvents = some 40 ∧
      ∃ s, fullExporter 0 = .ok s ∧ (Steps.run applyOp s mixedEvents).exporter.bytesWritten =
        totalLength (Steps.run applyOp s mixedEvents).livePieces := by
  have count : countOf mixedEvents = some 40 := by decide +kernel
  refine ⟨count, ?_⟩
  unfold countOf at count
  split at count
  next s opened =>
    split at count
    next recorded =>
      have accounted := export_accounted (fullDirectory_wf 0) (by decide) opened recorded
      exact ⟨s, opened, accounted.1⟩
    next => cases count
  next => cases count

end Varta.Exporter
