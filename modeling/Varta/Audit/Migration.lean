import Varta.Audit.AuditRun

/-!
# Migration

A file of an older format keeps its bytes and gets a v2 header behind them, once. Its head never
looks like v2, so every later open has to find that header again by searching the file; it finds
no other, because no record ends like a header and the old bytes hold none.
-/
namespace Varta.Audit

open Machine
open Vlp (Bytes32)

/-! ### A migrated file -/

/-- Bytes that `create` migrates: a file that is not empty, does not start with the text of the
header and holds no header line. -/
structure Unmigrated (content : Bytes) : Prop where
  nonempty : content ≠ []
  head : ¬ auditHeaderText <+: content
  header : ¬ auditHeaderV2 <:+: content

/-- The old bytes, the header, and the records behind it. -/
def migratedFile (content : Bytes) (records : List Record) : Bytes :=
  content ++ auditHeaderV2 ++ Lines.terminated newline (records.map Record.line)

/-- The header text starts with the only hash mark in it. -/
theorem hashMark_only_first : ∀ n < auditHeaderText.length, auditHeaderText[n]? = some hashMark →
    n = 0 := by
  decide +kernel

variable {records : List Record} {inode : Nat} {prev : Bytes32} {fs : Fs}

variable {content : Bytes}

theorem Unmigrated.head_migratedFile (old : Unmigrated content) (rest : Bytes) :
    ¬ auditHeaderText <+: content ++ (auditHeaderV2 ++ rest) := by
  intro begins
  by_cases room : auditHeaderText.length ≤ content.length
  · exact old.head (List.prefix_of_prefix_length_le begins (List.prefix_append ..) room)
  · -- the old bytes end inside the text, and the next byte is the first of the new header
    have place : content.length < auditHeaderText.length := Nat.lt_of_not_le room
    have mark : auditHeaderText[content.length]? = some hashMark := by
      obtain ⟨after, shape⟩ := begins
      have byte : (auditHeaderText ++ after)[content.length]? =
          (content ++ (auditHeaderV2 ++ rest))[content.length]? := by rw [shape]
      rw [List.getElem?_append_left place, List.getElem?_append_right (Nat.le_refl _),
        Nat.sub_self] at byte
      exact byte
    exact old.nonempty (List.eq_nil_of_length_eq_zero (hashMark_only_first _ place mark))

/-- The old bytes as lines, with the header at the end of the last one. -/
theorem migratedFile_lines (content : Bytes) : ∃ lines torn,
    content = Lines.terminated newline lines ++ torn ∧
      ∀ records, migratedFile content records =
        Lines.terminated newline (lines ++ (torn ++ auditHeaderText) :: records.map Record.line) ∧
          ∀ line ∈ lines ++ (torn ++ auditHeaderText) :: records.map Record.line, newline ∉ line := by
  obtain ⟨lines, torn, rfl, clear, clearTorn⟩ := Lines.exists_terminated newline content
  refine ⟨lines, torn, rfl, fun records => ⟨?_, ?_⟩⟩
  · simp [migratedFile, auditHeaderV2, Lines.terminated_append]
  · simp only [List.forall_mem_append, List.forall_mem_cons]
    refine ⟨clear, ?_, newline_not_mem_lines records⟩
    simp [clearTorn, newline_not_mem_auditHeaderText]

/-- A line of the old bytes does not end in the text of the header. -/
theorem Unmigrated.line_not_header (old : Unmigrated content) {before later : List Bytes}
    {line torn : Bytes}
    (shape : content = Lines.terminated newline (before ++ line :: later) ++ torn) :
    ¬ auditHeaderText <:+ line := by
  rintro ⟨front, rfl⟩
  refine old.header ⟨Lines.terminated newline before ++ front,
    Lines.terminated newline later ++ torn, ?_⟩
  rw [shape]
  simp [Lines.terminated_append, auditHeaderV2]

/-- The header is where the old bytes end, and nowhere else. -/
theorem Unmigrated.header_unique (old : Unmigrated content) {pre post : Bytes}
    (occurs : migratedFile content records = pre ++ auditHeaderV2 ++ post) : pre = content := by
  obtain ⟨lines, torn, shape, shaped⟩ := migratedFile_lines content
  obtain ⟨file, clear⟩ := shaped records
  have place : auditHeaderText ++ [newline] <+:
      (Lines.terminated newline (lines ++ (torn ++ auditHeaderText) :: records.map Record.line) ++
        []).drop pre.length := by
    rw [List.append_nil, ← file, occurs, List.append_assoc, List.drop_left]
    exact List.prefix_append ..
  obtain ⟨before, line, later, split, ends, position⟩ := Lines.occurrence_terminated newline
    auditHeaderText newline_not_mem_auditHeaderText _ [] clear (by simp) pre.length place
  -- a hit at the end of the line that the header was added to is the header
  have here (same : before = lines) (last : line = torn ++ auditHeaderText) : pre = content := by
    have length : pre.length = content.length := by
      rw [position, same, last, shape]
      simp
    have begins : content <+: pre ++ auditHeaderV2 ++ post := by
      rw [← occurs, migratedFile, List.append_assoc]
      exact List.prefix_append ..
    rw [List.append_assoc] at begins
    exact (List.prefix_of_prefix_length_le (List.prefix_append pre _) begins
      (Nat.le_of_eq length)).eq_of_length length
  rcases List.append_eq_append_iff.mp split with ⟨mid, rfl, rest⟩ | ⟨mid, rfl, rest⟩
  · cases mid with
    | nil => exact here (List.append_nil lines) (List.cons.inj rest).1.symm
    | cons m mid =>
      -- the hit is in a record
      have member : line ∈ records.map Record.line := by
        rw [(List.cons.inj rest).2]
        exact List.mem_append_right mid (List.mem_cons_self ..)
      obtain ⟨r, -, rfl⟩ := List.mem_map.mp member
      exact absurd ends r.not_ends_in_header
  · cases mid with
    | nil => exact here (List.append_nil before).symm (List.cons.inj rest).1
    | cons m mid =>
      -- the hit is in the old bytes
      obtain ⟨rfl, rfl⟩ := List.cons.inj rest
      exact absurd ends (old.line_not_header shape)

/-! ### The probe -/

/-- The first open finds no header, and starts a new chain. -/
theorem Unmigrated.probe_first (old : Unmigrated content) :
    (probeTailFile content).hasV2Header = false ∧ (probeTailFile content).truncateTo = none ∧
      (probeTailFile content).lastSeq = 0 ∧ (probeTailFile content).lastChain = .zero := by
  have nonempty : ¬ content.length = 0 := fun empty =>
    old.nonempty (List.eq_nil_of_length_eq_zero empty)
  have unversioned : ¬ auditHeaderText.isPrefixOf (headStr content) = true :=
    fun head => old.head ((headIsV2_iff _).mp head).2
  have missing : lastV2HeaderEnd content = none := by
    rw [lastV2HeaderEnd, Option.map_eq_none_iff,
      Lines.lastOccurrence_eq_none_iff _ (by decide +kernel)]
    exact fun j occurs => old.header (occurs.isInfix.trans (List.drop_suffix j content).isInfix)
  simp only [probeTailFile, if_neg nonempty, if_neg unversioned, missing, and_self]

theorem lastV2HeaderEnd_migratedFile (content : Bytes) (records : List Record) :
    lastV2HeaderEnd (migratedFile content records) =
      some (content.length + auditHeaderV2.length) := by
  obtain ⟨lines, torn, shape, shaped⟩ := migratedFile_lines content
  obtain ⟨file, clear⟩ := shaped records
  have last : ∀ line ∈ records.map Record.line, ¬ auditHeaderText <:+ line := by
    simpa using fun r _ => r.not_ends_in_header
  have found := Lines.lastOccurrence_terminated newline auditHeaderText
    newline_not_mem_auditHeaderText lines (torn ++ auditHeaderText) (records.map Record.line) []
    clear (by simp) (List.suffix_append ..) last
  rw [List.append_nil, ← file] at found
  rw [lastV2HeaderEnd, show auditHeaderV2 = auditHeaderText ++ [newline] from rfl, found, shape]
  simp

/-- Every later open finds that header, and resumes at the last record behind it. -/
theorem Unmigrated.probe_again (old : Unmigrated content) (records : List Record) (r : Record) :
    probeTailFile (migratedFile content (records ++ [r])) =
      ⟨r.seq, r.chain.raw, .resume, none, true⟩ := by
  have nonempty : ¬ (migratedFile content (records ++ [r])).length = 0 := by
    simp [migratedFile, auditHeaderV2_length]
  have unversioned :
      ¬ auditHeaderText.isPrefixOf (headStr (migratedFile content (records ++ [r]))) = true := by
    intro head
    have begins := ((headIsV2_iff _).mp head).2
    rw [migratedFile, List.append_assoc] at begins
    exact old.head_migratedFile _ begins
  have region : (migratedFile content (records ++ [r])).drop
      (content.length + auditHeaderV2.length) =
        Lines.terminated newline ((records ++ [r]).map Record.line) ++ [] := by
    rw [migratedFile, ← List.length_append, List.drop_left, List.append_nil]
  simp only [probeTailFile, if_neg nonempty, if_neg unversioned, lastV2HeaderEnd_migratedFile,
    region]
  have clear := newline_not_mem_lines (records ++ [r])
  rw [List.map_append, List.map_singleton] at clear ⊢
  have clean := regionProbe_clean (records.map Record.line) r.line clear
    (content.length + auditHeaderV2.length)
  rw [regionProbe] at clean
  rw [clean, cleanVerdict, r.parseRecord_line]

/-! ### Numbered and chained records -/

/-- Records in a row: numbered from `seq` on, as far as numbers go, and each chained to the one
before it, the first to `prev`. -/
def Continues (chainHash : Option (Bytes32 → Bytes → Bytes → Bytes32)) :
    Nat → Bytes32 → List Record → Prop
  | _, _, [] => True
  | seq, prev, r :: records =>
    r.seq = min seq (u64Bound - 1) ∧
      r.chain = chainHash.map (fun hash => hash prev r.entry.kind.asBytes (hashBody r.seq r.entry.body)) ∧
      Continues chainHash (seq + 1) r.chain.raw records

/-- The chain that the record behind these is hashed with. -/
def chainAfter (prev : Bytes32) : List Record → Bytes32
  | [] => prev
  | r :: records => chainAfter r.chain.raw records

theorem chainAfter_append (prev : Bytes32) (records more : List Record) :
    chainAfter prev (records ++ more) = chainAfter (chainAfter prev records) more := by
  induction records generalizing prev with
  | nil => rfl
  | cons r records ih => exact ih r.chain.raw

variable {chainHash : Option (Bytes32 → Bytes → Bytes → Bytes32)} {seq : Nat}

theorem continues_append {more : List Record} :
    Continues chainHash seq prev (records ++ more) ↔ Continues chainHash seq prev records ∧
      Continues chainHash (seq + records.length) (chainAfter prev records) more := by
  induction records generalizing seq prev with
  | nil => simp [Continues, chainAfter]
  | cons r records ih =>
    simp only [List.cons_append, Continues, ih, chainAfter, List.length_cons, and_assoc]
    rw [Nat.add_right_comm, Nat.add_assoc]

/-- Behind the last number, every number is the last. -/
theorem Continues.of_min {seq' : Nat} (row : Continues chainHash seq prev records)
    (same : min seq (u64Bound - 1) = min seq' (u64Bound - 1)) :
    Continues chainHash seq' prev records := by
  induction records generalizing seq seq' prev with
  | nil => trivial
  | cons r records ih =>
    obtain ⟨number, link, rest⟩ := row
    exact ⟨number.trans same, link, ih rest (by omega)⟩

theorem Continues.seq_eq (row : Continues chainHash seq prev records) {n : Nat} {r : Record}
    (at_n : records[n]? = some r) : r.seq = min (seq + n) (u64Bound - 1) := by
  induction records generalizing seq prev n with
  | nil => cases at_n
  | cons first records ih =>
    cases n with
    | zero =>
      cases at_n
      exact row.1
    | succ n =>
      rw [ih row.2.2 at_n]
      congr 1
      omega

/-! ### One life of the log -/

/-- A daemon that opens the log and makes calls on it. -/
structure Life where
  env : Nat → Answer
  cfg : AuditConfig
  path : String
  nlink : Nat
  ops : List AuditOp

/-- A record is queued while there is room in the ring, and rotation is driven while none is due. -/
def persists (s : Sys) : AuditOp → Bool
  | .recordSpawn _ | .recordRefused _ | .recordComplete _ =>
    decide (s.log.pendingLines.length < auditRingCap)
  | .flushPending _ => true
  | .driveAuditRotation _ =>
    decide (s.log.rotationProgress = .idle) && !s.log.needsRotation

section

variable (chainHash : Option (Bytes32 → Bytes → Bytes → Bytes32))

/-- The directory after a life that has persisted all its records. -/
def Life.live (fs : Fs) (life : Life) : Option Fs :=
  match create chainHash life.env life.cfg life.path life.nlink fs with
  | .error _ => none
  | .ok (s, _) =>
    let t := Steps.run (applyOp chainHash life.env) s life.ops
    if Steps.Guarded (applyOp chainHash life.env) (fun s op => persists s op = true) s life.ops ∧
        t.log.pendingLines.isEmpty ∧ t.log.sink.buffer.isEmpty then some t.fs
    else none

/-- One life after the other over the same directory. -/
def liveAll : Fs → List Life → Option Fs
  | fs, [] => some fs
  | fs, life :: lives => (life.live chainHash fs).bind fun fs => liveAll fs lives

variable {chainHash}

/-- What a log has emitted since it was in `s`, numbered from `seq` on. The last of it is what the
next record is chained to. -/
structure Emits (chainHash : Option (Bytes32 → Bytes → Bytes → Bytes32)) (s : Sys) (seq : Nat)
    (prev : Bytes32) (new : List Record) (t : Sys) : Prop where
  named : t.fs.live = some t.log.sink.inode
  inode : t.log.sink.inode = s.log.sink.inode
  file : ∃ accepted : List Record, t.fs.files s.log.sink.inode ++ t.log.sink.buffer =
    s.fs.files s.log.sink.inode ++ s.log.sink.buffer ++ accepted.map .line
  stream : t.stream = s.stream ++ new
  continues : Continues chainHash seq prev new
  nextSeq : t.log.nextSeq = min (seq + new.length) (u64Bound - 1)
  prevChain : chainHash.isSome → t.log.prevChain = chainAfter prev new

variable {seq : Nat} {new : List Record} {s t u : Sys}

theorem Emits.moves (emits : Emits chainHash s seq prev new t) (moves : Moves t u) :
    Emits chainHash s seq prev new u where
  named := by rw [moves.live, moves.inode, emits.named]
  inode := moves.inode.trans emits.inode
  file := by
    obtain ⟨accepted, file⟩ := emits.file
    obtain ⟨more, rest⟩ := moves.file
    rw [emits.inode] at rest
    refine ⟨accepted ++ more, ?_⟩
    rw [rest, file, List.map_append, List.append_assoc]
  stream := moves.stream.trans emits.stream
  continues := emits.continues
  nextSeq := moves.nextSeq.trans emits.nextSeq
  prevChain on := moves.prevChain.trans (emits.prevChain on)

/-- The next record continues the row. -/
theorem Emits.formatRecord (emits : Emits chainHash s seq prev new t) (entry : Entry)
    (fs : u.fs = t.fs) (sink : u.log.sink = t.log.sink)
    (stream : u.stream = t.stream ++ [(Audit.formatRecord chainHash t.log entry).1])
    (nextSeq : u.log.nextSeq = (Audit.formatRecord chainHash t.log entry).2.nextSeq)
    (prevChain : u.log.prevChain = (Audit.formatRecord chainHash t.log entry).2.prevChain) :
    Emits chainHash s seq prev (new ++ [(Audit.formatRecord chainHash t.log entry).1]) u := by
  have number : (Audit.formatRecord chainHash t.log entry).1.seq = t.log.nextSeq := by
    cases chainHash <;> rfl
  have link : (Audit.formatRecord chainHash t.log entry).1.chain = chainHash.map fun hash =>
      hash (chainAfter prev new) entry.kind.asBytes (hashBody t.log.nextSeq entry.body) := by
    cases chainHash with
    | none => rfl
    | some hash =>
      rw [Option.map_some, ← emits.prevChain rfl]
      rfl
  have same : (Audit.formatRecord chainHash t.log entry).1.entry = entry := by
    cases chainHash <;> rfl
  refine ⟨by rw [fs, sink, emits.named], by rw [sink, emits.inode], by rw [fs, sink]; exact emits.file,
    ?_, continues_append.mpr ⟨emits.continues, ?_, ?_, trivial⟩, ?_, fun on => ?_⟩
  · rw [stream, emits.stream, List.append_assoc]
  · rw [number, emits.nextSeq]
  · rw [link, number, same]
  · have advanced : (Audit.formatRecord chainHash t.log entry).2.nextSeq =
        u64SaturatingAdd t.log.nextSeq 1 := by
      cases chainHash <;> rfl
    rw [nextSeq, advanced, emits.nextSeq, u64SaturatingAdd, List.length_append,
      List.length_singleton]
    omega
  · rw [chainAfter_append, prevChain]
    cases chainHash with
    | none => cases on
    | some hash => rfl

theorem formatRecord_kept (log : RecoveryAuditLog) (entry : Entry) :
    (Audit.formatRecord chainHash log entry).2.sink = log.sink ∧
      (Audit.formatRecord chainHash log entry).2.pendingLines = log.pendingLines := by
  cases chainHash <;> exact ⟨rfl, rfl⟩

theorem Emits.emit (emits : Emits chainHash s seq prev new t) (entry : Entry)
    (room : t.log.pendingLines.length < auditRingCap) :
    ∃ more, Emits chainHash s seq prev (new ++ more)
      { t with log := emit chainHash t.log entry } := by
  have kept := @formatRecord_kept chainHash t.log entry
  refine ⟨[(Audit.formatRecord chainHash t.log entry).1], ?_⟩
  rw [Audit.emit, if_neg (Nat.not_le_of_lt room)]
  apply emits.formatRecord
  · rfl
  · exact kept.1
  · simp only [Sys.stream, kept.1, kept.2, List.append_assoc]
  · rfl
  · rfl

section

variable (emits : Emits chainHash s seq prev new t) (env : Nat → Answer)

include emits

theorem Emits.boot (ring : t.log.pendingLines = []) (reason : BootReason)
    (bootPrev : Option Bytes32) :
    ∃ r, Emits chainHash s seq prev (new ++ [r]) (emitBoot chainHash env t reason bootPrev) := by
  let entry : Entry := .boot ⟨(ask env t).wallclockMs, t.log.daemonPid, bootPrev, reason⟩
  have kept := @formatRecord_kept chainHash t.tick.log entry
  have room : t.tick.log.pendingLines.length < auditRingCap := by
    rw [show t.tick.log.pendingLines = [] from ring]
    decide
  refine ⟨(Audit.formatRecord chainHash t.tick.log entry).1,
    Emits.moves ?_ (emitDirect_same env chainHash t.tick entry room)⟩
  apply (emits.moves (same_tick t)).formatRecord
  · rfl
  · exact kept.1
  · -- the ring is empty, so its front is its end
    have ring' : (Audit.formatRecord chainHash t.tick.log entry).2.pendingLines = [] :=
      kept.2.trans ring
    simp only [Sys.stream, Sys.pushFront, kept.1, ring', show t.tick.log.pendingLines = [] from ring,
      List.append_nil, List.append_assoc]
  · rfl
  · rfl

theorem Emits.applyOp {op : AuditOp} (allowed : persists t op = true) :
    ∃ more, Emits chainHash s seq prev (new ++ more) (applyOp chainHash env t op) := by
  cases op with
  | recordSpawn rec => exact emits.emit (.spawn rec) (of_decide_eq_true allowed)
  | recordRefused rec => exact emits.emit (.refused rec) (of_decide_eq_true allowed)
  | recordComplete rec => exact emits.emit (.complete rec) (of_decide_eq_true allowed)
  | flushPending budget =>
    refine ⟨[], ?_⟩
    rw [List.append_nil]
    exact emits.moves (flushPending_same env budget t)
  | driveAuditRotation budget =>
    obtain ⟨idle, due⟩ := Bool.and_eq_true_iff.mp allowed
    refine ⟨[], ?_⟩
    rw [List.append_nil, Audit.applyOp, driveAuditRotation,
      if_pos ⟨of_decide_eq_true idle, by simpa using due⟩]
    exact emits

/-- Run lemma: the calls of a life. -/
theorem Emits.run {ops : List AuditOp}
    (allowed : Steps.Guarded (Audit.applyOp chainHash env) (fun s op => persists s op = true) t ops) :
    ∃ more, Emits chainHash s seq prev (new ++ more)
      (Steps.run (Audit.applyOp chainHash env) t ops) := by
  induction ops generalizing t new with
  | nil => exact ⟨[], by rw [List.append_nil]; exact emits⟩
  | cons op ops ih =>
    obtain ⟨more, next⟩ := emits.applyOp env allowed.1
    obtain ⟨rest, last⟩ := ih next allowed.2
    exact ⟨more ++ rest, by rw [← List.append_assoc]; exact last⟩

end

/-- The log over a probed file, before its boot record. -/
structure Probed (inode : Nat) (fs : Fs) (probe : TailProbe) (s : Sys) : Prop where
  sink : s.log.sink = ⟨inode, []⟩
  ring : s.log.pendingLines = []
  nextSeq : s.log.nextSeq = u64SaturatingAdd probe.lastSeq 1
  prevChain : s.log.prevChain = probe.lastChain
  live : s.fs.live = fs.live
  file : probe.truncateTo = none →
    s.fs.files inode = fs.files inode ++ if probe.hasV2Header then [] else [.raw auditHeaderV2]

theorem openProbed_probed {env : Nat → Answer} {cfg : AuditConfig} {probe : TailProbe}
    (opened : openProbed env cfg inode fs probe = .ok s) : Probed inode fs probe s := by
  unfold openProbed at opened
  dsimp only at opened
  cases truncated : probe.truncateTo with
  | none =>
    simp only [truncated, Option.bind_none] at opened
    split at opened
    next header =>
      cases opened
      cases (env 3).syncDir <;> exact ⟨rfl, rfl, rfl, rfl, rfl, fun _ => by simp [header]⟩
    next missing =>
      split at opened
      · cases opened
      · cases opened
        have file : (fs.append inode [.raw auditHeaderV2]).files inode =
            fs.files inode ++ if probe.hasV2Header then [] else [.raw auditHeaderV2] := by
          rw [if_neg missing]
          exact Function.update_self ..
        cases (env 3).syncDir <;> exact ⟨rfl, rfl, rfl, rfl, rfl, fun _ => file⟩
  | some n =>
    -- a file that was cut is nobody's to describe here
    have cut : probe.truncateTo ≠ none := by simp [truncated]
    simp only [truncated, Option.bind_some] at opened
    split at opened
    · cases opened
    split at opened
    · cases opened
      cases (env 3).syncDir <;> exact ⟨rfl, rfl, rfl, rfl, rfl, fun whole => absurd whole cut⟩
    · split at opened
      · cases opened
      · cases opened
        cases (env 3).syncDir <;> exact ⟨rfl, rfl, rfl, rfl, rfl, fun whole => absurd whole cut⟩

theorem recordsOf_lines (records : List Record) : recordsOf (records.map .line) = records := by
  induction records with
  | nil => rfl
  | cons r records ih => exact congrArg (r :: ·) ih

/-- Once nothing is left in the ring and in the buffer, the file has what was emitted. -/
theorem Emits.persisted (emits : Emits chainHash s seq prev new t)
    (idle : s.log.pendingLines = []) (clear : s.log.sink.buffer = [])
    (ring : t.log.pendingLines = []) (buffer : t.log.sink.buffer = []) :
    t.fs.files s.log.sink.inode = s.fs.files s.log.sink.inode ++ new.map .line := by
  obtain ⟨accepted, file⟩ := emits.file
  rw [clear, buffer, List.append_nil, List.append_nil] at file
  have emitted := emits.stream
  simp only [Sys.stream, idle, clear, ring, buffer, emits.inode, file, recordsOf_append,
    recordsOf_lines, recordsOf_nil, List.append_nil] at emitted
  rw [file, List.append_cancel_left emitted]

/-- A life over a file that its probe leaves whole: what the file holds stays in front of the
header, where that was missing, and of new records that continue where the probe has found the
file to end. -/
structure Appends (chainHash : Option (Bytes32 → Bytes → Bytes → Bytes32)) (probe : TailProbe)
    (inode : Nat) (fs : Fs) (new : List Record) (fs' : Fs) : Prop where
  live : fs'.live = some inode
  booted : new ≠ []
  file : fs'.files inode =
    fs.files inode ++ (if probe.hasV2Header then [] else [.raw auditHeaderV2]) ++ new.map .line
  continues : Continues chainHash (probe.lastSeq + 1) probe.lastChain new

theorem Life.live_appends {life : Life} {fs' : Fs} (live : fs.live = some inode)
    (whole : (probeTailFile (fs.bytesOf inode)).truncateTo = none)
    (lived : life.live chainHash fs = some fs') :
    ∃ new, Appends chainHash (probeTailFile (fs.bytesOf inode)) inode fs new fs' := by
  have openLive : fs.openLive = (inode, fs) := by rw [Fs.openLive, live]
  unfold Life.live at lived
  split at lived
  · cases lived
  next s warnings opened =>
    dsimp only at lived
    split at lived
    next conditions =>
      cases lived
      obtain ⟨allowed, ring, buffer⟩ := conditions
      obtain ⟨u, prev, found, booted⟩ := create_ok chainHash life.env opened
      have probed := openProbed_probed found
      rw [openLive] at probed booted
      generalize probeTailFile (fs.bytesOf inode) = probe at *
      have start : Emits chainHash u (probe.lastSeq + 1) probe.lastChain [] u :=
        ⟨by rw [probed.live, probed.sink, live], rfl, ⟨[], (List.append_nil _).symm⟩,
          (List.append_nil _).symm, trivial, probed.nextSeq, fun _ => probed.prevChain⟩
      obtain ⟨r, boot⟩ := start.boot life.env probed.ring probe.reason prev
      rw [← booted] at boot
      obtain ⟨more, emits⟩ := boot.run life.env allowed
      have file := emits.persisted probed.ring (by rw [probed.sink]) (List.isEmpty_iff.mp ring)
        (List.isEmpty_iff.mp buffer)
      have named := emits.named
      rw [emits.inode, probed.sink] at named
      rw [probed.sink, probed.file whole] at file
      exact ⟨[] ++ [r] ++ more, named, by simp, file, emits.continues⟩
    · cases lived

/-! ### One life after the other -/

/-- The live file holds the old pieces, the header and a row of records that starts there. -/
structure Migrated (chainHash : Option (Bytes32 → Bytes → Bytes → Bytes32)) (inode : Nat)
    (old : List Chunk) (records : List Record) (fs : Fs) : Prop where
  live : fs.live = some inode
  file : fs.files inode = old ++ .raw auditHeaderV2 :: records.map .line
  continues : Continues chainHash 1 .zero records

section

variable {old : List Chunk} {fs' : Fs} {lives : List Life}

theorem Migrated.bytesOf (migrated : Migrated chainHash inode old records fs) :
    fs.bytesOf inode = migratedFile (old.flatMap Chunk.bytes) records := by
  have lines : (records.map Chunk.line).flatMap Chunk.bytes =
      Lines.terminated newline (records.map Record.line) := by
    rw [List.flatMap_map, Lines.terminated, List.flatMap_map]
    rfl
  rw [Fs.bytesOf, migrated.file, List.flatMap_append, List.flatMap_cons, lines, migratedFile,
    List.append_assoc]
  rfl

section

variable (migrated : Migrated chainHash inode old records fs)
  (unmigrated : Unmigrated (old.flatMap Chunk.bytes)) (some_record : records ≠ [])

include migrated unmigrated some_record

/-- Step lemma: a life over a migrated file. -/
theorem Migrated.next {life : Life} (lived : life.live chainHash fs = some fs') :
    ∃ new, new ≠ [] ∧ Migrated chainHash inode old (records ++ new) fs' := by
  obtain ⟨before, r, rfl⟩ := List.eq_nil_or_concat records |>.resolve_left some_record
  rw [List.concat_eq_append] at *
  have probe := unmigrated.probe_again before r
  rw [← migrated.bytesOf] at probe
  obtain ⟨new, appends⟩ := Life.live_appends migrated.live (by rw [probe]) lived
  refine ⟨new, appends.booted, appends.live, ?_, ?_⟩
  · rw [appends.file, probe, if_pos rfl, List.append_nil, migrated.file, List.append_assoc,
      List.cons_append, ← List.map_append]
  · refine continues_append.mpr ⟨migrated.continues, ?_⟩
    have row := appends.continues
    have number := (continues_append.mp migrated.continues).2.1
    rw [probe] at row
    rw [chainAfter_append]
    refine row.of_min ?_
    dsimp only
    rw [number, List.length_append, List.length_singleton]
    omega

/-- Run lemma: all further lives. -/
theorem Migrated.liveAll (lived : Audit.liveAll chainHash fs lives = some fs') :
    ∃ more, lives.length ≤ more.length ∧ Migrated chainHash inode old (records ++ more) fs' := by
  induction lives generalizing fs records with
  | nil =>
    cases lived
    exact ⟨[], Nat.le_refl 0, by rwa [List.append_nil]⟩
  | cons life lives ih =>
    obtain ⟨mid, first, rest⟩ := Option.bind_eq_some_iff.mp lived
    obtain ⟨new, booted, next⟩ := migrated.next unmigrated some_record first
    obtain ⟨more, enough, last⟩ := ih next (by simp [some_record]) rest
    refine ⟨new ++ more, ?_, by rwa [← List.append_assoc]⟩
    have one := List.length_pos_iff.mpr booted
    rw [List.length_append, List.length_cons]
    omega

end

/-- The first life migrates the file, and all lives leave one row of records in it. -/
theorem liveAll_migrated (live : fs.live = some inode)
    (unmigrated : Unmigrated (fs.bytesOf inode)) (opened : lives ≠ [])
    (lived : Audit.liveAll chainHash fs lives = some fs') :
    ∃ records, lives.length ≤ records.length ∧
      Migrated chainHash inode (fs.files inode) records fs' := by
  cases lives with
  | nil => exact absurd rfl opened
  | cons life lives =>
    obtain ⟨mid, first, rest⟩ := Option.bind_eq_some_iff.mp lived
    obtain ⟨headless, whole, lastSeq, lastChain⟩ := unmigrated.probe_first
    obtain ⟨new, appends⟩ := Life.live_appends live whole first
    have row := appends.continues
    rw [lastSeq, lastChain] at row
    have migrated : Migrated chainHash inode (fs.files inode) new mid := by
      refine ⟨appends.live, ?_, row⟩
      rw [appends.file, headless, List.append_assoc]
      rfl
    obtain ⟨more, enough, last⟩ := migrated.liveAll unmigrated appends.booted rest
    refine ⟨new ++ more, ?_, last⟩
    have one := List.length_pos_iff.mpr appends.booted
    rw [List.length_append, List.length_cons]
    omega

/-- However often a log is opened over a file of an older format, the old bytes stay, one v2
header stands behind them, and one row of records behind that: numbered from 1, as far as
numbers go, and each chained to the one before it, over all lives. -/
theorem migration_once (live : fs.live = some inode)
    (unmigrated : Unmigrated (fs.bytesOf inode)) (opened : lives ≠ [])
    (lived : Audit.liveAll chainHash fs lives = some fs') :
    fs'.live = some inode ∧
      (∀ pre post, fs'.bytesOf inode = pre ++ auditHeaderV2 ++ post → pre = fs.bytesOf inode) ∧
      ∃ records, lives.length ≤ records.length ∧
        fs'.bytesOf inode = migratedFile (fs.bytesOf inode) records ∧
        (∀ n r, records[n]? = some r → r.seq = min (n + 1) (u64Bound - 1)) ∧
        Continues chainHash 1 .zero records := by
  obtain ⟨records, enough, migrated⟩ := liveAll_migrated live unmigrated opened lived
  refine ⟨migrated.live, fun pre post occurs => ?_, records, enough, migrated.bytesOf,
    fun n r at_n => ?_, migrated.continues⟩
  · rw [migrated.bytesOf] at occurs
    exact unmigrated.header_unique occurs
  · rw [migrated.continues.seq_eq at_n, Nat.add_comm]

end

end

/-- A directory whose live file is of an older format, and has lost its last newline. -/
def legacyFs : Fs where
  live := some 0
  gen := fun _ => none
  files := fun inode => if inode = 0 then [.raw (Bytes.ofString "recovery\n7 ok")] else []
  nextInode := 1
  events := []

theorem legacyFs_unmigrated : Unmigrated (legacyFs.bytesOf 0) :=
  ⟨by decide +kernel, by decide +kernel, by decide +kernel⟩

/-- A daemon that starts, makes these calls and meets no fault. -/
def quietLife (ops : List AuditOp) : Life :=
  ⟨fun _ => quietAnswer, AuditConfig.default 1, "audit", 1, ops⟩

def shortRefusal : RefusedRecord := ⟨0, 0, 7, ⟨Bytes.ofString "refused", by decide⟩⟩

/-- Two lives, the first with a record of its own. -/
def twoLives : List Life :=
  [quietLife [.recordRefused shortRefusal, .flushPending 1], quietLife []]

theorem migration_once_twice : ∃ fs', liveAll none legacyFs twoLives = some fs' ∧
    ∃ records, 2 ≤ records.length ∧
      fs'.bytesOf 0 = migratedFile (legacyFs.bytesOf 0) records ∧ Continues none 1 .zero records := by
  have lived : (liveAll none legacyFs twoLives).isSome = true := by decide +kernel
  obtain ⟨fs', lived⟩ := Option.isSome_iff_exists.mp lived
  obtain ⟨-, -, records, enough, bytes, -, row⟩ := migration_once rfl
    legacyFs_unmigrated (by decide) lived
  exact ⟨fs', lived, records, enough, bytes, row⟩

/-- A quiet start over a whole file leaves nothing on the way. -/
theorem quietLife_live (live : fs.live = some inode)
    (whole : (probeTailFile (fs.bytesOf inode)).truncateTo = none) :
    ∃ fs', (quietLife []).live none fs = some fs' := by
  have openLive : fs.openLive = (inode, fs) := by rw [Fs.openLive, live]
  unfold Life.live create createUnchecked
  rw [openLive]
  dsimp only
  generalize probeTailFile (fs.bytesOf inode) = probe at whole
  obtain ⟨lastSeq, lastChain, reason, truncateTo, header⟩ := probe
  cases whole
  cases header with
  | false | true => exact ⟨_, rfl⟩

theorem Migrated.quietLives {old : List Chunk} (migrated : Migrated none inode old records fs)
    (unmigrated : Unmigrated (old.flatMap Chunk.bytes)) (some_record : records ≠ []) (n : Nat) :
    ∃ fs', Audit.liveAll none fs (List.replicate n (quietLife [])) = some fs' := by
  induction n generalizing fs records with
  | zero => exact ⟨fs, rfl⟩
  | succ n ih =>
    have whole : (probeTailFile (fs.bytesOf inode)).truncateTo = none := by
      obtain ⟨before, r, rfl⟩ := List.eq_nil_or_concat records |>.resolve_left some_record
      rw [migrated.bytesOf, List.concat_eq_append, unmigrated.probe_again]
    obtain ⟨mid, lived⟩ := quietLife_live migrated.live whole
    obtain ⟨new, -, next⟩ := migrated.next unmigrated some_record lived
    obtain ⟨fs', rest⟩ := ih next (by simp [some_record])
    exact ⟨fs', by rw [List.replicate_succ, Audit.liveAll, lived, Option.bind_some, rest]⟩

theorem liveAll_legacyFs (n : Nat) :
    ∃ fs', liveAll none legacyFs (List.replicate (n + 1) (quietLife [])) = some fs' := by
  obtain ⟨mid, lived⟩ := quietLife_live rfl legacyFs_unmigrated.probe_first.2.1
  have once : liveAll none legacyFs [quietLife []] = some mid := by
    rw [liveAll, lived]
    rfl
  obtain ⟨records, enough, migrated⟩ := liveAll_migrated rfl legacyFs_unmigrated
    (List.cons_ne_nil _ _) once
  obtain ⟨fs', rest⟩ := migrated.quietLives legacyFs_unmigrated
    (List.length_pos_iff.mp enough) n
  exact ⟨fs', by rw [List.replicate_succ, Audit.liveAll, lived, Option.bind_some, rest]⟩

/-- As many opens as there are numbers: the last record cannot have the next one. -/
theorem migration_runs_out_of_numbers : ∃ fs',
    liveAll none legacyFs (List.replicate u64Bound (quietLife [])) = some fs' ∧
      ¬ ∃ records, fs'.bytesOf 0 = migratedFile (legacyFs.bytesOf 0) records ∧
        ∀ n r, records[n]? = some r → r.seq = n + 1 := by
  obtain ⟨fs', lived⟩ := liveAll_legacyFs (u64Bound - 1)
  have all : u64Bound - 1 + 1 = u64Bound := rfl
  rw [all] at lived
  refine ⟨fs', lived, fun ⟨records, bytes, numbered⟩ => ?_⟩
  obtain ⟨written, enough, migrated⟩ := liveAll_migrated rfl legacyFs_unmigrated
    (by rw [← all, List.replicate_succ]; exact List.cons_ne_nil _ _) lived
  -- the file says how many records there are
  have lines : written.map Record.line = records.map Record.line := by
    have same : migratedFile (legacyFs.bytesOf 0) written =
        migratedFile (legacyFs.bytesOf 0) records := migrated.bytesOf.symm.trans bytes
    have rows := List.append_cancel_left same
    have read := Lines.completeLines_terminated newline (written.map Record.line) []
      (newline_not_mem_lines written) List.not_mem_nil
    have read' := Lines.completeLines_terminated newline (records.map Record.line) []
      (newline_not_mem_lines records) List.not_mem_nil
    rw [← read, ← read', rows]
  have length : u64Bound - 1 < records.length := by
    have counted := congrArg List.length lines
    rw [List.length_map, List.length_map] at counted
    rw [List.length_replicate] at enough
    omega
  have last := numbered _ _ (List.getElem?_eq_getElem length)
  have bound := (records[u64Bound - 1]).seq_lt
  omega

end Varta.Audit
