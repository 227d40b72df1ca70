import Varta.Audit.TailProbe

/-!
# Audit writer

The log state of `audit/mod.rs` with the emit, write and flush paths of
`audit/writer.rs`. Time and the operating system are an oracle: each call consumes one
`Answer`, and every answer is possible.
-/
namespace Varta.Audit

open Machine
open Vlp (Bytes32)

/-! ### The environment -/

/-- An OS error on a path that exists. -/
inductive Fault where
  | crossDevice
  | other (errno : Nat)
  deriving DecidableEq, Repr

inductive IoError where
  | notFound
  | alreadyExists
  | fault (f : Fault)
  deriving DecidableEq, Repr

/-- `e.raw_os_error() == Some(EXDEV)`. -/
def IoError.isCrossDevice (e : IoError) : Bool := e = .fault .crossDevice

/-- What the environment says when it is asked next; a caller looks at the part that
belongs to its call. `none` is success. -/
structure Answer where
  instant : Nat
  wallclockMs : UInt64
  write : Option Fault
  headerWrite : Option Fault
  flush : Option Fault
  /-- Buffered pieces that a failing flush still hands to the kernel. -/
  flushed : Nat
  syncData : Option Fault
  removeFile : Option Fault
  rename : Option Fault
  renameLive : Option Fault
  /-- `try_clone_file` and the seek to the start. -/
  cloneSource : Option Fault
  openFile : Option Fault
  copy : Option Fault
  syncAll : Option Fault
  /-- The best-effort `remove_file(first)` after a failed copy. -/
  cleanup : Option Fault
  syncDir : Option Fault

/-- Nothing fails and no time passes. -/
def quietAnswer : Answer where
  instant := 0
  wallclockMs := 0
  write := none
  headerWrite := none
  flush := none
  flushed := 0
  syncData := none
  removeFile := none
  rename := none
  renameLive := none
  cloneSource := none
  openFile := none
  copy := none
  syncAll := none
  cleanup := none
  syncDir := none

/-! ### Files -/

/-- A piece of a file: one record line, or bytes that were there before (headers and
whatever an existing file held when it was opened). -/
inductive Chunk where
  | raw (bytes : Bytes)
  | line (r : Record)

def Chunk.bytes : Chunk → Bytes
  | .raw bytes => bytes
  | .line r => r.line ++ [newline]

def Chunk.record? : Chunk → Option Record
  | .raw _ => none
  | .line r => some r

/-- What rotation did to the generations: removed an existing `PATH.5`, or moved the live
file to `PATH.1`. -/
inductive DirEvent where
  | oldestRemoved
  | liveMoved
  deriving DecidableEq, Repr

/-- The directory of the audit log: the live path, `PATH.1` to `PATH.5`, the inodes they
name, and the trace of what rotation did so far. -/
structure Fs where
  live : Option Nat
  gen : Nat → Option Nat
  files : Nat → List Chunk
  nextInode : Nat
  events : List DirEvent

def Fs.append (fs : Fs) (inode : Nat) (chunks : List Chunk) : Fs :=
  { fs with files := Function.update fs.files inode (fs.files inode ++ chunks) }

/-! ### Log state -/

def auditRingCap : Nat := 256

def auditRotationGenerations : Nat := 5

inductive RotationProgress where
  | idle
  | renaming (nextGen : Nat)
  | finalizing
  | syncingDir
  deriving DecidableEq, Repr

inductive RotationOutcome where
  | notNeeded
  | deferred
  | complete
  deriving DecidableEq, Repr

/-- `BufWriter` over an append-mode file. -/
structure Sink where
  inode : Nat
  buffer : List Chunk

structure RecoveryAuditLog where
  sink : Sink
  maxBytes : Option Nat
  bytesWritten : Nat
  pendingErr : Option IoError
  nextSeq : Nat
  nextSeq_lt : nextSeq < u64Bound
  prevChain : Bytes32
  syncEvery : Nat
  writesSinceSync : Nat
  daemonPid : UInt32
  pendingLines : List Record
  auditDroppedTotal : Nat
  auditFlushBudgetExceededTotal : Nat
  fsyncBudget : Nat
  syncInterval : Option Nat
  lastSyncAt : Option Nat
  auditFsyncBudgetExceededTotal : Nat
  auditRotationBudgetExceededTotal : Nat
  deferredFsyncInDrain : Bool
  needsRotation : Bool
  rotationProgress : RotationProgress

/-- The log, its directory, and how often the environment has been asked. -/
structure Sys where
  log : RecoveryAuditLog
  fs : Fs
  asked : Nat

section

variable (env : Nat → Answer)

def ask (s : Sys) : Answer := env s.asked

def Sys.tick (s : Sys) : Sys := { s with asked := s.asked + 1 }

/-- `sink.write_all`: the whole piece goes into the buffer, or nothing does. -/
def bufWrite (s : Sys) (chunk : Chunk) : Sys :=
  { s with log := { s.log with sink := { s.log.sink with buffer := s.log.sink.buffer ++ [chunk] } } }

/-- Hand the first `n` buffered pieces to the kernel. -/
def spill (s : Sys) (n : Nat) : Sys :=
  { s with
    fs := s.fs.append s.log.sink.inode (s.log.sink.buffer.take n)
    log := { s.log with sink := { s.log.sink with buffer := s.log.sink.buffer.drop n } } }

/-- Flush the buffer to the kernel, then `fdatasync`; on success the sync's duration. -/
def flushAndSync (s : Sys) : Except IoError Nat × Sys :=
  match (ask env s).flush with
  -- `BufWriter` keeps what it could not write, and has written the rest
  | some f => (.error (.fault f), (spill s (ask env s).flushed).tick)
  | none =>
    let s := (spill s s.log.sink.buffer.length).tick
    -- only the `fdatasync` is timed, not the flush
    let t0 := (ask env s).instant
    match (ask env s).syncData with
    | some f => (.error (.fault f), s.tick)
    | none =>
      let s := s.tick
      let now := (ask env s).instant
      let d := now - t0
      let log := { s.log with
        auditFsyncBudgetExceededTotal :=
          if d > s.log.fsyncBudget then u64SaturatingAdd s.log.auditFsyncBudgetExceededTotal 1
          else s.log.auditFsyncBudgetExceededTotal
        lastSyncAt := some now }
      (.ok d, { s with log := log }.tick)

def flushDueAcceptedWrites (s : Sys) : Bool × Sys :=
  match flushAndSync env s with
  | (.ok d, s) =>
    (true, { s with log := { s.log with
      writesSinceSync := 0
      -- a slow sync puts off the other syncs of this drain
      deferredFsyncInDrain := s.log.deferredFsyncInDrain || decide (d > s.log.fsyncBudget) } })
  | (.error e, s) => (false, { s with log := { s.log with pendingErr := some e } })

def acceptedWritesNeedSync (s : Sys) : Bool :=
  if s.log.writesSinceSync = 0 then false
  else if s.log.writesSinceSync ≥ s.log.syncEvery then true
  else
    match s.log.syncInterval, s.log.lastSyncAt with
    | some interval, some last => decide ((ask env s).instant - last ≥ interval)
    -- no sync yet: the interval has always passed
    | some _, none => true
    | none, _ => false

/-- Count an accepted line. -/
def acceptLine (s : Sys) (r : Record) : Sys :=
  let s := bufWrite s (.line r)
  { s with log := { s.log with
    bytesWritten := u64SaturatingAdd s.log.bytesWritten (r.line.length + 1)
    writesSinceSync := u32SaturatingAdd s.log.writesSinceSync 1 } }

/-- Sync when the cadence asks for it, unless an earlier slow sync of this drain put the
rest off. -/
def cadenceSync (s : Sys) : Sys :=
  if acceptedWritesNeedSync env s = true ∧ s.log.deferredFsyncInDrain = false then
    (flushDueAcceptedWrites env s.tick).2
  else s.tick

/-- Ask for a rotation once the file has reached its cap. -/
def armRotation (s : Sys) : Sys :=
  match s.log.maxBytes with
  | some max =>
    -- a rotation under way is not asked for again
    if s.log.rotationProgress = .idle ∧ s.log.needsRotation = false ∧ s.log.bytesWritten ≥ max then
      { s with log := { s.log with needsRotation := true } }
    else s
  | none => s

/-- Write `r` to the buffered sink, past the ring. -/
def directWriteLine (s : Sys) (r : Record) : Bool × Sys :=
  match (ask env s).write with
  | some f => (false, { s with log := { s.log with pendingErr := some (.fault f) } }.tick)
  | none => (true, armRotation (cadenceSync env (acceptLine s r).tick))

end

section

-- the chain hash, or `none` in a build without the `audit-chain` feature
variable (chainHash : Option (Bytes32 → Bytes → Bytes → Bytes32))

def computeAndAdvanceChain (log : RecoveryAuditLog) (kind : AuditKind) (body : Bytes) :
    ChainColumn × RecoveryAuditLog :=
  match chainHash with
  | some hash =>
    -- the kind is hashed beside the body, which has it as a column too
    let raw := hash log.prevChain kind.asBytes body
    (some raw, { log with prevChain := raw })
  | none => (none, log)

/-- The record `emit` and `emit_direct` format: the next sequence number, the chain
column, and the log with both advanced. -/
def formatRecord (log : RecoveryAuditLog) (entry : Entry) : Record × RecoveryAuditLog :=
  let (chain, advanced) :=
    computeAndAdvanceChain chainHash log entry.kind (hashBody log.nextSeq entry.body)
  (⟨log.nextSeq, log.nextSeq_lt, entry, chain⟩,
    { advanced with nextSeq := u64SaturatingAdd log.nextSeq 1, nextSeq_lt := u64SaturatingAdd_lt _ _ })

/-- Burn a sequence number: the record is dropped and the chain head stays. -/
def dropRecord (log : RecoveryAuditLog) : RecoveryAuditLog :=
  { log with
    nextSeq := u64SaturatingAdd log.nextSeq 1
    nextSeq_lt := u64SaturatingAdd_lt _ _
    auditDroppedTotal := u64SaturatingAdd log.auditDroppedTotal 1 }

def emit (log : RecoveryAuditLog) (entry : Entry) : RecoveryAuditLog :=
  -- a full ring drops the newest record
  if log.pendingLines.length ≥ auditRingCap then dropRecord log
  else
    let (r, log) := formatRecord chainHash log entry
    { log with pendingLines := log.pendingLines ++ [r] }

variable (env : Nat → Answer)

def emitDirect (s : Sys) (entry : Entry) : Sys :=
  -- kept for the case that the record reaches neither the file nor the ring
  let chainHeadBefore := s.log.prevChain
  let (r, log) := formatRecord chainHash s.log entry
  match directWriteLine env { s with log := log } r with
  | (true, s) => s
  | (false, s) =>
    -- a rejected boot line goes to the front of the ring, to be written first
    if s.log.pendingLines.length < auditRingCap then
      { s with log := { s.log with pendingLines := r :: s.log.pendingLines } }
    else
      { s with log := { s.log with
        auditDroppedTotal := u64SaturatingAdd s.log.auditDroppedTotal 1
        -- no line carries the new hash, so the next one must chain to the old head
        prevChain := match chainHash with
          | some _ => chainHeadBefore
          | none => s.log.prevChain } }

def emitBoot (s : Sys) (reason : BootReason) (prev : Option Bytes32) : Sys :=
  emitDirect chainHash env s.tick
    (.boot ⟨(ask env s).wallclockMs, s.log.daemonPid, prev, reason⟩)

def recordSpawn (s : Sys) (rec : SpawnRecord) : Sys :=
  { s with log := emit chainHash s.log (.spawn rec) }

def recordRefused (s : Sys) (rec : RefusedRecord) : Sys :=
  { s with log := emit chainHash s.log (.refused rec) }

def recordComplete (s : Sys) (rec : CompleteRecord) : Sys :=
  { s with log := emit chainHash s.log (.complete rec) }

end

/-! ### Draining the ring -/

/-- Why a drain stopped. -/
inductive Drained where
  | empty
  | budget
  | rejected
  deriving DecidableEq, Repr

section

variable (env : Nat → Answer)

/-- The drain loop that `flush_pending` and both drains of `drive_audit_rotation` share:
check the budget, write the front line, put it back if it is rejected. -/
def drainLines (start budget : Nat) : List Record → Sys → Drained × Sys
  | [], s => (.empty, s)
  | r :: rest, s =>
    -- the budget is read before each line
    if (ask env s).instant - start ≥ budget then (.budget, s.tick)
    else
      match directWriteLine env { s.tick with log := { s.log with pendingLines := rest } } r with
      | (true, s) => drainLines start budget rest s
      -- the line goes back to the front, and the drain gives up
      | (false, s) => (.rejected, { s with log := { s.log with pendingLines := r :: rest } })

def exceedFlushBudget (s : Sys) : Sys :=
  { s with log := { s.log with
    auditFlushBudgetExceededTotal := u64SaturatingAdd s.log.auditFlushBudgetExceededTotal 1 } }

/-- The drain at the end of `flush_pending`. -/
def flushRing (start budget : Nat) (s : Sys) : Sys :=
  match drainLines env start budget s.log.pendingLines s with
  | (.budget, s) => exceedFlushBudget s
  | (_, s) => s

def flushPending (budget : Nat) (s : Sys) : Sys :=
  let start := (ask env s).instant
  let s := s.tick
  let retryDeferredSync := s.log.deferredFsyncInDrain && decide (s.log.writesSinceSync > 0)
  let needSync := acceptedWritesNeedSync env s
  let s := { s with log := { s.log with deferredFsyncInDrain := false } }.tick
  if retryDeferredSync || needSync then
    if (ask env s).instant - start ≥ budget then exceedFlushBudget s.tick
    else
      match flushDueAcceptedWrites env s.tick with
      | (false, s) => s
      | (true, s) =>
        if (ask env s).instant - start ≥ budget then
          -- running out of time counts only if lines were left
          if s.log.pendingLines.isEmpty then s.tick else exceedFlushBudget s.tick
        else flushRing env start budget s.tick
  else flushRing env start budget s

end

end Varta.Audit
