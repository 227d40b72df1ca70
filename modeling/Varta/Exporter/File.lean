import Varta.Audit.Writer
import Varta.Exporter.Lines
import Varta.Lib.Files

/-!
# The file exporter

`FileExporter` of `exporter/file.rs` over a directory. Each call is given the answers of the
operating system to the calls it makes; `none` is success. Only what is missing or present
already depends on the directory.
-/
namespace Varta.Exporter

open Machine
open Audit (Fault IoError DirEvent)

def maxRotationGenerations : Nat := 5

def minExportFileMaxBytes : Nat := 4096

/-! ### State -/

/-- The names of the exporter's files. -/
inductive Path where
  | live
  | generation (g : Nat)
  deriving DecidableEq, Repr

/-- What a file holds: bytes from before the run, or what the calls of the run have written,
numbered so that equal lines are told apart. -/
inductive Piece where
  | old (bytes : Bytes)
  | line (serial : Nat) (text : Bytes)
  deriving DecidableEq, Repr

def Piece.length : Piece → Nat
  | .old bytes => bytes.length
  | .line _ text => text.length

/-- `BufWriter<File>`. -/
structure Sink where
  inode : Nat
  buffer : List Piece

structure FileExporter where
  sink : Sink
  pendingErr : Option IoError
  maxBytes : Option Nat
  bytesWritten : Nat
  syncEvery : Nat
  writesSinceSync : Nat
  rotationReopenPending : Bool

structure Sys where
  exporter : FileExporter
  fs : Files Path Piece
  /-- What rotation did to the generations so far. -/
  events : List DirEvent
  /-- What the kernel has been handed, each piece with the moves made before. -/
  handed : List (Piece × Nat)
  /-- The number of the next line. -/
  serial : Nat

/-- Moves of the live file to `PATH.1`. -/
def Sys.moves (s : Sys) : Nat := s.events.count .liveMoved

/-- Deletions of an existing `PATH.5`. -/
def Sys.removals (s : Sys) : Nat := s.events.count .oldestRemoved

/-! ### Answers -/

/-- A flush of the buffer; a failing one may still hand over some pieces. -/
structure FlushAnswer where
  fault : Option Fault
  flushed : Nat

/-- The calls of `create_new_export_file`. -/
structure CreateAnswer where
  openFile : Option Fault
  metadata : Option Fault
  validate : Option Fault
  /-- The removal of a file that was not accepted. -/
  cleanup : Option Fault

structure Answers where
  write : Option Fault
  /-- How many bytes of a line are in the buffer when its write fails. -/
  torn : Nat
  /-- How many pieces a full buffer hands over during a write. -/
  spilled : Nat
  syncFlush : FlushAnswer
  syncData : Option Fault
  rotateFlush : FlushAnswer
  removeOldest : Option Fault
  rename : Nat → Option Fault
  renameLive : Option Fault
  /-- `try_clone` and the seek to the start. -/
  cloneSource : Option Fault
  createFirst : CreateAnswer
  guardFirst : Option Fault
  copy : Option Fault
  /-- How many pieces a failing copy has written. -/
  copied : Nat
  copySync : Option Fault
  removeLive : Option Fault
  cleanupFirst : Option Fault
  createLive : CreateAnswer
  /-- The last flush of a `BufWriter` that is dropped. -/
  dropFlush : FlushAnswer
  syncDir : Option Fault

/-! ### The sink -/

/-- The first `n` buffered pieces reach the file. -/
def Sys.handOver (s : Sys) (n : Nat) : Sys :=
  let sink := s.exporter.sink
  { s with
    exporter := { s.exporter with sink := { sink with buffer := sink.buffer.drop n } }
    fs := s.fs.append sink.inode (sink.buffer.take n)
    handed := s.handed ++ (sink.buffer.take n).map fun piece => (piece, s.moves) }

def Sys.rememberError (s : Sys) (e : IoError) : Sys :=
  { s with exporter := { s.exporter with pendingErr := some e } }

def flushSink (a : FlushAnswer) (s : Sys) : Except IoError Unit × Sys :=
  match a.fault with
  | none => (.ok (), s.handOver s.exporter.sink.buffer.length)
  | some f => (.error (.fault f), s.handOver a.flushed)

/-- The next line, or what has been written of it, into the buffer. -/
def Sys.push (s : Sys) (text : Bytes) : Sys :=
  { s with
    exporter := { s.exporter with sink := { s.exporter.sink with
      buffer := s.exporter.sink.buffer ++ [.line s.serial text] } }
    serial := s.serial + 1 }

/-- `writeln!` into the `BufWriter`. -/
def writeLine (a : Answers) (text : Bytes) (s : Sys) : Except IoError Unit × Sys :=
  match a.write with
  | none => (.ok (), (s.push text).handOver a.spilled)
  -- what the earlier parts of the line have put into the buffer stays there
  | some f => (.error (.fault f), (s.push (text.take a.torn)).handOver a.spilled)

section

variable (a : Answers)

def syncParentDir (s : Sys) : Sys :=
  match a.syncDir with
  | none => s
  | some f => s.rememberError (.fault f)

def flushAndSync (s : Sys) : Except IoError Unit × Sys :=
  match flushSink a.syncFlush s with
  | (.error e, s) => (.error e, s)
  | (.ok (), s) =>
    match a.syncData with
    | some f => (.error (.fault f), s)
    | none => (.ok (), s)

/-! ### Files -/

/-- `create_new_export_file`, with the inode it opened. -/
def createNewExportFile (c : CreateAnswer) (path : Path) (fs : Files Path Piece) :
    Except IoError Nat × Files Path Piece :=
  match fs.entry path with
  | some _ => (.error .alreadyExists, fs)
  | none =>
    match c.openFile with
    | some f => (.error (.fault f), fs)
    | none =>
      let made := fs.create path
      match c.metadata with
      -- there is no guard yet, so the file stays
      | some f => (.error (.fault f), made)
      | none =>
        match c.validate with
        | some f => (.error (.fault f), if c.cleanup = none then made.unlink path else made)
        | none => (.ok fs.next, made)

/-- The guard of `copy_live_to_first` is dropped armed. -/
def Sys.dropFirst (s : Sys) : Sys :=
  if a.cleanupFirst = none then { s with fs := s.fs.unlink (.generation 1) } else s

/-- The part of `copy_live_to_first` after the destination was made. -/
def copyInto (first : Nat) (s : Sys) : Except IoError Unit × Sys :=
  let source := s.fs.data s.exporter.sink.inode
  match a.guardFirst with
  | some f => (.error (.fault f), s)
  | none =>
    match a.copy with
    | some f =>
      (.error (.fault f), { s with fs := s.fs.append first (source.take a.copied) }.dropFirst a)
    | none =>
      let s := { s with fs := s.fs.append first source }
      match a.copySync with
      | some f => (.error (.fault f), s.dropFirst a)
      | none =>
        match a.removeLive with
        | some f => (.error (.fault f), s.dropFirst a)
        -- the sink still has the inode that has just lost its name
        | none => (.ok (), { s with
            fs := s.fs.unlink .live, events := s.events ++ [.liveMoved] })

def copyLiveToFirst (s : Sys) : Except IoError Unit × Sys :=
  match a.cloneSource with
  | some f => (.error (.fault f), s)
  | none =>
    match createNewExportFile a.createFirst (.generation 1) s.fs with
    | (.error e, fs) => (.error e, { s with fs := fs })
    | (.ok first, fs) => copyInto a first { s with fs := fs }

/-! ### Rotation -/

def removeOldest (s : Sys) : Except IoError Unit × Sys :=
  match s.fs.entry (.generation maxRotationGenerations) with
  | none => (.ok (), s)
  | some _ =>
    match a.removeOldest with
    | some f => (.error (.fault f), s)
    | none => (.ok (), { s with
        fs := s.fs.unlink (.generation maxRotationGenerations)
        events := s.events ++ [.oldestRemoved] })

/-- The loop of `rotate` from generation `g` down to the first. -/
def shiftGenerations : Nat → Sys → Except IoError Unit × Sys
  | 0, s => (.ok (), s)
  | g + 1, s =>
    match s.fs.entry (.generation (g + 1)) with
    | none => shiftGenerations g s
    | some inode =>
      match a.rename (g + 1) with
      | some f => (.error (.fault f), s)
      | none => shiftGenerations g
          { s with fs := s.fs.rename (.generation (g + 1)) (.generation (g + 2)) inode }

/-- The live file becomes `PATH.1`. -/
def moveLive (s : Sys) : Except IoError Unit × Sys :=
  match s.fs.entry .live with
  | none => (.ok (), s)
  | some inode =>
    match a.renameLive with
    | none => (.ok (), { s with
        fs := s.fs.rename .live (.generation 1) inode, events := s.events ++ [.liveMoved] })
    -- only a rename across devices falls back to a copy
    | some f => if f = .crossDevice then copyLiveToFirst a s else (.error (.fault f), s)

def rotate (s : Sys) : Except IoError Unit × Sys :=
  match removeOldest a s with
  | (.error e, s) => (.error e, s)
  | (.ok (), s) =>
    match shiftGenerations a (maxRotationGenerations - 1) s with
    | (.error e, s) => (.error e, s)
    | (.ok (), s) => moveLive a s

/-- A new live file takes the place of the sink, whose buffer is flushed as it is dropped. -/
def swapSink (inode : Nat) (s : Sys) : Sys :=
  let s := (flushSink a.dropFlush s).2
  { s with exporter := { s.exporter with
      sink := ⟨inode, []⟩
      bytesWritten := 0
      writesSinceSync := 0
      rotationReopenPending := false } }

def reopenFailed (e : IoError) (s : Sys) : Except IoError Unit × Sys :=
  let s := (syncParentDir a s).rememberError e
  (.error e, { s with exporter := { s.exporter with rotationReopenPending := true } })

def reopenLive (s : Sys) : Except IoError Unit × Sys :=
  match createNewExportFile a.createLive .live s.fs with
  | (.ok inode, fs) => (.ok (), syncParentDir a (swapSink a inode { s with fs := fs }))
  | (.error e, fs) => reopenFailed a e { s with fs := fs }

/-! ### Records -/

/-- The durability part of `after_write`, with the error it latches. -/
def syncIfDue (s : Sys) : Option IoError × Sys :=
  if s.exporter.syncEvery > 0 then
    let s := { s with exporter := { s.exporter with
      writesSinceSync := u32SaturatingAdd s.exporter.writesSinceSync 1 } }
    if s.exporter.writesSinceSync ≥ s.exporter.syncEvery then
      match flushAndSync a s with
      | (.ok (), s) => (none, { s with exporter := { s.exporter with writesSinceSync := 0 } })
      | (.error e, s) => (some e, s.rememberError e)
    else (none, s)
  else (none, s)

/-- How `after_write` goes on. -/
inductive Stage where
  | done
  /-- The flush in front of a rotation failed. -/
  | failed (e : IoError)
  | reopening
  | rotating
  deriving DecidableEq, Repr

/-- The part of `after_write` in front of the rotation. -/
def stage (lineLen : Nat) (s : Sys) : Option IoError × Stage × Sys :=
  match syncIfDue a s with
  | (firstErr, s) =>
    match s.exporter.maxBytes with
    | none => (firstErr, .done, s)
    | some max =>
      -- the live file has been rotated away and is still missing
      if s.exporter.rotationReopenPending then (firstErr, .reopening, s)
      else
        let s := { s with exporter := { s.exporter with
          bytesWritten := u64SaturatingAdd s.exporter.bytesWritten lineLen } }
        if s.exporter.bytesWritten < max then (firstErr, .done, s)
        else
          match flushSink a.rotateFlush s with
          | (.error e, s) => (firstErr, .failed e, s.rememberError e)
          | (.ok (), s) => (firstErr, .rotating, s)

/-- The first error of a call is the one it returns. -/
def report (firstErr : Option IoError) (result : Except IoError Unit) : Except IoError Unit :=
  match firstErr with
  | some e => .error e
  | none => result

def afterWrite (lineLen : Nat) (s : Sys) : Except IoError Unit × Sys :=
  match stage a lineLen s with
  | (firstErr, .done, s) => (report firstErr (.ok ()), s)
  | (firstErr, .failed e, s) => (report firstErr (.error e), s)
  | (firstErr, .reopening, s) => Prod.map (report firstErr) id (reopenLive a s)
  | (firstErr, .rotating, s) =>
    match rotate a s with
    | (.error e, s) => (report firstErr (.error e), s.rememberError e)
    | (.ok (), s) => Prod.map (report firstErr) id (reopenLive a s)

/-- `record` and `record_eviction_pid`, given the line and the length they count for it. -/
def recordLine (text : Bytes) (lineLen : Nat) (s : Sys) : Except IoError Unit × Sys :=
  match writeLine a text s with
  | (.error e, s) => (.error e, s.rememberError e)
  | (.ok (), s) => afterWrite a lineLen s

def record (ev : Event) (s : Sys) : Except IoError Unit × Sys :=
  recordLine a ev.line ev.lineLen s

def recordEvictionPid (pid : UInt32) (observerNs : Nat) (s : Sys) : Except IoError Unit × Sys :=
  recordLine a (evictionLine pid observerNs) (evictionLineLen pid observerNs) s

end

/-- `Exporter::flush`. -/
def flush (f : FlushAnswer) (s : Sys) : Except IoError Unit × Sys :=
  match flushSink f s with
  | (result, s) =>
    (report s.exporter.pendingErr result,
      { s with exporter := { s.exporter with pendingErr := none } })

/-! ### Opening -/

inductive CreateError where
  | maxBytesTooSmall
  | io (e : IoError)
  deriving DecidableEq, Repr

def validateExportMaxBytes (maxBytes : Option Nat) : Except CreateError Unit :=
  if maxBytes.all (· ≥ minExportFileMaxBytes) then .ok () else .error .maxBytesTooSmall

/-- The calls of `open_or_create_export_file` and the length of what it opened. -/
structure OpenAnswers where
  createNew : CreateAnswer
  /-- `open_existing_export_file`. -/
  openExisting : Option Fault
  metadata : Option Fault
  syncDir : Option Fault

def openOrCreateExportFile (o : OpenAnswers) (fs : Files Path Piece) :
    Except IoError (Nat × Files Path Piece) :=
  match fs.entry .live with
  | some inode =>
    match o.openExisting with
    | some f => .error (.fault f)
    | none => .ok (inode, fs)
  | none =>
    match createNewExportFile o.createNew .live fs with
    | (.error e, _) => .error e
    | (.ok inode, fs) => .ok (inode, fs)

/-- `FileExporter::create` over a directory with whatever it holds. -/
def create (o : OpenAnswers) (maxBytes : Option Nat) (syncEvery : Nat) (fs : Files Path Bytes) :
    Except CreateError Sys := do
  validateExportMaxBytes maxBytes
  let (inode, fs) ← (openOrCreateExportFile o (fs.map .old)).mapError .io
  match o.metadata with
  | some f => .error (.io (.fault f))
  | none =>
    .ok {
      exporter := {
        sink := ⟨inode, []⟩
        pendingErr := o.syncDir.map .fault
        maxBytes := maxBytes
        bytesWritten := ((fs.data inode).map Piece.length).sum
        syncEvery := syncEvery
        writesSinceSync := 0
        rotationReopenPending := false }
      fs := fs
      events := []
      handed := []
      serial := 0 }

/-! ### Runs -/

inductive Op where
  | record (ev : Event) (a : Answers)
  | recordEvictionPid (pid : UInt32) (observerNs : Nat) (a : Answers)
  | flush (f : FlushAnswer)

def applyOp (s : Sys) : Op → Sys
  | .record ev a => (record a ev s).2
  | .recordEvictionPid pid observerNs a => (recordEvictionPid a pid observerNs s).2
  | .flush f => (flush f s).2

end Varta.Exporter
