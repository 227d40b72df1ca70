import Mathlib.Data.UInt
import Varta.Audit.Writer
import Varta.Watch.Debounce

/-!
# Recovery children

One child of the recovery runner: its environment (`recovery/env.rs`), the command it is
spawned from and its bookkeeping slot (`recovery/runner.rs`), and the bounded capture of its
output (`recovery/reaper.rs`). The operating system is an oracle: each call takes the next
`Answer`, and every answer is possible. What the calls did is written down in a trace.
-/
namespace Varta.Watch

open Machine
open Audit (CompleteRecord SpawnRecord RefusedRecord)

/-! ### The operating system -/

inductive ErrorKind where
  | invalidInput
  | wouldBlock
  | other (errno : Nat)
  deriving DecidableEq, Repr

/-- An error of the operating system, or the one of `invalid_entry_error`. -/
inductive IoError where
  | os (kind : ErrorKind)
  | invalidEntry (raw : Bytes)
  deriving DecidableEq, Repr

def IoError.kind : IoError → ErrorKind
  | .os kind => kind
  | .invalidEntry _ => .invalidInput

structure ExitStatus where
  code : Option Int32
  signal : Option Int32
  deriving DecidableEq

/-- The handle of a spawned process. The operating system may use an id again; the handles
are told apart by the number of the spawn. -/
structure Child where
  serial : Nat
  id : UInt32
  deriving DecidableEq, Repr

/-- What `Command::spawn` returns: the id, and whether both pipes are there. -/
structure Forked where
  id : UInt32
  pipes : Bool

/-- What the environment says when it is asked next; a caller looks at the part that belongs
to its call. -/
structure Answer where
  instant : Nat
  wallclockMs : UInt64
  spawn : Except IoError Forked
  setNonblocking : Bool
  tryWait : Except IoError (Option ExitStatus)
  kill : Except IoError Unit
  /-- The bytes a pipe has for a reader; a read never returns more than was asked for. -/
  read : Except IoError Nat

/-! ### Commands -/

/-- A `Command` that is ready to be spawned. -/
structure Command where
  program : Bytes
  args : List Bytes
  envCleared : Bool
  env : List (Bytes × Bytes)
  piped : Bool

def equalsSign : UInt8 := 0x3D

def splitEnvEntry (raw : Bytes) : Option (Bytes × Bytes) :=
  let key := raw.takeWhile (· ≠ equalsSign)
  match raw.dropWhile (· ≠ equalsSign) with
  | [] => none
  | _ :: value =>
    if key = [] ∨ 0 ∈ key ∨ 0 ∈ value then none else some (key, value)

def applyEnv (cmd : Command) (inherited : Bool) (envVars : List Bytes) :
    Except IoError Command :=
  let cmd := if inherited then cmd else
    { cmd with envCleared := true, env := [(Bytes.ofString "PATH", Bytes.ofString "/usr/bin:/bin")] }
  envVars.foldlM (fun cmd entry =>
    match splitEnvEntry entry with
    | none => .error (.invalidEntry entry)
    | some pair => .ok { cmd with env := cmd.env ++ [pair] }) cmd

/-- `str::replace`: occurrences from left to right, none overlapping. The number counts the
bytes of an occurrence that are still to be skipped. -/
def replaceFrom (pattern replacement : Bytes) : Nat → Bytes → Bytes
  | _, [] => []
  | skip + 1, _ :: rest => replaceFrom pattern replacement skip rest
  | 0, b :: rest =>
    if pattern.isPrefixOf (b :: rest) then
      replacement ++ replaceFrom pattern replacement (pattern.length - 1) rest
    else b :: replaceFrom pattern replacement 0 rest

def pidPlaceholder : Bytes := Bytes.ofString "\x7bpid\x7d"

/-- The argument with the pid in the place of `pidPlaceholder`. -/
def substitutePid (pid : UInt32) (arg : Bytes) : Bytes :=
  replaceFrom pidPlaceholder (Decimal.print pid.toNat) 0 arg

/-- The length of the arguments joined by blanks, in 32-bit arithmetic. -/
def templateLen (substituted : List Bytes) : UInt32 :=
  let sum := (substituted.map fun a => UInt32.ofNat a.length + 1).sum
  if sum = 0 then 0 else sum - 1

/-! ### What was done -/

/-- A recovery that fired. -/
structure Firing where
  pid : UInt32
  generation : Option Nat
  firedAt : Nat
  child : Child
  command : Command

inductive Effect where
  | spawned (fired : Firing)
  /-- `try_wait` collected the exit status. -/
  | exited (child : Child) (status : ExitStatus)
  /-- `kill` succeeded. -/
  | killed (child : Child)
  | recordSpawn (record : SpawnRecord)
  | recordComplete (child : Child) (record : CompleteRecord)
  | recordRefused (record : RefusedRecord)
  /-- The handle of a child spawned for `pid` was dropped. -/
  | dropped (pid : UInt32) (child : Child)

@[simp] def Effect.fired? : Effect → Option Firing
  | .spawned fired => some fired
  | _ => none

/-- How many answers were taken, and what was done, the latest first. -/
structure World where
  asked : Nat
  trace : List Effect

namespace World

def fires (w : World) : List Firing := w.trace.filterMap Effect.fired?

def tick (w : World) : World := { w with asked := w.asked + 1 }

def note (w : World) (effect : Effect) : World := { w with trace := effect :: w.trace }

section

variable (env : Nat → Answer)

def answer (w : World) : Answer := env w.asked

def kill (w : World) (child : Child) : Except IoError Unit × World :=
  match (w.answer env).kill with
  | .ok () => (.ok (), w.tick.note (.killed child))
  | .error e => (.error e, w.tick)

def tryWait (w : World) (child : Child) : Except IoError (Option ExitStatus) × World :=
  match (w.answer env).tryWait with
  | .ok (some status) => (.ok (some status), w.tick.note (.exited child status))
  | .ok none => (.ok none, w.tick)
  | .error e => (.error e, w.tick)

/-- `since.elapsed()`, which is zero if the clock has gone back. -/
def elapsed (w : World) (since : Nat) : Nat × World := ((w.answer env).instant - since, w.tick)

end

end World

/-! ### The slot of a child -/

/-- The handles are the read ends of the pipes that are still open. -/
structure Outstanding where
  child : Child
  spawnedAt : Nat
  killed : Bool
  generation : Option Nat
  wallclockAtSpawnMs : UInt64
  stdoutHandle : Bool
  stderrHandle : Bool
  stdoutLen : Nat
  stderrLen : Nat
  truncated : Bool
  completedStatus : Option ExitStatus
  completedAt : Option Nat

inductive KillForReclaim where
  | killed (child : Child)
  | alreadyExited
  | alreadyKilled
  deriving DecidableEq, Repr

structure CaptureHandles where
  stdout : Bool
  stderr : Bool
  truncated : Bool

/-- The mutable arguments of `drain_capture_stream`. -/
structure CaptureStream where
  handle : Bool
  capturedLen : Nat
  total : Nat
  budget : Nat
  truncated : Bool

def captureDrainBytesPerTick : Nat := 4096

def captureBufferLen : Nat := 1024

/-- `POST_EXIT_CAPTURE_DRAIN_GRACE`, 5 s. -/
def postExitCaptureDrainGrace : Duration := .ofMillis 5000

section

variable (env : Nat → Answer)

def Outstanding.killForReclaim (entry : Outstanding) (w : World) :
    Except IoError KillForReclaim × Outstanding × World :=
  if entry.killed then (.ok .alreadyKilled, entry, w)
  else
    match w.kill env entry.child with
    | (.ok (), w) => (.ok (.killed entry.child), { entry with killed := true }, w)
    | (.error e, w) =>
      -- the error that stands for a child that has exited
      if e.kind = .invalidInput then (.ok .alreadyExited, entry, w) else (.error e, entry, w)

def takeCaptureHandles (w : World) (pipes captureOn : Bool) : CaptureHandles × World :=
  if !captureOn then (⟨false, false, false⟩, w)
  else if !pipes then (⟨false, false, true⟩, w)
  else
    let outOk := (w.answer env).setNonblocking
    let w := w.tick
    let errOk := (w.answer env).setNonblocking
    -- capture needs both pipes to be non-blocking
    if !outOk || !errOk then (⟨false, false, true⟩, w.tick) else (⟨true, true, false⟩, w.tick)

/-- The loop of `drain_capture_stream`. Each round but the last takes at least one byte from
the budget, so that one round more than the budget is enough. -/
def drainCaptureStream (cap : Nat) : Nat → CaptureStream → World → CaptureStream × World
  | 0, s, w => (s, w)
  | rounds + 1, s, w =>
    if s.truncated || s.budget == 0 then (s, w)
    else if s.total ≥ cap then ({ s with truncated := true }, w)
    else if !s.handle then (s, w)
    else
      let want := min (min (cap - s.total) s.budget) captureBufferLen
      match (w.answer env).read with
      | .ok n =>
        let n := min n want
        if n = 0 then ({ s with handle := false }, w.tick)
        else
          let s := { s with
            capturedLen := u32SaturatingAdd s.capturedLen n
            total := s.total + n
            budget := s.budget - n }
          if s.total ≥ cap then ({ s with truncated := true }, w.tick)
          else drainCaptureStream cap rounds s w.tick
      | .error e =>
        if e.kind = .wouldBlock then (s, w.tick) else ({ s with handle := false }, w.tick)

end

namespace Outstanding

def closeCaptureHandles (entry : Outstanding) : Outstanding :=
  { entry with stdoutHandle := false, stderrHandle := false }

section

variable (env : Nat → Answer)

/-- `drain_outstanding_capture`: stdout first, stderr with what is left of the budget. -/
def drainCapture (entry : Outstanding) (cap : Nat) (w : World) : Outstanding × World :=
  if cap = 0 then (entry, w)
  else if entry.truncated then (entry.closeCaptureHandles, w)
  else
    -- the cap is on both streams together
    let total := entry.stdoutLen + entry.stderrLen
    let (out, w) := drainCaptureStream env cap (captureDrainBytesPerTick + 1)
      ⟨entry.stdoutHandle, entry.stdoutLen, total, captureDrainBytesPerTick, false⟩ w
    let (err, w) := drainCaptureStream env cap (captureDrainBytesPerTick + 1)
      ⟨entry.stderrHandle, entry.stderrLen, out.total, out.budget, out.truncated⟩ w
    let entry := { entry with
      stdoutHandle := out.handle
      stdoutLen := out.capturedLen
      stderrHandle := err.handle
      stderrLen := err.capturedLen
      truncated := err.truncated }
    (if entry.truncated then entry.closeCaptureHandles else entry, w)

def captureReadyToComplete (entry : Outstanding) (w : World) : Bool × Outstanding × World :=
  let drained := entry.truncated || (!entry.stdoutHandle && !entry.stderrHandle)
  match entry.completedAt with
  | none => (drained, entry, w)
  | some completedAt =>
    let (elapsed, w) := w.elapsed env completedAt
    if elapsed ≥ postExitCaptureDrainGrace.nanos then
      -- a pipe that stays open past the grace is cut off
      if entry.stdoutHandle || entry.stderrHandle then
        (true, { entry with truncated := true }.closeCaptureHandles, w)
      else (true, entry, w)
    else (drained, entry, w)

/-- What a visit makes of a child: nothing yet, a complete one, or an error of `try_wait`. -/
inductive Visit where
  | pending
  | complete
  | reapFailed (error : IoError)
  deriving DecidableEq, Repr

/-- The part `reap_finished_child` and `drain_orphan_reaps` have in common: drain, wait, and
see whether the capture is done. -/
def visit (entry : Outstanding) (cap : Nat) (w : World) : Visit × Outstanding × World :=
  let (entry, w) := entry.drainCapture env cap w
  match entry.completedStatus with
  | some _ =>
    let (ready, entry, w) := entry.captureReadyToComplete env w
    (if ready then .complete else .pending, entry, w)
  | none =>
    match w.tryWait env entry.child with
    | (.ok (some status), w) =>
      let entry := { entry with
        completedStatus := some status, completedAt := some (w.answer env).instant }
      let (ready, entry, w) := entry.captureReadyToComplete env w.tick
      (if ready then .complete else .pending, entry, w)
    | (.ok none, w) => (.pending, entry, w)
    | (.error error, w) => (.reapFailed error, entry, w)

end

end Outstanding

end Varta.Watch
