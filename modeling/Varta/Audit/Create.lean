import Varta.Audit.Resume
import Varta.Audit.Rotation

/-!
# Opening the log

`RecoveryAuditLog::create` of `audit/mod.rs`: validate the configuration, probe the
existing file, truncate a torn tail, write a missing header, and emit the boot record.
-/
namespace Varta.Audit

open Machine
open Vlp (Bytes32)

structure AuditConfig where
  maxBytes : Option Nat
  syncEvery : Nat
  daemonPid : UInt32
  fsyncBudget : Nat
  syncInterval : Option Nat
  rotationBudget : Nat

/-- `AuditConfig::default` with the daemon's pid, durations in nanoseconds. -/
def AuditConfig.default (daemonPid : UInt32) : AuditConfig where
  maxBytes := none
  syncEvery := 1
  daemonPid := daemonPid
  fsyncBudget := 50000000
  syncInterval := none
  rotationBudget := 50000000

structure CreateWarnings where
  chainDisabled : Bool
  syncRelaxed : Bool
  legacyV1 : Bool
  corruptTail : Bool
  schemaDrift : Bool
  deriving DecidableEq, Repr

inductive CreateError where
  | maxBytes
  | syncEvery
  | fsyncBudget
  | rotationBudget
  | hardLinks (path : String)
  | io (e : IoError)
  deriving DecidableEq, Repr

def minRecoveryAuditMaxBytes : Nat := 4096

def validateAuditMaxBytes : Option Nat → Except CreateError Unit
  | none => .ok ()
  | some maxBytes => if maxBytes ≥ minRecoveryAuditMaxBytes then .ok () else .error .maxBytes

/-- The checks at the top of `create_unchecked`. -/
def validateConfig (cfg : AuditConfig) : Except CreateError Unit :=
  if cfg.syncEvery = 0 then .error .syncEvery
  else if cfg.fsyncBudget = 0 then .error .fsyncBudget
  else if cfg.rotationBudget = 0 then .error .rotationBudget
  else .ok ()

/-- `File::set_len`: cut, or extend with zero bytes. -/
def setLen (content : Bytes) (n : Nat) : Bytes :=
  content.take n ++ List.replicate (n - content.length) 0

/-- The file after the optional truncation. -/
def applyTruncation (probe : TailProbe) (content : Bytes) : Bytes :=
  match probe.truncateTo with
  | some n => setLen content n
  | none => content

/-- The log as `create_unchecked` builds it, before the boot record. -/
def openedLog (cfg : AuditConfig) (inode : Nat) (probe : TailProbe) (bytesWritten : Nat) :
    RecoveryAuditLog where
  sink := ⟨inode, []⟩
  maxBytes := cfg.maxBytes
  bytesWritten := bytesWritten
  pendingErr := none
  nextSeq := u64SaturatingAdd probe.lastSeq 1
  nextSeq_lt := u64SaturatingAdd_lt _ _
  prevChain := probe.lastChain
  syncEvery := cfg.syncEvery
  writesSinceSync := 0
  daemonPid := cfg.daemonPid
  pendingLines := []
  auditDroppedTotal := 0
  auditFlushBudgetExceededTotal := 0
  fsyncBudget := cfg.fsyncBudget
  syncInterval := cfg.syncInterval
  lastSyncAt := none
  auditFsyncBudgetExceededTotal := 0
  auditRotationBudgetExceededTotal := 0
  deferredFsyncInDrain := false
  needsRotation := false
  rotationProgress := .idle

def Fs.bytesOf (fs : Fs) (inode : Nat) : Bytes := (fs.files inode).flatMap Chunk.bytes

/-- Open the live path, creating it empty where it does not exist. -/
def Fs.openLive (fs : Fs) : Nat × Fs :=
  match fs.live with
  | some inode => (inode, fs)
  | none =>
    let (inode, fs) := fs.fresh
    (inode, { fs with live := some inode })

section

variable (chainHash : Option (Bytes32 → Bytes → Bytes → Bytes32)) (env : Nat → Answer)

/-- The log over the probed file: truncation, header, parent-directory sync. -/
def openProbed (cfg : AuditConfig) (inode : Nat) (fs : Fs) (probe : TailProbe) :
    Except CreateError Sys :=
  let content := fs.bytesOf inode
  let kept := applyTruncation probe content
  let fs := match probe.truncateTo with
    | some _ => { fs with files := Function.update fs.files inode [.raw kept] }
    | none => fs
  -- the truncation is made durable before anything is appended
  match probe.truncateTo.bind fun _ => (env 1).syncAll with
  | some f => .error (.io (.fault f))
  | none =>
    let opened := fun fs bytesWritten =>
      let log := openedLog cfg inode probe bytesWritten
      -- a failed sync of the parent directory does not stop the daemon
      let log := match (env 3).syncDir with
        | some f => { log with pendingErr := some (.fault f) }
        | none => log
      ({ log := log, fs := fs, asked := 4 } : Sys)
    -- a header that the probe found is not written again
    if probe.hasV2Header then .ok (opened fs kept.length)
    else
      match (env 2).headerWrite with
      | some f => .error (.io (.fault f))
      | none =>
        .ok (opened (fs.append inode [.raw auditHeaderV2])
          (u64SaturatingAdd kept.length auditHeaderV2.length))

def createUnchecked (cfg : AuditConfig) (path : String) (nlink : Nat) (fs : Fs) :
    Except CreateError (Sys × CreateWarnings) := do
  validateConfig cfg
  -- opened, and created where missing, before the link count is looked at
  if let some f := (env 0).openFile then throw (.io (.fault f))
  let (inode, fs) := fs.openLive
  if nlink ≠ 1 then throw (.hardLinks path)
  let probe := probeTailFile (fs.bytesOf inode)
  let s ← openProbed env cfg inode fs probe
  let prevForBoot := match probe.reason with
    -- only a clean resume anchors the boot record to the old chain
    | .resume => some probe.lastChain
    | _ => none
  return (emitBoot chainHash env s probe.reason prevForBoot,
    { chainDisabled := chainHash.isNone
      syncRelaxed := decide (cfg.syncEvery > 1)
      legacyV1 := decide (probe.reason = .legacyV1)
      corruptTail := decide (probe.reason = .corruptTail)
      schemaDrift := decide (probe.reason = .schemaDrift) })

def create (cfg : AuditConfig) (path : String) (nlink : Nat) (fs : Fs) :
    Except CreateError (Sys × CreateWarnings) := do
  validateAuditMaxBytes cfg.maxBytes
  createUnchecked chainHash env cfg path nlink fs

/-- A log that `create` returns has just emitted the boot record of the file it probed. -/
theorem create_ok {cfg : AuditConfig} {path : String} {nlink : Nat} {fs : Fs} {s : Sys}
    {warnings : CreateWarnings}
    (opened : create chainHash env cfg path nlink fs = .ok (s, warnings)) :
    ∃ t prev, openProbed env cfg fs.openLive.1 fs.openLive.2
        (probeTailFile (fs.openLive.2.bytesOf fs.openLive.1)) = .ok t ∧
      s = emitBoot chainHash env t
        (probeTailFile (fs.openLive.2.bytesOf fs.openLive.1)).reason prev := by
  unfold create createUnchecked at opened
  simp only [bind, Except.bind, pure, Except.pure, throw, throwThe, MonadExceptOf.throw] at opened
  -- max_bytes, the other checks, the open, the link count and the probed file, in this order
  split at opened
  · cases opened
  split at opened
  · cases opened
  split at opened
  · cases opened
  split at opened
  · cases opened
  split at opened
  · cases opened
  next t probed =>
    cases opened
    exact ⟨t, _, probed, rfl⟩

end

end Varta.Audit
