import Varta.Lib.Steps
import Varta.Audit.ChainLinear

/-!
# Runs of the audit log

A daemon opens the log once and then queues records, flushes and drives rotation in any
order. Every run of these leaves one linear chain on disk.
-/
namespace Varta.Audit

open Machine
open Vlp (Bytes32)

/-- One call the main loop makes on the open log. -/
inductive AuditOp where
  | recordSpawn (rec : SpawnRecord)
  | recordRefused (rec : RefusedRecord)
  | recordComplete (rec : CompleteRecord)
  | flushPending (budget : Nat)
  | driveAuditRotation (budget : Nat)

def applyOp (chainHash : Option (Bytes32 → Bytes → Bytes → Bytes32)) (env : Nat → Answer)
    (s : Sys) : AuditOp → Sys
  | .recordSpawn rec => recordSpawn chainHash s rec
  | .recordRefused rec => recordRefused chainHash s rec
  | .recordComplete rec => recordComplete chainHash s rec
  | .flushPending budget => flushPending env budget s
  | .driveAuditRotation budget => (driveAuditRotation env budget chainHash s).2

variable {s : Sys} {fs : Fs}

section

variable {hash : Bytes32 → Bytes → Bytes → Bytes32} (env : Nat → Answer)

theorem emit_keeps (s : Sys) (entry : Entry) :
    Keeps hash s { s with log := emit (some hash) s.log entry } where
  grows := by
    rw [emit_nextSeq]
    exact le_u64SaturatingAdd s.log.nextSeq_lt
  consistent ok room := by
    rw [Unsaturated, emit_nextSeq] at room
    exact ok.emit entry room

theorem applyOp_keeps (headers : ∀ n, (env n).headerWrite = none)
    (clean : ∀ n, (env n).cleanup = none) (s : Sys) (op : AuditOp) :
    Keeps hash s (applyOp (some hash) env s op) := by
  cases op with
  -- the three recorders differ only in the entry they queue
  | recordSpawn rec => exact emit_keeps s (.spawn rec)
  | recordRefused rec => exact emit_keeps s (.refused rec)
  | recordComplete rec => exact emit_keeps s (.complete rec)
  | flushPending budget => exact Keeps.of_same (flushPending_same env budget s)
  | driveAuditRotation budget => exact driveAuditRotation_keeps env budget s headers clean

theorem run_keeps (headers : ∀ n, (env n).headerWrite = none)
    (clean : ∀ n, (env n).cleanup = none) (s : Sys) (ops : List AuditOp) :
    Keeps hash s (Steps.run (applyOp (some hash) env) s ops) :=
  Steps.run_related (fun s => Keeps.of_same (Moves.refl s)) (fun _ _ _ => Keeps.trans)
    (applyOp_keeps env headers clean) s ops

/-! ### The first generation -/

/-- A log over a new file: nothing in it but the header. -/
structure Opened (s : Sys) : Prop where
  inodes : s.fs.inodes = [s.log.sink.inode]
  live : s.fs.live = some s.log.sink.inode
  below : s.log.sink.inode < s.fs.nextInode
  idle : s.log.rotationProgress = .idle
  ring : s.log.pendingLines = []
  empty : s.stream = []
  seq : s.log.nextSeq = 1

theorem inodes_nil (fresh : fs.inodes = []) :
    fs.live = none ∧ (fs.gen 5).toList ++ ((fs.gen 4).toList ++ ((fs.gen 3).toList ++
      ((fs.gen 2).toList ++ (fs.gen 1).toList))) = [] := by
  simp only [Fs.inodes, List.append_eq_nil_iff] at fresh ⊢
  obtain ⟨h5, h4, h3, h2, h1, live⟩ := fresh
  exact ⟨Option.toList_eq_nil_iff.mp live, h5, h4, h3, h2, h1⟩

/-- Opening in a directory without a log. -/
theorem openProbed_opened {cfg : AuditConfig} (fresh : fs.inodes = [])
    (opened : openProbed env cfg fs.openLive.1 fs.openLive.2 (probeTailFile []) = .ok s) :
    Opened s := by
  obtain ⟨absent, older⟩ := inodes_nil fresh
  have live : fs.openLive = (fs.nextInode, { fs.fresh.2 with live := some fs.nextInode }) := by
    simp [Fs.openLive, absent, Fs.fresh]
  -- an empty file: no header, and numbering starts at 1
  have probe : probeTailFile [] = ⟨0, .zero, .fresh, none, false⟩ := rfl
  rw [live, probe] at opened
  simp only [openProbed, Option.bind_none, Bool.false_eq_true, if_false] at opened
  split at opened
  · cases opened
  · cases opened
    -- the header is in the file but is no record
    have files : recordsOf ((Fs.append { fs.fresh.2 with live := some fs.nextInode } fs.nextInode
        [.raw auditHeaderV2]).files fs.nextInode) = [] := by
      simp [Fs.append, Fs.fresh]
    have inodes : Fs.inodes (Fs.append { fs.fresh.2 with live := some fs.nextInode } fs.nextInode
        [.raw auditHeaderV2]) = [fs.nextInode] := by
      simp only [Fs.inodes, Fs.append, Fs.fresh]
      simp only [List.append_eq_nil_iff] at older
      simp [older]
    split
    all_goals
      refine ⟨inodes, rfl, Nat.lt_succ_self _, rfl, rfl, ?_, rfl⟩
      simp only [Sys.stream, openedLog, files]
      rfl

theorem Opened.tick (opened : Opened s) : Opened s.tick :=
  { opened with }

/-- The boot record is the first of the chain. -/
theorem Opened.consistent (opened : Opened s) (rec : BootRecord) :
    Consistent hash (Sys.pushFront { s with log := (formatRecord (some hash) s.log (.boot rec)).2 }
      (formatRecord (some hash) s.log (.boot rec)).1) := by
  set r := (formatRecord (some hash) s.log (.boot rec)).1
  set t := Sys.pushFront { s with log := (formatRecord (some hash) s.log (.boot rec)).2 } r with ht
  have idle : t.log.rotationProgress = .idle := opened.idle
  have stream : t.stream = [r] := by
    have empty := opened.empty
    simp only [Sys.stream, List.append_eq_nil_iff] at empty
    simp [ht, Sys.stream, Sys.pushFront, formatRecord_log, opened.ring, empty]
  refine ⟨⟨?_, ?_, ?_, ?_⟩, ?_, r, ?_, ?_, rfl⟩
  · exact opened.inodes ▸ List.nodup_singleton _
  · intro i member
    rw [show t.fs.inodes = _ from opened.inodes, List.mem_singleton] at member
    exact member ▸ opened.below
  · rw [idle]
    exact opened.live
  · -- no rotation is under way
    intro g at_gen
    rw [idle] at at_gen
    cases at_gen
  · rw [Sys.history, stream, show t.fs.inodes = _ from opened.inodes]
    -- one record: nothing to link, and it is the boot record that opens the generation
    refine ⟨by simp, ?_, by simp⟩
    intro g hg x hx
    obtain rfl : g = [r] := by simpa using hg
    obtain rfl : r = x := by simpa using hx
    exact ⟨rec, rfl⟩
  · rw [stream]
    rfl
  · change s.log.nextSeq < u64SaturatingAdd s.log.nextSeq 1
    rw [opened.seq]
    decide

theorem create_consistent {cfg : AuditConfig} {path : String} {nlink : Nat}
    {warnings : CreateWarnings} (fresh : fs.inodes = [])
    (opened : create (some hash) env cfg path nlink fs = .ok (s, warnings)) :
    Consistent hash s := by
  obtain ⟨t, prev, probed, rfl⟩ := create_ok _ env opened
  obtain ⟨absent, -⟩ := inodes_nil fresh
  have blank : fs.openLive.2.bytesOf fs.openLive.1 = [] := by
    simp [Fs.openLive, absent, Fs.fresh, Fs.bytesOf]
  rw [blank] at probed ⊢
  have first := openProbed_opened env fresh probed
  -- the ring is empty, so the boot record is never dropped
  have room : t.tick.log.pendingLines.length < auditRingCap := by
    rw [show t.tick.log.pendingLines = [] from first.ring]
    decide
  have booted := emitDirect_same env (some hash) t.tick
    (.boot ⟨(ask env t).wallclockMs, t.log.daemonPid, prev, (probeTailFile []).reason⟩) room
  apply Consistent.of_same _ booted
  exact first.tick.consistent _

/-! ### What is on disk -/

/-- One chain over all generations on disk, oldest first: sequence numbers grow, each
record's chain is the hash over the chain of the record before it, and each generation
starts with a boot record that names the last chain of the generation before it. -/
structure ChainOnDisk (hash : Bytes32 → Bytes → Bytes → Bytes32) (gens : List (List Record)) :
    Prop where
  seqs : (gens.flatten.map Record.seq).Pairwise (· < ·)
  chains : gens.flatten.IsChain fun a b => ∃ prev, a.chain = some prev ∧
    b.chain = some (hash prev b.entry.kind.asBytes (hashBody b.seq b.entry.body))
  boots : ∀ g ∈ gens, ∀ r, g.head? = some r → IsBoot r
  anchors : gens.IsChain fun older newer => ∀ r, newer.head? = some r →
    ∃ last, older.getLast? = some last ∧ Anchors last r

theorem ChainOnDisk.of_linked {gens : List (List Record)} (linked : LinkedHistory hash gens) :
    ChainOnDisk hash gens where
  seqs := by
    rw [List.pairwise_map]
    have increasing : gens.flatten.IsChain fun a b : Record => a.seq < b.seq :=
      linked.links.imp fun a b link => link.1
    -- the order is transitive, so neighbours are enough
    exact increasing.pairwise
  chains := linked.links.imp fun a b link => link.2
  boots := linked.openers
  anchors := linked.anchors

/-- Dropping what has not reached the newest file leaves the files. -/
theorem Consistent.onDisk (consistent : Consistent hash s) : ChainOnDisk hash s.fs.generations := by
  apply ChainOnDisk.of_linked
  rw [consistent.placed.generations_eq]
  have linked := consistent.linked
  rw [Sys.history, Sys.stream] at linked
  exact linked.written

/-- A log opened in a directory without one leaves one linear chain on disk, whatever calls follow
and whichever of their writes, syncs, renames, copies and opens fail, as long as the `PATH.1` of an
abandoned copy can be removed. -/
theorem run_chainOnDisk {cfg : AuditConfig} {path : String} {nlink : Nat} {fs : Fs} {s : Sys}
    {warnings : CreateWarnings} (ops : List AuditOp) (fresh : fs.inodes = [])
    (opened : create (some hash) env cfg path nlink fs = .ok (s, warnings))
    (headers : ∀ n, (env n).headerWrite = none) (clean : ∀ n, (env n).cleanup = none)
    (room : (Steps.run (applyOp (some hash) env) s ops).log.nextSeq < u64Bound - 1) :
    ChainOnDisk hash (Steps.run (applyOp (some hash) env) s ops).fs.generations := by
  -- the invariant holds after `create`, every call keeps it, and it implies the chain
  have start := create_consistent env fresh opened
  exact ((run_keeps env headers clean s ops).consistent start room).onDisk

end

/-! ### A run with one rotation -/

/-- A directory without a log. -/
def emptyFs : Fs where
  live := none
  gen := fun _ => none
  files := fun _ => []
  nextInode := 0
  events := []

/-- A record that fills a log of the smallest size on its own. -/
def fillingRecord : RefusedRecord where
  wallclockMs := 0
  observerNs := 0
  agentPid := 7
  reason := ⟨longPath, valid_longPath⟩

def smallConfig : AuditConfig :=
  { AuditConfig.default 1 with maxBytes := some minRecoveryAuditMaxBytes }

/-- Fill the log, write it out and rotate. -/
def fillAndRotate : List AuditOp :=
  [.recordRefused fillingRecord, .flushPending 1, .driveAuditRotation 1]

/-- A hash that is easy to compute. -/
def sameHash (prev : Bytes32) (_ _ : Bytes) : Bytes32 := prev

/-- A small log, opened, filled and rotated under the same answer all the time. -/
def filledAndRotated (answer : Answer) : Option Sys :=
  match create (some sameHash) (fun _ => answer) smallConfig "audit" 1 emptyFs with
  | .ok (s, _) => some (Steps.run (applyOp (some sameHash) fun _ => answer) s fillAndRotate)
  | .error _ => none

/-- The sequence numbers on disk, and whether there are some left. -/
def Sys.numbers (s : Sys) : List (List Nat) × Bool :=
  (s.fs.generations.map (·.map Record.seq), s.log.nextSeq < u64Bound - 1)

set_option maxRecDepth 20000 in
theorem run_chainOnDisk_two_generations :
    ∃ t, filledAndRotated quietAnswer = some t ∧ t.numbers = ([[1, 2], [3]], true) ∧
      ChainOnDisk sameHash t.fs.generations := by
  have computed : (filledAndRotated quietAnswer).map Sys.numbers = some ([[1, 2], [3]], true) := by
    decide +kernel
  obtain ⟨t, rotated, numbers⟩ := Option.map_eq_some_iff.mp computed
  refine ⟨t, rotated, numbers, ?_⟩
  have room := of_decide_eq_true (congrArg Prod.snd numbers)
  unfold filledAndRotated at rotated
  split at rotated
  next s warnings opened =>
    cases rotated
    exact run_chainOnDisk _ _ rfl opened (fun _ => rfl) (fun _ => rfl) room
  next => cases rotated

/-- The live file cannot be renamed across devices, the copy cannot be synced, and what was copied
cannot be removed. -/
def leftoverAnswer : Answer :=
  { quietAnswer with
    renameLive := some .crossDevice
    syncAll := some (.other 5)
    cleanup := some (.other 1) }

set_option maxRecDepth 20000 in
/-- The abandoned copy stays behind as `PATH.1`, with all the records of the live file. -/
theorem leftover_repeats_records :
    ∃ t, filledAndRotated leftoverAnswer = some t ∧ t.numbers = ([[1, 2], [1, 2]], true) ∧
      ¬ ChainOnDisk sameHash t.fs.generations := by
  have computed :
      (filledAndRotated leftoverAnswer).map Sys.numbers = some ([[1, 2], [1, 2]], true) := by
    decide +kernel
  obtain ⟨t, rotated, numbers⟩ := Option.map_eq_some_iff.mp computed
  refine ⟨t, rotated, numbers, fun chain => ?_⟩
  have onDisk : t.fs.generations.map (·.map Record.seq) = [[1, 2], [1, 2]] :=
    congrArg Prod.fst numbers
  have increasing := chain.seqs
  rw [List.map_flatten, onDisk] at increasing
  revert increasing
  decide

end Varta.Audit
