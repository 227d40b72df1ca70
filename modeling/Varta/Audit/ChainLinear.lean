import Mathlib.Data.List.Pairwise
import Varta.Lib.Generations
import Varta.Audit.Create
import Varta.Audit.Directory

/-!
# The persisted chain

With the `audit-chain` feature, what lies on disk is one chain over all generations. The
chain head advances when a record is queued and the bytes follow later, so the invariant
is about the whole history: every file, with the records still on their way to the newest.
-/
namespace Varta.Audit

open Machine
open Vlp (Bytes32)

section

variable (hash : Bytes32 → Bytes → Bytes → Bytes32)

/-- `b` follows `a` in the chain. -/
def Links (a b : Record) : Prop :=
  a.seq < b.seq ∧ ∃ prev, a.chain = some prev ∧
    b.chain = some (hash prev b.entry.kind.asBytes (hashBody b.seq b.entry.body))

/-- `b` is a boot record that names the chain of `a`. -/
def Anchors (a b : Record) : Prop :=
  ∃ rec chain, b.entry = .boot rec ∧ rec.prev = some chain ∧ a.chain = some chain

def IsBoot (r : Record) : Prop := ∃ rec, r.entry = .boot rec

abbrev LinkedHistory := Generations.Chained (Links hash) Anchors IsBoot

/-- The invariant of the log with its directory. -/
structure Consistent (s : Sys) : Prop where
  placed : Placed s
  linked : LinkedHistory hash s.history
  head : ∃ r, s.stream.getLast? = some r ∧ r.seq < s.log.nextSeq ∧ r.chain = some s.log.prevChain

def Unsaturated (s : Sys) : Prop := s.log.nextSeq < u64Bound - 1

variable {hash}

variable {t : Sys} {fs fs' : Fs}

variable {s : Sys} (log : RecoveryAuditLog) (entry : Entry)

theorem Consistent.of_rotates (consistent : Consistent hash s) (rotates : Rotates s t) :
    Consistent hash t where
  placed := rotates.placed
  linked := consistent.linked.suffix rotates.history
  head := by
    rw [rotates.stream, rotates.nextSeq, rotates.prevChain]
    exact consistent.head

theorem Consistent.of_same (consistent : Consistent hash s) (same : Moves s t) :
    Consistent hash t :=
  consistent.of_rotates (Rotates.of_same same consistent.placed)

/-! ### Emitting -/

theorem formatRecord_log :
    (formatRecord (some hash) log entry).2 = { log with
      nextSeq := u64SaturatingAdd log.nextSeq 1
      nextSeq_lt := u64SaturatingAdd_lt _ _
      prevChain := hash log.prevChain entry.kind.asBytes (hashBody log.nextSeq entry.body) } := rfl

theorem formatRecord_record :
    (formatRecord (some hash) log entry).1 = ⟨log.nextSeq, log.nextSeq_lt, entry,
      some (hash log.prevChain entry.kind.asBytes (hashBody log.nextSeq entry.body))⟩ := rfl

/-- The next record links to the record the chain head stands for. -/
theorem links_formatRecord {log : RecoveryAuditLog} {last : Record} (below : last.seq < log.nextSeq)
    (chain : last.chain = some log.prevChain) :
    Links hash last (formatRecord (some hash) log entry).1 :=
  ⟨below, log.prevChain, chain, rfl⟩

theorem emit_nextSeq : (emit (some hash) log entry).nextSeq = u64SaturatingAdd log.nextSeq 1 := by
  unfold emit
  split
  · rfl
  · rfl

/-- A queued record extends the newest generation; a dropped one only burns a number. -/
theorem Consistent.emit (consistent : Consistent hash s) (entry : Entry)
    (room : u64SaturatingAdd s.log.nextSeq 1 < u64Bound - 1) :
    Consistent hash { s with log := emit (some hash) s.log entry } := by
  have next := u64SaturatingAdd_gt room
  obtain ⟨last, newest, below, chain⟩ := consistent.head
  unfold Audit.emit
  split
  · -- a full ring: the chain head stays, and the number is skipped
    exact ⟨⟨consistent.placed.nodup, consistent.placed.below, consistent.placed.newest,
      consistent.placed.gap⟩, consistent.linked, last, newest, lt_trans below next, chain⟩
  · have stream : Sys.stream { s with log := { (formatRecord (some hash) s.log entry).2 with
        pendingLines := s.log.pendingLines ++ [(formatRecord (some hash) s.log entry).1] } } =
          s.stream ++ [(formatRecord (some hash) s.log entry).1] := by
      simp [Sys.stream, formatRecord_log]
    refine ⟨⟨consistent.placed.nodup, consistent.placed.below, consistent.placed.newest,
      consistent.placed.gap⟩, ?_, ?_⟩
    · have linked := consistent.linked
      rw [Sys.history] at linked
      -- the newest generation has its boot record at least
      have started : s.stream ≠ [] := by
        intro empty
        simp [empty] at newest
      have extended := linked.append started (r := (formatRecord (some hash) s.log entry).1) <| by
        intro a ha
        obtain rfl : last = a := Option.mem_unique newest ha
        exact links_formatRecord entry below chain
      rw [← stream] at extended
      exact extended
    · refine ⟨(formatRecord (some hash) s.log entry).1, ?_, next, rfl⟩
      have last_of := congrArg List.getLast? stream
      rw [List.getLast?_concat] at last_of
      exact last_of

/-! ### A new generation -/

/-- The directory after the new live file was created. -/
structure Created (fs fs' : Fs) : Prop where
  live : fs'.live = some fs.nextInode
  gen : fs'.gen = fs.gen
  nextInode : fs'.nextInode = fs.nextInode + 1
  events : fs'.events = fs.events
  files : ∀ i, i ≠ fs.nextInode → fs'.files i = fs.files i
  empty : fs'.files fs.nextInode = []

theorem createLive_ok {answer : Answer} {inode : Nat}
    (created : fs.createLive answer = (.ok inode, fs')) :
    fs.live = none ∧ inode = fs.nextInode ∧ Created fs fs' := by
  unfold Fs.createLive at created
  split at created
  · cases created
  next absent =>
    split at created
    · cases created
    · cases created
      refine ⟨absent, rfl, rfl, rfl, rfl, rfl, fun i hi => ?_, ?_⟩
      · exact Function.update_of_ne hi _ _
      · exact Function.update_self _ _ _

theorem createLive_error {answer : Answer} {e : IoError}
    (failed : fs.createLive answer = (.error e, fs')) : fs' = fs := by
  unfold Fs.createLive at failed
  split at failed
  · cases failed
    rfl
  · split at failed <;> cases failed
    rfl

theorem Created.inodes (created : Created fs fs') (absent : fs.live = none) :
    fs'.inodes = fs.inodes ++ [fs.nextInode] := by
  simp [Fs.inodes, created.gen, created.live, absent]

/-- `s` right after the swap to a new live file in `fs`, the boot record in the ring. -/
def swapped (hash : Bytes32 → Bytes → Bytes → Bytes32) (s : Sys) (fs : Fs) (rec : BootRecord)
    (progress : RotationProgress) : Sys :=
  { s with
    fs := fs
    log := { (formatRecord (some hash) s.log (.boot rec)).2 with
      sink := ⟨s.fs.nextInode, [.raw auditHeaderV2]⟩
      pendingLines := [(formatRecord (some hash) s.log (.boot rec)).1]
      rotationProgress := progress } }

theorem swapped_stream (created : Created s.fs fs) (rec : BootRecord)
    (progress : RotationProgress) :
    (swapped hash s fs rec progress).stream =
      [(formatRecord (some hash) s.log (.boot rec)).1] := by
  simp [Sys.stream, swapped, created.empty]

/-- The new generation starts with a boot record behind all that `s` had on disk. -/
theorem swapped_history (placed : Placed s) (absent : s.fs.live = none) (created : Created s.fs fs)
    (rec : BootRecord) (progress : RotationProgress)
    (drained : s.stream = recordsOf (s.fs.files s.log.sink.inode)) :
    (swapped hash s fs rec progress).history =
      s.history ++ [[(formatRecord (some hash) s.log (.boot rec)).1]] := by
  -- nothing is on its way, so the history is what is on disk
  have disk : (s.fs.inodes.map fun i => recordsOf (s.fs.files i)) = s.history := by
    rw [Sys.history, drained]
    exact placed.generations_eq
  have older : (s.fs.inodes.map fun i => recordsOf (fs.files i)) = s.history := by
    rw [← disk]
    apply List.map_congr_left
    intro i member
    rw [created.files i (Nat.ne_of_lt (placed.below i member))]
  rw [Sys.history, swapped_stream created]
  simp only [swapped, created.inodes absent, List.dropLast_concat, older]

theorem swapped_placed (placed : Placed s) (absent : s.fs.live = none) (created : Created s.fs fs)
    (rec : BootRecord) : Placed (swapped hash s fs rec .syncingDir) := by
  have inodes := created.inodes absent
  refine ⟨?_, ?_, created.live, fun g hg => by cases hg⟩
  · -- the new inode is above all the others
    simp only [swapped, inodes, List.nodup_append]
    refine ⟨placed.nodup, List.nodup_singleton _, ?_⟩
    intro i member j hj
    rw [List.mem_singleton.mp hj]
    exact Nat.ne_of_lt (placed.below i member)
  · simp only [swapped, inodes, created.nextInode]
    intro i member
    rcases List.mem_append.mp member with old | new
    · exact Nat.lt_succ_of_lt (placed.below i old)
    · rw [List.mem_singleton.mp new]
      exact Nat.lt_succ_self _

theorem Consistent.swap (consistent : Consistent hash s) (absent : s.fs.live = none)
    (created : Created s.fs fs) (rec : BootRecord) (anchored : rec.prev = some s.log.prevChain)
    (room : u64SaturatingAdd s.log.nextSeq 1 < u64Bound - 1)
    (drained : s.stream = recordsOf (s.fs.files s.log.sink.inode)) :
    Consistent hash (swapped hash s fs rec .syncingDir) := by
  obtain ⟨last, newest, below, chain⟩ := consistent.head
  refine ⟨swapped_placed consistent.placed absent created rec, ?_, ?_⟩
  · -- the boot record links to the last record and names its chain
    rw [swapped_history consistent.placed absent created rec _ drained]
    have linked := consistent.linked
    rw [Sys.history] at linked ⊢
    apply linked.open newest (links_formatRecord (.boot rec) below chain)
    · exact ⟨rec, s.log.prevChain, rfl, anchored, chain⟩
    · exact ⟨rec, rfl⟩
  · -- the boot record is now the last one, and the chain head is its hash
    refine ⟨_, by rw [swapped_stream created]; rfl, ?_, rfl⟩
    exact u64SaturatingAdd_gt room

variable (env : Nat → Answer)

variable (start budget : Nat) (s : Sys)

theorem syncGeneration_same : Moves (s.setProgress .syncingDir) (syncGeneration env s) := by
  have flushed := flushAndSync_same env s
  unfold syncGeneration
  split
  next e t h =>
    rw [h] at flushed
    exact (flushed.trans (same_latch t e)).setProgress _
  next d t h =>
    rw [h] at flushed
    apply (flushed.setProgress .syncingDir).trans
    apply Moves.of_log <;> rfl

/-- From the swap to the end of `Finalizing` nothing comes between header and boot. -/
theorem openGeneration_same {s : Sys} {fs : Fs} (headers : ∀ n, (env n).headerWrite = none)
    (ring : s.log.pendingLines = []) (finalChain : Bytes32) :
    ∃ rec : BootRecord, rec.prev = some finalChain ∧
      Moves (swapped hash s fs rec .syncingDir)
        (openGeneration env (some hash) s.fs.nextInode finalChain { s with fs := fs }.tick) := by
  set a := headerWritten (swapSink s.fs.nextInode { s with fs := fs }.tick) with ha
  refine ⟨⟨(ask env a).wallclockMs, a.log.daemonPid, some finalChain, .rotation⟩, rfl, ?_⟩
  unfold openGeneration
  dsimp only
  have header : (ask env (swapSink s.fs.nextInode (Sys.tick { s with fs := fs }))).headerWrite =
      none := headers _
  rw [header]
  have room : a.tick.log.pendingLines.length < auditRingCap := by
    rw [show a.tick.log.pendingLines = s.log.pendingLines from rfl, ring]
    decide
  have booted := emitDirect_same env (some hash) a.tick
    (.boot ⟨(ask env a).wallclockMs, a.log.daemonPid, some finalChain, .rotation⟩) room
  apply Moves.trans _ ((booted.setProgress .syncingDir).trans (syncGeneration_same env _))
  -- both sides hold the boot record in the ring, above an unwritten header
  apply Moves.of_log <;> first | rfl | skip
  simp [swapped, Sys.pushFront, Sys.setProgress, formatRecord_log, formatRecord_record, ha,
    headerWritten, swapSink, bufWrite, Sys.tick, ring]

/-! ### The rotation loop -/

/-- A rotation begins with everything on its way written out, or does not begin. -/
theorem beginRotation_cases :
    Moves s (beginRotation env start budget s).2 ∨
      ∃ u, Moves s u ∧ (beginRotation env start budget s).2 =
        u.setProgress (.renaming auditRotationGenerations) := by
  unfold beginRotation
  dsimp only
  split
  next t h => exact .inl ((drainAll_same env h).1.trans (same_exceedRotationBudget t))
  next t h => exact .inl (drainAll_same env h).1
  next t h =>
    have drained := (drainAll_same env h).1
    have flushed := flushAndSync_same env t
    split
    next e u failed =>
      rw [failed] at flushed
      exact .inl (drained.trans (flushed.trans (same_latch u e)))
    next d u ok =>
      rw [ok] at flushed
      exact .inr ⟨u, drained.trans flushed, rfl⟩

/-- The `Finalizing` round defers, or opens the next generation with everything on disk. -/
theorem driveFinalizing_cases (chainHash : Option (Bytes32 → Bytes → Bytes → Bytes32)) (s : Sys) :
    Moves s (driveFinalizing env start budget chainHash s).2 ∨
      ∃ u fs, Moves s u ∧ u.log.pendingLines = [] ∧ u.log.sink.buffer = [] ∧ u.fs.live = none ∧
        Created u.fs fs ∧ (driveFinalizing env start budget chainHash s).2 =
          openGeneration env chainHash u.fs.nextInode u.log.prevChain (Sys.tick { u with fs := fs }) := by
  unfold driveFinalizing
  dsimp only
  split
  next t h => exact .inl ((drainAll_same env h).1.trans (same_exceedRotationBudget t))
  next t h => exact .inl (drainAll_same env h).1
  next t h =>
    -- the drain wrote every line to the file that has become `PATH.1`
    obtain ⟨drained, emptied⟩ := drainAll_same env h
    have ticked := drained.trans (same_tick t)
    split
    · exact .inl (ticked.trans (same_exceedRotationBudget _))
    · have flushed := flushAndSync_same env t.tick
      have ring := flushAndSync_pendingLines env t.tick
      have buffer := @flushAndSync_buffer env t.tick
      split
      next e u failed =>
        rw [failed] at flushed
        exact .inl ((ticked.trans flushed).trans (same_latch u e))
      next d u ok =>
        rw [ok] at flushed ring buffer
        split
        next e fs failed =>
          obtain rfl := createLive_error failed
          exact .inl (((ticked.trans flushed).trans (same_tick u)).trans (same_latch _ e))
        next inode fs opened =>
          obtain ⟨absent, rfl, created⟩ := createLive_ok opened
          refine .inr ⟨u, fs, ticked.trans flushed, ring.trans (emptied rfl), buffer rfl, absent,
            created, ?_⟩
          -- the chain head was read before the flush, which does not move it
          rw [flushed.prevChain]

/-- One step of the log: numbers only grow, and the invariant survives as long as they
have not run out. -/
structure Keeps (hash : Bytes32 → Bytes → Bytes → Bytes32) (s t : Sys) : Prop where
  grows : s.log.nextSeq ≤ t.log.nextSeq
  consistent : Consistent hash s → Unsaturated t → Consistent hash t

theorem Keeps.trans {s u : Sys} (first : Keeps hash s t) (second : Keeps hash t u) :
    Keeps hash s u where
  grows := le_trans first.grows second.grows
  consistent ok room :=
    second.consistent (first.consistent ok (lt_of_le_of_lt second.grows room)) room

theorem Keeps.of_same {s : Sys} (same : Moves s t) : Keeps hash s t :=
  ⟨same.nextSeq.ge, fun ok _ => ok.of_same same⟩

theorem Keeps.of_rotates {s : Sys} (next : t.log.nextSeq = s.log.nextSeq)
    (rotates : Placed s → Rotates s t) : Keeps hash s t :=
  ⟨next.ge, fun ok _ => ok.of_rotates (rotates ok.placed)⟩

/-- The last rename of a round and the move of the live file, whatever becomes of it. -/
theorem moveLive_settled {g : Nat} {s : Sys} (clean : ∀ n, (env n).cleanup = none)
    (at_gen : s.log.rotationProgress = .renaming g) (last : ¬ g > 1)
    (ok : shiftGeneration env g s = (.ok (), t)) (placed : Placed s) :
    Rotates s (t.setProgress .idle) ∧ MoveSettled t (rotateLiveToFirst env t) := by
  have elsewhere : s.log.rotationProgress ≠ .finalizing := by
    rw [at_gen]
    simp
  have shifted := shiftGeneration_ok env placed at_gen ok
  have first : g = 1 := by
    have low := (placed.gap g at_gen).1
    omega
  rw [first] at shifted
  constructor
  · exact shifted.rotates placed _ elsewhere (by simp) (by simp)
  · exact (rotateLiveToFirst_cases env t).settled env clean (shifted.ready placed elsewhere)

/-- A renaming round: shift, give up, or go on to the next state. -/
theorem driveRenaming_keeps (g : Nat) (s : Sys) (clean : ∀ n, (env n).cleanup = none)
    (at_gen : s.log.rotationProgress = .renaming g) :
    Keeps hash s (driveRenaming env start budget g s).2 := by
  have ticked : s.tick.log.rotationProgress = .renaming g := at_gen
  have elsewhere : s.tick.log.rotationProgress ≠ .finalizing := by
    rw [ticked]
    simp
  unfold driveRenaming
  split
  · exact Keeps.of_same ((same_tick s).trans (same_exceedRotationBudget _))
  · apply (Keeps.of_same (same_tick s)).trans
    split
    next e t failed =>
      obtain rfl := shiftGeneration_error env failed
      refine Keeps.of_rotates rfl fun placed => ?_
      -- the rename failed: the files that have moved up stay there, with a gap below them
      have idle : Placed (abandonRotation s.tick.tick e) :=
        ⟨placed.nodup, placed.below, placed.live elsewhere, fun g hg => by cases hg⟩
      exact Rotates.of_inodes idle rfl rfl rfl rfl rfl
    next t ok =>
      have log : t.log = s.tick.log := by
        have kept := shiftGeneration_log env g s.tick
        rwa [ok] at kept
      split
      next more =>
        refine Keeps.of_rotates (show t.log.nextSeq = _ by rw [log]) fun placed => ?_
        -- the gap has moved one generation down
        have shifted := shiftGeneration_ok env placed at_gen ok
        apply shifted.rotates placed _ elsewhere (by simp)
        intro k hk
        cases hk
        have bound := (placed.gap g at_gen).2.1
        omega
      next last =>
        have next := (rotateLiveToFirst_cases env t).nextSeq
        have settled := moveLive_settled env clean ticked last ok
        rw [log] at next
        split
        next e u failed =>
          rw [failed] at next settled
          refine Keeps.of_rotates next fun placed => ?_
          obtain ⟨shifted, kept⟩ := settled placed
          exact shifted.trans (Rotates.from_progress kept _)
        next u moved =>
          rw [moved] at next settled
          refine Keeps.of_rotates next fun placed => ?_
          obtain ⟨shifted, kept⟩ := settled placed
          exact shifted.trans (Rotates.from_progress kept _)

/-- Everything is on disk, and the next generation opens with a boot record. -/
theorem openGeneration_keeps {s : Sys} (headers : ∀ n, (env n).headerWrite = none)
    (ring : s.log.pendingLines = []) (written : s.log.sink.buffer = []) (absent : s.fs.live = none)
    (created : Created s.fs fs) :
    Keeps hash s (openGeneration env (some hash) s.fs.nextInode s.log.prevChain
      (Sys.tick { s with fs := fs })) := by
  obtain ⟨rec, anchored, same⟩ := @openGeneration_same hash env s fs headers ring s.log.prevChain
  have numbered : (openGeneration env (some hash) s.fs.nextInode s.log.prevChain
      (Sys.tick { s with fs := fs })).log.nextSeq = u64SaturatingAdd s.log.nextSeq 1 :=
    same.nextSeq
  refine ⟨?_, fun consistent room => ?_⟩
  · rw [numbered]
    exact le_u64SaturatingAdd s.log.nextSeq_lt
  · have disk : s.stream = recordsOf (s.fs.files s.log.sink.inode) := by
      simp [Sys.stream, ring, written]
    rw [Unsaturated, numbered] at room
    exact (consistent.swap absent created rec anchored room disk).of_same same

/-- The `Finalizing` round defers without loss or opens the next generation. -/
theorem driveFinalizing_keeps (headers : ∀ n, (env n).headerWrite = none) :
    Keeps hash s (driveFinalizing env start budget (some hash) s).2 := by
  obtain same | ⟨u, fs, synced, ring, buffer, absent, created, opened⟩ :=
    driveFinalizing_cases env start budget (some hash) s
  · exact Keeps.of_same same
  · rw [opened]
    exact (Keeps.of_same synced).trans
      (openGeneration_keeps env headers ring buffer absent created)

theorem driveSyncingDir_keeps (syncing : s.log.rotationProgress = .syncingDir) :
    Keeps hash s (driveSyncingDir env start budget s).2 := by
  unfold driveSyncingDir
  split
  · exact Keeps.of_same ((same_tick s).trans (same_exceedRotationBudget _))
  · apply (Keeps.of_same (same_tick s)).trans
    refine Keeps.of_rotates ?_ fun placed => ?_
    · dsimp only
      split <;> rfl
    · -- the new live file has been the newest since it was created
      have live := placed.live (by
        rw [show s.tick.log.rotationProgress = .syncingDir from syncing]
        simp)
      dsimp only
      split
      all_goals
        refine Rotates.of_inodes ?_ rfl rfl rfl rfl rfl
        exact ⟨placed.nodup, placed.below, live, fun g hg => by cases hg⟩

theorem driveRound_keeps (start budget : Nat) (s : Sys)
    (headers : ∀ n, (env n).headerWrite = none) (clean : ∀ n, (env n).cleanup = none) :
    Keeps hash s (driveRound env start budget (some hash) s).2 := by
  unfold driveRound
  split
  · exact Keeps.of_same ((same_tick s).trans (same_exceedRotationBudget _))
  · apply (Keeps.of_same (same_tick s)).trans
    dsimp only
    split
    · exact Keeps.of_same (Moves.refl _)
    next g at_gen => exact driveRenaming_keeps env start budget g _ clean at_gen
    next => exact driveFinalizing_keeps env start budget _ headers
    next syncing => exact driveSyncingDir_keeps env start budget _ syncing

/-- By induction on the rounds: the loop keeps the invariant. -/
theorem driveLoop_keeps (fuel : Nat) (s : Sys) (headers : ∀ n, (env n).headerWrite = none)
    (clean : ∀ n, (env n).cleanup = none) :
    Keeps hash s (driveLoop env start budget (some hash) fuel s).2 := by
  induction fuel generalizing s with
  | zero => exact Keeps.of_same (Moves.refl s)
  | succ fuel ih =>
    have round := @driveRound_keeps hash env start budget s headers clean
    rw [driveLoop]
    split
    next outcome t h =>
      rw [h] at round
      exact round
    next t h =>
      rw [h] at round
      -- the loop goes on from a state that satisfies the invariant
      exact round.trans (ih t)

theorem beginRotation_keeps (idle : s.log.rotationProgress = .idle) :
    Keeps hash s (beginRotation env start budget s).2 := by
  obtain same | ⟨u, synced, begun⟩ := beginRotation_cases env start budget s
  · exact Keeps.of_same same
  · rw [begun]
    apply (Keeps.of_same synced).trans
    refine Keeps.of_rotates rfl fun placed => ?_
    -- the files stay where they are while the first rename is still to come
    have live := placed.live (by rw [synced.progress, idle]; simp)
    refine Rotates.of_inodes ?_ rfl rfl rfl rfl rfl
    refine ⟨placed.nodup, placed.below, live, fun g hg => ?_⟩
    cases hg
    exact ⟨by decide, by decide, fun h => absurd h (by decide)⟩

theorem driveAuditRotation_keeps (headers : ∀ n, (env n).headerWrite = none)
    (clean : ∀ n, (env n).cleanup = none) :
    Keeps hash s (driveAuditRotation env budget (some hash) s).2 := by
  unfold driveAuditRotation
  split
  · exact Keeps.of_same (Moves.refl s)
  · apply (Keeps.of_same (same_tick s)).trans
    have begun : Keeps hash s.tick (if s.tick.log.rotationProgress = .idle then
        beginRotation env (ask env s).instant budget s.tick else (none, s.tick)).2 := by
      split
      next idle => exact beginRotation_keeps env _ _ _ idle
      next => exact Keeps.of_same (Moves.refl _)
    dsimp only
    split
    next outcome t h =>
      rw [h] at begun
      exact begun
    next t h =>
      rw [h] at begun
      exact begun.trans (driveLoop_keeps env _ _ _ _ headers clean)

end

end Varta.Audit
