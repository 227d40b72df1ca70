import Varta.Audit.Rotation

/-!
# What the write path keeps

Records wait in the ring, then in the sink's buffer, then lie in the sink's file. The
drains and flushes move them along that line and change nothing else that the chain or
the directory depends on; `Moves` says so once for all of them.
-/
namespace Varta.Audit

open Vlp (Bytes32)

def recordsOf (chunks : List Chunk) : List Record := chunks.filterMap Chunk.record?

@[simp] theorem recordsOf_nil : recordsOf [] = [] := rfl

@[simp] theorem recordsOf_append (front back : List Chunk) :
    recordsOf (front ++ back) = recordsOf front ++ recordsOf back :=
  List.filterMap_append

@[simp] theorem recordsOf_line (r : Record) : recordsOf [.line r] = [r] := rfl

@[simp] theorem recordsOf_raw (bytes : Bytes) : recordsOf [.raw bytes] = [] := rfl

/-- The records of the sink's file followed by those on their way to it. -/
def Sys.stream (s : Sys) : List Record :=
  recordsOf (s.fs.files s.log.sink.inode) ++ (recordsOf s.log.sink.buffer ++ s.log.pendingLines)

/-- The directory is untouched, and so is everything the next record is derived from;
records may only have come closer to the file. -/
structure Same (s t : Sys) : Prop where
  live : t.fs.live = s.fs.live
  gen : t.fs.gen = s.fs.gen
  nextInode : t.fs.nextInode = s.fs.nextInode
  events : t.fs.events = s.fs.events
  inode : t.log.sink.inode = s.log.sink.inode
  others : ∀ i, i ≠ s.log.sink.inode → t.fs.files i = s.fs.files i
  stream : t.stream = s.stream
  nextSeq : t.log.nextSeq = s.log.nextSeq
  prevChain : t.log.prevChain = s.log.prevChain
  progress : t.log.rotationProgress = s.log.rotationProgress

theorem Same.trans {s t u : Sys} (first : Same s t) (second : Same t u) : Same s u where
  live := second.live.trans first.live
  gen := second.gen.trans first.gen
  nextInode := second.nextInode.trans first.nextInode
  events := second.events.trans first.events
  inode := second.inode.trans first.inode
  others i hi := by
    rw [second.others i (by rw [first.inode]; exact hi), first.others i hi]
  stream := second.stream.trans first.stream
  nextSeq := second.nextSeq.trans first.nextSeq
  prevChain := second.prevChain.trans first.prevChain
  progress := second.progress.trans first.progress

/-- The same, and what the sink has accepted goes to the end of its file. -/
structure Moves (s t : Sys) : Prop extends Same s t where
  file : ∃ accepted : List Record, t.fs.files s.log.sink.inode ++ t.log.sink.buffer =
    s.fs.files s.log.sink.inode ++ s.log.sink.buffer ++ accepted.map .line

theorem Moves.trans {s t u : Sys} (first : Moves s t) (second : Moves t u) : Moves s u := by
  obtain ⟨accepted, file⟩ := first.file
  obtain ⟨more, rest⟩ := second.file
  rw [first.inode] at rest
  refine ⟨first.toSame.trans second.toSame, accepted ++ more, ?_⟩
  rw [rest, file, List.map_append, List.append_assoc]

/-- Counters, latched errors and sync bookkeeping do not matter. -/
theorem Moves.of_log {s t : Sys} (fs : t.fs = s.fs) (sink : t.log.sink = s.log.sink)
    (ring : t.log.pendingLines = s.log.pendingLines) (nextSeq : t.log.nextSeq = s.log.nextSeq)
    (prevChain : t.log.prevChain = s.log.prevChain)
    (progress : t.log.rotationProgress = s.log.rotationProgress) : Moves s t where
  live := by rw [fs]
  gen := by rw [fs]
  nextInode := by rw [fs]
  events := by rw [fs]
  inode := by rw [sink]
  others i _ := by rw [fs]
  stream := by rw [Sys.stream, Sys.stream, fs, sink, ring]
  nextSeq := nextSeq
  prevChain := prevChain
  progress := progress
  file := ⟨[], by rw [fs, sink]; exact (List.append_nil _).symm⟩

theorem Moves.refl (s : Sys) : Moves s s := by
  apply Moves.of_log <;> rfl

theorem same_tick (s : Sys) : Moves s s.tick := by
  apply Moves.of_log <;> rfl

theorem same_latch (s : Sys) (e : IoError) : Moves s (s.latch e) := by
  apply Moves.of_log <;> rfl

theorem same_exceedRotationBudget (s : Sys) : Moves s (exceedRotationBudget s) := by
  apply Moves.of_log <;> rfl

theorem same_exceedFlushBudget (s : Sys) : Moves s (exceedFlushBudget s) := by
  apply Moves.of_log <;> rfl

theorem Moves.setProgress {s t : Sys} (same : Moves s t) (progress : RotationProgress) :
    Moves (s.setProgress progress) (t.setProgress progress) :=
  { same with progress := rfl }

/-- What a flush hands over leaves the buffer for the end of the file. -/
theorem same_spill (s : Sys) (n : Nat) : Moves s (spill s n) where
  live := rfl
  gen := rfl
  nextInode := rfl
  events := rfl
  inode := rfl
  others i hi := by simp [spill, Fs.append, Function.update_of_ne hi]
  stream := by
    -- what is taken from the buffer is what the file gets
    have whole : recordsOf (s.log.sink.buffer.take n) ++ recordsOf (s.log.sink.buffer.drop n) =
        recordsOf s.log.sink.buffer := by
      rw [← recordsOf_append, List.take_append_drop]
    simp only [Sys.stream, spill, Fs.append, Function.update_self, recordsOf_append,
      List.append_assoc]
    rw [← whole, List.append_assoc]
  nextSeq := rfl
  prevChain := rfl
  progress := rfl
  file := by
    have file : (spill s n).fs.files s.log.sink.inode =
        s.fs.files s.log.sink.inode ++ s.log.sink.buffer.take n := Function.update_self ..
    refine ⟨[], ?_⟩
    rw [file, List.append_assoc]
    change _ ++ (s.log.sink.buffer.take n ++ s.log.sink.buffer.drop n) = _ ++ [].map Chunk.line
    rw [List.take_append_drop, List.map_nil, List.append_nil]

section

variable (env : Nat → Answer)

variable (budget : Nat) (s : Sys)

theorem flushAndSync_same : Moves s (flushAndSync env s).2 := by
  unfold flushAndSync
  split
  · -- the flush failed part of the way
    exact (same_spill s _).trans (same_tick _)
  · -- the buffer is empty; the sync itself moves nothing
    have flushed := (same_spill s s.log.sink.buffer.length).trans (same_tick _)
    dsimp only
    split
    · exact flushed.trans (same_tick _)
    · apply flushed.trans
      apply Moves.of_log <;> rfl

theorem flushAndSync_pendingLines :
    (flushAndSync env s).2.log.pendingLines = s.log.pendingLines := by
  unfold flushAndSync
  split
  · rfl
  · dsimp only
    split <;> rfl

/-- A flush that went through leaves nothing behind in the buffer. -/
theorem flushAndSync_buffer (s : Sys) {d : Nat} (ok : (flushAndSync env s).1 = .ok d) :
    (flushAndSync env s).2.log.sink.buffer = [] := by
  unfold flushAndSync at ok ⊢
  split
  -- neither failure returns a duration
  next f failed => simp [failed] at ok
  next flushed =>
    simp only [flushed] at ok
    dsimp only at ok ⊢
    split
    next f failed => simp [failed] at ok
    next => simp [spill, Sys.tick]

theorem flushDueAcceptedWrites_same : Moves s (flushDueAcceptedWrites env s).2 := by
  have flushed := flushAndSync_same env s
  unfold flushDueAcceptedWrites
  split
  next d t h =>
    rw [h] at flushed
    apply flushed.trans
    apply Moves.of_log <;> rfl
  next e t h =>
    rw [h] at flushed
    apply flushed.trans
    apply Moves.of_log <;> rfl

theorem flushDueAcceptedWrites_pendingLines :
    (flushDueAcceptedWrites env s).2.log.pendingLines = s.log.pendingLines := by
  have ring := flushAndSync_pendingLines env s
  unfold flushDueAcceptedWrites
  split
  next d t h => rw [h] at ring; exact ring
  next e t h => rw [h] at ring; exact ring

/-- `s` with `r` put back at the front of the ring. -/
def Sys.pushFront (s : Sys) (r : Record) : Sys :=
  { s with log := { s.log with pendingLines := r :: s.log.pendingLines } }

theorem same_bufWrite (r : Record) :
    Moves (s.pushFront r) (bufWrite s (.line r)) where
  live := rfl
  gen := rfl
  nextInode := rfl
  events := rfl
  inode := rfl
  others _ _ := rfl
  stream := by simp [Sys.stream, bufWrite, Sys.pushFront]
  nextSeq := rfl
  prevChain := rfl
  progress := rfl
  file := ⟨[r], (List.append_assoc ..).symm⟩

theorem same_acceptLine (r : Record) : Moves (s.pushFront r) (acceptLine s r) := by
  apply (same_bufWrite s r).trans
  apply Moves.of_log <;> rfl

theorem cadenceSync_same : Moves s (cadenceSync env s) := by
  unfold cadenceSync
  split
  · exact (same_tick s).trans (flushDueAcceptedWrites_same env _)
  · exact same_tick s

theorem cadenceSync_pendingLines : (cadenceSync env s).log.pendingLines = s.log.pendingLines := by
  unfold cadenceSync
  split
  · exact flushDueAcceptedWrites_pendingLines env _
  · rfl

theorem armRotation_same : Moves s (armRotation s) := by
  unfold armRotation
  split
  · split
    · apply Moves.of_log <;> rfl
    · exact Moves.refl s
  · exact Moves.refl s

theorem armRotation_pendingLines : (armRotation s).log.pendingLines = s.log.pendingLines := by
  unfold armRotation
  repeat' split
  all_goals rfl

/-- An accepted line has moved from the front of the ring into the buffer. -/
theorem directWriteLine_accepted {s t : Sys} {r : Record}
    (accepted : directWriteLine env s r = (true, t)) :
    t.log.pendingLines = s.log.pendingLines ∧ Moves (s.pushFront r) t := by
  unfold directWriteLine at accepted
  split at accepted
  · cases accepted
  · cases accepted
    constructor
    · rw [armRotation_pendingLines, cadenceSync_pendingLines]
      rfl
    · -- ring to buffer, then a sync that may carry it on to the file
      apply ((same_acceptLine s r).trans (same_tick _)).trans
      exact (cadenceSync_same env _).trans (armRotation_same _)

/-- A rejected line changes nothing but the latched error. -/
theorem directWriteLine_rejected {s t : Sys} {r : Record}
    (rejected : directWriteLine env s r = (false, t)) :
    t.log.pendingLines = s.log.pendingLines ∧ Moves s t := by
  unfold directWriteLine at rejected
  split at rejected
  · cases rejected
    refine ⟨rfl, ?_⟩
    apply Moves.of_log <;> rfl
  · cases rejected

/-- Putting one line back in front of the same ring. -/
theorem Moves.pushFront {s t : Sys} (same : Moves s t)
    (ring : t.log.pendingLines = s.log.pendingLines) (r : Record) :
    Moves (s.pushFront r) (t.pushFront r) := by
  refine { same with stream := ?_ }
  have stream := same.stream
  -- equal rings behind equal streams: what is in front of them is equal too
  simp only [Sys.stream, ring, ← List.append_assoc, List.append_cancel_right_eq] at stream
  simp only [Sys.stream, Sys.pushFront, ring, ← List.append_assoc, stream]

/-- With room in the ring, a boot record is either in the buffer or first in the ring. -/
theorem emitDirect_same (chainHash : Option (Bytes32 → Bytes → Bytes → Bytes32)) (s : Sys)
    (entry : Entry) (room : s.log.pendingLines.length < auditRingCap) :
    Moves (Sys.pushFront { s with log := (formatRecord chainHash s.log entry).2 }
      (formatRecord chainHash s.log entry).1) (emitDirect chainHash env s entry) := by
  have ring : (formatRecord chainHash s.log entry).2.pendingLines = s.log.pendingLines := by
    unfold formatRecord computeAndAdvanceChain
    cases chainHash <;> rfl
  unfold emitDirect
  dsimp only
  split
  next t accepted => exact (directWriteLine_accepted env accepted).2
  -- a rejected boot record waits at the front of the ring, in front of all others
  next t rejected =>
    obtain ⟨same, kept⟩ := directWriteLine_rejected env rejected
    rw [if_pos (by rw [same, ring]; exact room)]
    exact kept.pushFront same _

/-! ### Drains -/

/-- Draining the ring loses and reorders nothing. It reports an empty ring only when the
ring is empty. -/
theorem drainLines_same (start budget : Nat) (lines : List Record) (s : Sys)
    (ring : s.log.pendingLines = lines) :
    Moves s (drainLines env start budget lines s).2 ∧
      ((drainLines env start budget lines s).1 = .empty →
        (drainLines env start budget lines s).2.log.pendingLines = []) := by
  -- on the lines left in the ring; each is written or put back
  induction lines generalizing s with
  | nil => exact ⟨Moves.refl s, fun _ => ring⟩
  | cons r rest ih =>
    simp only [drainLines]
    split
    · -- out of budget before the next line
      exact ⟨same_tick s, fun h => by cases h⟩
    · have front : Moves s (Sys.pushFront
          { s.tick with log := { s.log with pendingLines := rest } } r) := by
        apply Moves.of_log <;> first | rfl | exact ring.symm
      split
      next t accepted =>
        obtain ⟨same, moved⟩ := directWriteLine_accepted env accepted
        have later := ih t same
        exact ⟨(front.trans moved).trans later.1, later.2⟩
      next t rejected =>
        obtain ⟨same, kept⟩ := directWriteLine_rejected env rejected
        refine ⟨front.trans ?_, fun h => by cases h⟩
        -- the line goes back to where it was taken from
        have back : { t with log := { t.log with pendingLines := r :: rest } } = t.pushFront r := by
          rw [Sys.pushFront, same]
        rw [back]
        exact kept.pushFront same r

/-- The drain in front of a rotation and of its last round, which first takes back an earlier
request for a sync. -/
theorem drainAll_same {start budget : Nat} {s t : Sys} {outcome : Drained}
    (drained : drainLines env start budget s.log.pendingLines
      { s with log := { s.log with deferredFsyncInDrain := false } } = (outcome, t)) :
    Moves s t ∧ (outcome = .empty → t.log.pendingLines = []) := by
  have begun : Moves s { s with log := { s.log with deferredFsyncInDrain := false } } := by
    apply Moves.of_log <;> rfl
  have drains := drainLines_same env start budget s.log.pendingLines
    { s with log := { s.log with deferredFsyncInDrain := false } } rfl
  rw [drained] at drains
  exact ⟨begun.trans drains.1, drains.2⟩

theorem flushRing_same (start budget : Nat) (s : Sys) : Moves s (flushRing env start budget s) := by
  have drained := (drainLines_same env start budget s.log.pendingLines s rfl).1
  unfold flushRing
  split
  next t h =>
    rw [h] at drained
    exact drained.trans (same_exceedFlushBudget t)
  next reason t _ h =>
    rw [h] at drained
    exact drained

/-- `flush_pending` only moves records towards the file. -/
theorem flushPending_same : Moves s (flushPending env budget s) := by
  have begun : Moves s { s.tick with log := { s.tick.log with deferredFsyncInDrain := false } }.tick := by
    apply Moves.of_log <;> rfl
  unfold flushPending
  dsimp only
  split
  · split
    · exact (begun.trans (same_tick _)).trans (same_exceedFlushBudget _)
    · have flushed := (begun.trans (same_tick _)).trans (flushDueAcceptedWrites_same env _)
      split
      next t h =>
        rw [h] at flushed
        exact flushed
      next t h =>
        rw [h] at flushed
        split
        · split
          · exact flushed.trans (same_tick t)
          · exact (flushed.trans (same_tick t)).trans (same_exceedFlushBudget _)
        · exact (flushed.trans (same_tick t)).trans (flushRing_same env _ _ _)
  · exact begun.trans (flushRing_same env _ _ _)

end

end Varta.Audit
