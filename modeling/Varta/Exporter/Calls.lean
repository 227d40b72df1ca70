import Varta.Exporter.Rotation

/-!
# Calls of the exporter

How a call hands lines to the kernel and gets to a rotation, and that the sink's file stays one
of the directory's.
-/
namespace Varta.Exporter

open Audit (IoError)

/-! ### Changes that say nothing about files -/

/-- Fields of the exporter that say nothing about files have changed. -/
structure Adjusted (s t : Sys) : Prop where
  inode : t.exporter.sink.inode = s.exporter.sink.inode
  pending : t.exporter.rotationReopenPending = s.exporter.rotationReopenPending
  fs : t.fs = s.fs
  events : t.events = s.events
  handed : t.handed = s.handed

theorem adjusted_rememberError (s : Sys) (e : IoError) : Adjusted s (s.rememberError e) :=
  ⟨rfl, rfl, rfl, rfl, rfl⟩

/-! ### The live file again -/

section

variable (a : Answers)

theorem flushSink_eq (f : FlushAnswer) (s : Sys) : ∃ n, (flushSink f s).2 = s.handOver n := by
  unfold flushSink
  split
  · exact ⟨_, rfl⟩
  · exact ⟨_, rfl⟩

theorem syncParentDir_adjusted (s : Sys) : Adjusted s (syncParentDir a s) := by
  unfold syncParentDir
  split
  · exact ⟨rfl, rfl, rfl, rfl, rfl⟩
  · exact ⟨rfl, rfl, rfl, rfl, rfl⟩

/-- The sink of the live file just made; the buffer of the old one hands over what it can. -/
def Sys.renewed (s : Sys) (n : Nat) : Sys :=
  let dropped := Sys.handOver { s with fs := s.fs.create .live } n
  { dropped with exporter := { dropped.exporter with
      sink := ⟨s.fs.next, []⟩
      rotationReopenPending := false } }

/-- The live file could not be made. -/
structure Missing (s t : Sys) : Prop where
  inode : t.exporter.sink.inode = s.exporter.sink.inode
  pending : t.exporter.rotationReopenPending = true
  made : Made .live s.fs t.fs
  events : t.events = s.events
  handed : t.handed = s.handed

theorem reopenLive_cases (s : Sys) :
    (s.fs.entry .live = none ∧ ∃ n, Adjusted (s.renewed n) (reopenLive a s).2) ∨
    ((createNewExportFile a.createLive .live s.fs).1.isOk = false ∧
      Missing s (reopenLive a s).2) := by
  have made := createNewExportFile_made a.createLive .live s.fs
  unfold reopenLive
  split
  next inode fs opened =>
    obtain ⟨free, rfl, rfl⟩ := createNewExportFile_ok opened
    refine Or.inl ⟨free, ?_⟩
    -- the old sink is dropped after the new file is there, and its buffer goes to the old file
    obtain ⟨n, flushed⟩ := flushSink_eq a.dropFlush { s with fs := s.fs.create .live }
    have synced := syncParentDir_adjusted a (swapSink a s.fs.next { s with fs := s.fs.create .live })
    unfold swapSink at synced ⊢
    rw [flushed] at synced ⊢
    exact ⟨n, synced.inode, synced.pending, synced.fs, synced.events, synced.handed⟩
  next e fs failed =>
    rw [failed] at made ⊢
    refine Or.inr ⟨rfl, ?_⟩
    have synced := syncParentDir_adjusted a { s with fs := fs }
    have files : Made .live s.fs (syncParentDir a { s with fs := fs }).fs := by
      rw [synced.fs]
      exact made
    exact ⟨synced.inode, rfl, files, synced.events, synced.handed⟩

/-! ### Calls -/

/-- The part of a call that only writes to the sink's file. -/
inductive Writes (s : Sys) : Sys → Prop
  | refl : Writes s s
  | handOver {t : Sys} (n : Nat) (before : Writes s t) : Writes s (t.handOver n)
  | adjust {t u : Sys} (before : Writes s t) (same : Adjusted t u) : Writes s u

theorem Writes.flushSink {s t : Sys} (writes : Writes s t) (f : FlushAnswer) :
    Writes s (flushSink f t).2 := by
  obtain ⟨n, flushed⟩ := flushSink_eq f t
  rw [flushed]
  exact writes.handOver n

theorem writeLine_writes (text : Bytes) (s : Sys) : Writes s (writeLine a text s).2 := by
  have pushed : ∀ text, Writes s (s.push text) := fun _ => Writes.refl.adjust ⟨rfl, rfl, rfl, rfl, rfl⟩
  unfold writeLine
  split
  · exact (pushed text).handOver a.spilled
  · exact (pushed (text.take a.torn)).handOver a.spilled

theorem Writes.flushAndSync {s t : Sys} (writes : Writes s t) : Writes s (flushAndSync a t).2 := by
  have flushed := writes.flushSink a.syncFlush
  unfold Exporter.flushAndSync
  split
  next e u failed =>
    rw [failed] at flushed
    exact flushed
  next u done =>
    rw [done] at flushed
    split <;> exact flushed

theorem Writes.syncIfDue {s t : Sys} (writes : Writes s t) : Writes s (syncIfDue a t).2 := by
  unfold Exporter.syncIfDue
  split
  · have counted : Writes s { t with exporter := { t.exporter with
        writesSinceSync := Machine.u32SaturatingAdd t.exporter.writesSinceSync 1 } } :=
      writes.adjust ⟨rfl, rfl, rfl, rfl, rfl⟩
    dsimp only
    split
    · have synced := counted.flushAndSync a
      split
      next u done =>
        rw [done] at synced
        exact synced.adjust ⟨rfl, rfl, rfl, rfl, rfl⟩
      next e u failed =>
        rw [failed] at synced
        exact synced.adjust (adjusted_rememberError u e)
    · exact counted
  · exact writes

/-- Where `after_write` has come to when it rotates or opens the live file again. -/
structure Staged (s : Sys) (next : Stage) (t : Sys) : Prop where
  writes : Writes s t
  reopening : next = .reopening → t.exporter.rotationReopenPending = true
  rotating : next = .rotating →
    t.exporter.rotationReopenPending = false ∧ t.exporter.sink.buffer = []

theorem Writes.stage {s t : Sys} (writes : Writes s t) (lineLen : Nat) :
    Staged s (stage a lineLen t).2.1 (stage a lineLen t).2.2 := by
  have synced := writes.syncIfDue a
  have stop : ∀ {u : Sys} (next : Stage), next ≠ .reopening → next ≠ .rotating → Writes s u →
      Staged s next u :=
    fun _ here there writes => ⟨writes, fun absurd => (here absurd).elim,
      fun absurd => (there absurd).elim⟩
  unfold Exporter.stage
  split
  next firstErr u due =>
    rw [due] at synced
    split
    · exact stop .done (by simp) (by simp) synced
    · split
      next pending => exact ⟨synced, fun _ => pending, fun absurd => (by cases absurd)⟩
      next idle =>
        have added : Writes s { u with exporter := { u.exporter with
            bytesWritten := Machine.u64SaturatingAdd u.exporter.bytesWritten lineLen } } :=
          synced.adjust ⟨rfl, rfl, rfl, rfl, rfl⟩
        dsimp only
        split
        · exact stop .done (by simp) (by simp) added
        · have flushed := added.flushSink a.rotateFlush
          unfold Exporter.flushSink at flushed ⊢
          cases fault : a.rotateFlush.fault with
          | some f =>
            rw [fault] at flushed
            exact stop (.failed _) (by simp) (by simp) (flushed.adjust (adjusted_rememberError _ _))
          | none =>
            rw [fault] at flushed
            refine ⟨flushed, fun absurd => (by cases absurd), fun _ => ⟨?_, ?_⟩⟩
            · exact Bool.not_eq_true _ ▸ idle
            · -- a flush that succeeds leaves nothing in the buffer
              exact List.drop_length

/-- The state in which the call rotates, if it does. -/
def rotationOf (text : Bytes) (lineLen : Nat) (s : Sys) : Option Sys :=
  match writeLine a text s with
  | (.error _, _) => none
  | (.ok (), s) =>
    match stage a lineLen s with
    | (_, .rotating, s) => some s
    | _ => none

/-- What a rotation and the call around it leave. -/
def afterRotation (s : Sys) : Sys :=
  match rotate a s with
  | (.error e, t) => t.rememberError e
  | (.ok (), t) => (reopenLive a t).2

/-- A call writes; then it may open the live file again, or rotate. -/
inductive Called (s : Sys) : Option (Answers × Sys) → Sys → Prop
  | wrote {t : Sys} (writes : Writes s t) : Called s none t
  | reopened {t : Sys} (a : Answers) (writes : Writes s t)
    (pending : t.exporter.rotationReopenPending = true) : Called s none (reopenLive a t).2
  | rotated {t : Sys} (a : Answers) (writes : Writes s t)
    (idle : t.exporter.rotationReopenPending = false) (empty : t.exporter.sink.buffer = []) :
    Called s (some (a, t)) (afterRotation a t)

theorem recordLine_called (text : Bytes) (lineLen : Nat) (s : Sys) :
    Called s ((rotationOf a text lineLen s).map (a, ·)) (recordLine a text lineLen s).2 := by
  have written := writeLine_writes a text s
  unfold rotationOf recordLine
  generalize writeLine a text s = result at written ⊢
  obtain ⟨outcome, t⟩ := result
  cases outcome with
  | error e => exact .wrote (written.adjust (adjusted_rememberError t e))
  | ok done =>
    dsimp only at written ⊢
    have staged := written.stage a lineLen
    unfold afterWrite
    generalize stage a lineLen t = stop at staged
    obtain ⟨firstErr, next, u⟩ := stop
    cases next with
    | done => exact .wrote staged.writes
    -- without the flush there is no rotation
    | failed e => exact .wrote staged.writes
    | reopening => exact .reopened a staged.writes (staged.reopening rfl)
    | rotating =>
      obtain ⟨idle, empty⟩ := staged.rotating rfl
      have called := Called.rotated a staged.writes idle empty
      unfold afterRotation at called
      dsimp only at called ⊢
      generalize rotate a u = rotated at called ⊢
      obtain ⟨outcome, v⟩ := rotated
      cases outcome <;> exact called

end

def Op.rotation (s : Sys) : Op → Option (Answers × Sys)
  | .record ev a => (rotationOf a ev.line ev.lineLen s).map (a, ·)
  | .recordEvictionPid pid observerNs a =>
    (rotationOf a (evictionLine pid observerNs) (evictionLineLen pid observerNs) s).map (a, ·)
  | .flush _ => none

theorem applyOp_called (s : Sys) (op : Op) : Called s (op.rotation s) (applyOp s op) := by
  cases op with
  | record ev a => exact recordLine_called a ev.line ev.lineLen s
  | recordEvictionPid pid observerNs a => exact recordLine_called a _ _ s
  | flush f => exact .wrote ((Writes.refl.flushSink f).adjust ⟨rfl, rfl, rfl, rfl, rfl⟩)

/-! ### The sink's file -/

/-- The sink's file is there, and is the live one unless that is missing. -/
structure Opened (s : Sys) : Prop where
  below : s.exporter.sink.inode < s.fs.next
  live : s.exporter.rotationReopenPending = false →
    s.fs.entry .live = some s.exporter.sink.inode

theorem Opened.adjusted {s t : Sys} (opened : Opened s) (same : Adjusted s t) : Opened t := by
  constructor
  · rw [same.inode, same.fs]
    exact opened.below
  · rw [same.pending, same.inode, same.fs]
    exact opened.live

theorem Opened.writes {s t : Sys} (opened : Opened s) (writes : Writes s t) : Opened t := by
  induction writes with
  | refl => exact opened
  | handOver n before ih => exact ⟨ih.below, ih.live⟩
  | adjust before same ih => exact ih.adjusted same

theorem renewed_opened (s : Sys) (n : Nat) : Opened (s.renewed n) := by
  have live : (s.fs.create .live).entry .live = some s.fs.next :=
    (Files.create_entry ..).trans (if_pos rfl)
  exact ⟨Nat.lt_succ_self _, fun _ => live⟩

theorem reopenLive_opened (a : Answers) {s : Sys} (below : s.exporter.sink.inode < s.fs.next) :
    Opened (reopenLive a s).2 := by
  rcases reopenLive_cases a s with ⟨_, n, same⟩ | ⟨_, missing⟩
  · exact (renewed_opened s n).adjusted same
  · constructor
    · rw [missing.inode]
      exact Nat.lt_of_lt_of_le below missing.made.next
    · rw [missing.pending]
      exact fun absurd => (by cases absurd)

theorem Shuffled.opened {s t : Sys} (shuffled : Shuffled s t) (opened : Opened s) : Opened t := by
  constructor
  · rw [shuffled.exporter]
    exact Nat.lt_of_lt_of_le opened.below shuffled.grows.next
  · rw [shuffled.exporter, shuffled.live]
    exact opened.live

theorem Rotated.below {a : Answers} {s t : Sys} (rotated : Rotated a s t) (opened : Opened s) :
    t.exporter.sink.inode < t.fs.next := by
  rw [rotated.exporter]
  exact Nat.lt_of_lt_of_le opened.below rotated.grows.next

theorem Opened.afterRotation {s : Sys} (a : Answers) (opened : Opened s)
    (idle : s.exporter.rotationReopenPending = false) : Opened (afterRotation a s) := by
  unfold Exporter.afterRotation
  rcases rotate_cases a (opened.live idle) opened.below with
    ⟨e, t, failed, shuffled, _⟩ | ⟨t, done, rotated, _⟩
  · rw [failed]
    exact (shuffled.opened opened).adjusted (adjusted_rememberError t e)
  · rw [done]
    exact reopenLive_opened a (rotated.below opened)

/-- Step lemma: every call leaves the sink with a file. -/
theorem Opened.applyOp (s : Sys) (op : Op) (opened : Opened s) : Opened (applyOp s op) := by
  have called := applyOp_called s op
  generalize op.rotation s = rotation at called
  generalize Exporter.applyOp s op = t at called
  cases called with
  | wrote writes => exact opened.writes writes
  | reopened a writes pending => exact reopenLive_opened a (opened.writes writes).below
  | rotated a writes idle empty => exact (opened.writes writes).afterRotation a idle

/-- What was opened is the live file. -/
theorem openOrCreate_named {o : OpenAnswers} {fs fs' : Files Path Piece} {inode : Nat} (wf : fs.Wf)
    (located : (openOrCreateExportFile o fs).mapError CreateError.io = .ok (inode, fs')) :
    fs'.entry .live = some inode ∧ fs'.Wf ∧ inode < fs'.next := by
  unfold openOrCreateExportFile at located
  split at located
  next old present =>
    split at located <;> cases located
    exact ⟨present, wf, wf _ _ present⟩
  next =>
    split at located <;> cases located
    next made =>
      obtain ⟨_, rfl, rfl⟩ := createNewExportFile_ok made
      exact ⟨(Files.create_entry ..).trans (if_pos rfl), wf.create _, Nat.lt_succ_self _⟩

/-- A new exporter has an open live file, and has done nothing. -/
structure Fresh (s : Sys) : Prop extends Opened s where
  wf : s.fs.Wf
  handed : s.handed = []
  events : s.events = []
  idle : s.exporter.rotationReopenPending = false

theorem create_fresh {o : OpenAnswers} {maxBytes : Option Nat} {syncEvery : Nat}
    {fs : Files Path Bytes} {s : Sys} (wf : fs.Wf)
    (made : create o maxBytes syncEvery fs = .ok s) : Fresh s := by
  unfold create at made
  simp only [bind, Except.bind] at made
  split at made
  · cases made
  split at made
  · cases made
  next found located =>
    split at made
    · cases made
    · cases made
      obtain ⟨named, wf, below⟩ := openOrCreate_named (wf.map _) located
      exact ⟨⟨below, fun _ => named⟩, wf, rfl, rfl, rfl⟩

end Varta.Exporter
