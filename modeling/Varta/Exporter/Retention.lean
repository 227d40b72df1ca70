import Varta.Exporter.Calls
import Varta.Lib.Steps

/-!
# What the exporter keeps

A line that the kernel has been handed is in `PATH` or in one of `PATH.1` to `PATH.5`, until five
more rotations have gone through. This rests on the sink's file having a name: a copy across
devices takes it away, and a rotation that fails half way moves generations without a move of the
live file.
-/
namespace Varta.Exporter

/-! ### Rotations that keep -/

/-- The oldest generation is left alone if the rotation fails later, and a live file that cannot be
renamed can be made again. -/
def rotationRetains (a : Answers) (fs : Files Path Piece) : Bool :=
  if rotationFails a fs then !disturbs a fs else a.renameLive.isNone || !a.createLive.fails

def opRetains (s : Sys) (op : Op) : Bool := (op.rotation s).all fun (a, t) => rotationRetains a t.fs

/-! ### Where a piece is -/

def Piece.serial? : Piece → Option Nat
  | .old _ => none
  | .line serial _ => some serial

/-- `PATH` and `PATH.1` to `PATH.5`. -/
def Path.Exported : Path → Prop
  | .live => True
  | .generation g => 1 ≤ g ∧ g ≤ maxRotationGenerations

/-- How many rotations the file of this name has been through. -/
def Path.age : Path → Nat
  | .live => 0
  | .generation g => g

/-- What the files of these names hold. -/
def Sys.exported (s : Sys) : List Piece :=
  (.live :: (List.range maxRotationGenerations).map fun g => .generation (g + 1)).flatMap
    fun path => (s.fs.entry path).elim [] s.fs.data

variable {s t : Sys}

theorem mem_exported {path : Path} {inode : Nat} {piece : Piece} (exported : path.Exported)
    (named : s.fs.entry path = some inode) (there : piece ∈ s.fs.data inode) :
    piece ∈ s.exported := by
  refine List.mem_flatMap.mpr ⟨path, ?_, by rw [named]; exact there⟩
  cases path with
  | live => exact List.mem_cons_self
  | generation g =>
    refine List.mem_cons_of_mem _ (List.mem_map.mpr ⟨g - 1, List.mem_range.mpr ?_, ?_⟩)
    · exact Nat.sub_one_lt_of_le exported.1 exported.2
    · rw [Nat.sub_add_cancel exported.1]

/-- The piece is exported, with a bound on the rotations since it was handed over. -/
def Sys.HoldsSince (s : Sys) (piece : Piece) (moved : Nat) : Prop :=
  ∃ path inode, path.Exported ∧ s.fs.entry path = some inode ∧ piece ∈ s.fs.data inode ∧
    path.age + moved ≤ s.moves + 1

/-- Everything handed over is held, or five rotations old. -/
structure Held (s : Sys) : Prop where
  wf : s.fs.Wf
  kept : ∀ piece moved, (piece, moved) ∈ s.handed →
    moved + maxRotationGenerations ≤ s.moves ∨ s.HoldsSince piece moved

theorem Sys.HoldsSince.mono {piece : Piece} {moved : Nat} (holds : s.HoldsSince piece moved)
    (wf : s.fs.Wf) (moves : t.moves = s.moves) (grows : s.fs.Grows t.fs)
    (names : ∀ path i, path.Exported → s.fs.entry path = some i → t.fs.entry path = some i) :
    t.HoldsSince piece moved := by
  obtain ⟨path, inode, exported, named, there, young⟩ := holds
  refine ⟨path, inode, exported, names path inode exported named,
    grows.data inode (wf path inode named) piece there, ?_⟩
  rw [moves]
  exact young

/-- A step that hands nothing over and takes no exported name away. -/
theorem Held.mono (held : Held s) (wf : t.fs.Wf) (handed : t.handed = s.handed)
    (moves : t.moves = s.moves) (grows : s.fs.Grows t.fs)
    (names : ∀ path i, path.Exported → s.fs.entry path = some i → t.fs.entry path = some i) :
    Held t := by
  refine ⟨wf, fun piece moved given => ?_⟩
  rw [handed] at given
  rw [moves]
  exact (held.kept piece moved given).imp_right fun holds => holds.mono held.wf moves grows names

theorem Held.adjusted (held : Held s) (same : Adjusted s t) : Held t := by
  have moves : t.moves = s.moves := congrArg (List.count _) same.events
  refine held.mono (same.fs ▸ held.wf) same.handed moves (same.fs ▸ .refl _) ?_
  rw [same.fs]
  exact fun _ _ _ named => named

/-- Where the sink writes to. -/
def Sys.SinkNamed (s : Sys) : Prop :=
  ∃ path, path.Exported ∧ path.age ≤ 1 ∧ s.fs.entry path = some s.exporter.sink.inode

/-- What the sink hands over is in a file with a name. -/
theorem Held.handOver (held : Held s) {n : Nat}
    (named : s.SinkNamed ∨ s.exporter.sink.buffer.take n = []) : Held (s.handOver n) := by
  have grown := Files.grows_append s.fs s.exporter.sink.inode (s.exporter.sink.buffer.take n)
  refine ⟨held.wf.append _ _, fun piece moved given => ?_⟩
  rcases List.mem_append.mp given with before | now
  · refine (held.kept piece moved before).imp_right fun holds => ?_
    exact holds.mono held.wf rfl grown fun _ _ _ named => named
  · obtain ⟨_, there, same⟩ := List.mem_map.mp now
    cases same
    rcases named with ⟨path, exported, young, named⟩ | nothing
    · right
      refine ⟨path, _, exported, named, Files.mem_append _ _ there, ?_⟩
      have same : (s.handOver n).moves = s.moves := rfl
      omega
    · rw [nothing] at there
      cases there

/-- A rotation that goes through makes everything one older. -/
theorem Held.rotated {a : Answers} {s t : Sys} (held : Held s)
    (live : s.fs.entry .live = some s.exporter.sink.inode) (rotated : Rotated a s t) : Held t := by
  refine ⟨rotated.wf held.wf, fun piece moved given => ?_⟩
  rw [rotated.handed] at given
  rw [rotated.moves]
  rcases held.kept piece moved given with old | ⟨path, inode, exported, named, there, young⟩
  · exact Or.inl (by omega)
  have still := rotated.grows.data inode (held.wf path inode named) piece there
  cases path with
  | live =>
    -- the live file is the sink's
    rw [live] at named
    cases named
    obtain ⟨i, first, copied⟩ := rotated.first
    right
    refine ⟨.generation 1, i, ⟨Nat.le_refl 1, by decide⟩, first, copied piece there, ?_⟩
    rw [rotated.moves]
    simp only [Path.age] at young ⊢
    omega
  | generation g =>
    simp only [Path.age] at young
    rcases Nat.lt_or_eq_of_le exported.2 with younger | oldest
    · right
      refine ⟨.generation (g + 1), inode, ⟨by omega, younger⟩, ?_, still, ?_⟩
      · rw [rotated.shifted g exported.1 younger]
        exact named
      · rw [rotated.moves]
        simp only [Path.age]
        omega
    · -- `PATH.5` is lost, and what it held is five rotations old
      exact Or.inl (by omega)

/-! ### The invariant -/

/-- The sink's file is the live one, or `PATH.1` while the live one is missing. -/
structure Retained (s : Sys) : Prop extends Opened s, Held s where
  first : s.exporter.rotationReopenPending = true →
    s.fs.entry (.generation 1) = some s.exporter.sink.inode

theorem Retained.sinkNamed (retained : Retained s) : s.SinkNamed := by
  cases pending : s.exporter.rotationReopenPending with
  | false => exact ⟨.live, trivial, Nat.zero_le 1, retained.live pending⟩
  | true => exact ⟨.generation 1, ⟨Nat.le_refl 1, by decide⟩, Nat.le_refl 1, retained.first pending⟩

theorem Retained.adjusted (retained : Retained s) (same : Adjusted s t) :
    Retained t := by
  refine ⟨retained.toOpened.adjusted same, retained.toHeld.adjusted same, ?_⟩
  rw [same.pending, same.fs, same.inode]
  exact retained.first

theorem Retained.writes (retained : Retained s) (writes : Writes s t) : Retained t := by
  induction writes with
  | refl => exact retained
  | handOver n before ih =>
    exact ⟨⟨ih.below, ih.live⟩, ih.toHeld.handOver (Or.inl ih.sinkNamed), ih.first⟩
  | adjust before same ih => exact ih.adjusted same

section

variable (a : Answers)

theorem Held.created {s : Sys} {fs : Files Path Piece} (held : Held s) (made : Made .live s.fs fs) :
    Held { s with fs := fs } :=
  held.mono (made.wf held.wf) rfl rfl made.toGrows fun path i _ => made.names path i

/-- The live file is made again, or the sink's file is `PATH.1` and stays so. -/
theorem Held.reopenLive {s : Sys} (held : Held s) (below : s.exporter.sink.inode < s.fs.next)
    (parked : s.fs.entry (.generation 1) = some s.exporter.sink.inode ∨
      s.exporter.sink.buffer = [] ∧
        (createNewExportFile a.createLive .live s.fs).1.isOk = true) :
    Retained (reopenLive a s).2 := by
  have opened := reopenLive_opened a below
  rcases reopenLive_cases a s with ⟨free, n, same⟩ | ⟨failed, missing⟩
  · -- the buffer of the old sink goes to `PATH.1`, or is empty
    have named : Sys.SinkNamed { s with fs := s.fs.create .live } ∨
        s.exporter.sink.buffer.take n = [] := by
      rcases parked with first | ⟨empty, _⟩
      · refine Or.inl ⟨.generation 1, ⟨Nat.le_refl 1, by decide⟩, Nat.le_refl 1, ?_⟩
        exact (Files.create_entry ..).trans ((if_neg (by simp)).trans first)
      · exact Or.inr (by rw [empty, List.take_nil])
    have dropped := (held.created (made_create free)).handOver named
    have renewed : Held (s.renewed n) := ⟨dropped.wf, dropped.kept⟩
    refine ⟨opened, renewed.adjusted same, fun pending => ?_⟩
    rw [same.pending] at pending
    cases pending
  · -- a creation that fails leaves the sink on `PATH.1`
    have first : s.fs.entry (.generation 1) = some s.exporter.sink.inode := by
      rcases parked with first | ⟨_, ok⟩
      · exact first
      · rw [failed] at ok
        cases ok
    have kept := held.created missing.made
    refine ⟨opened, ?_, fun _ => ?_⟩
    · exact kept.mono kept.wf missing.handed (congrArg (List.count _) missing.events) (.refl _)
        fun _ _ _ named => named
    · rw [missing.inode]
      exact missing.made.names _ _ first

/-- A rotation that the guard allows. -/
theorem Retained.afterRotation {s : Sys} (retained : Retained s)
    (idle : s.exporter.rotationReopenPending = false) (empty : s.exporter.sink.buffer = [])
    (retains : rotationRetains a s.fs = true) : Retained (afterRotation a s) := by
  have live := retained.live idle
  have opened := retained.toOpened
  have outcome := rotate_isOk a live
  unfold rotationRetains at retains
  unfold Exporter.afterRotation
  rcases rotate_cases a live opened.below with
    ⟨e, t, failed, shuffled, _⟩ | ⟨t, done, rotated, _⟩
  · rw [failed] at outcome ⊢
    dsimp only
    have fails : rotationFails a s.fs = true := (Bool.not_eq_eq_eq_not ..).mp outcome.symm
    rw [if_pos fails] at retains
    have still : disturbs a s.fs = false := (Bool.not_eq_eq_eq_not ..).mp retains
    -- the generations are where they were
    have names : ∀ path i, path.Exported → s.fs.entry path = some i →
        t.fs.entry path = some i := by
      intro path i exported named
      cases path with
      | live => exact shuffled.live.trans named
      | generation g => exact rotate_undisturbed a still failed exported.1 exported.2 named
    have held := retained.toHeld.mono (shuffled.wf retained.wf) shuffled.handed shuffled.moves
      shuffled.grows names
    refine Retained.adjusted ⟨shuffled.opened opened, held, fun pending => ?_⟩
      (adjusted_rememberError t e)
    rw [shuffled.exporter, idle] at pending
    cases pending
  · rw [done] at outcome ⊢
    dsimp only
    have works : ¬rotationFails a s.fs = true := by
      rw [(Bool.not_eq_eq_eq_not ..).mp outcome.symm]
      exact Bool.false_ne_true
    rw [if_neg works] at retains
    refine (retained.toHeld.rotated live rotated).reopenLive a (rotated.below opened) ?_
    rw [rotated.exporter]
    -- a copy leaves nothing to the old sink, and the live file is there again
    rcases Bool.or_eq_true_iff.mp retains with plain | made
    · exact Or.inl (rotated.renamed (Option.isNone_iff_eq_none.mp plain))
    · exact Or.inr ⟨empty, (createNewExportFile_isOk rotated.gone).trans made⟩

end

/-- Step lemma: one call. -/
theorem Retained.applyOp (s : Sys) (op : Op) (retained : Retained s) (retains : opRetains s op = true) :
    Retained (applyOp s op) := by
  have called := applyOp_called s op
  unfold opRetains at retains
  generalize op.rotation s = rotation at called retains
  generalize Exporter.applyOp s op = t at called
  cases called with
  | wrote writes => exact retained.writes writes
  | reopened a writes pending =>
    have waiting := retained.writes writes
    exact waiting.toHeld.reopenLive a waiting.below (Or.inl (waiting.first pending))
  | rotated a writes idle empty =>
    exact (retained.writes writes).afterRotation a idle empty retains

theorem Fresh.retained {s : Sys} (fresh : Fresh s) : Retained s := by
  refine ⟨fresh.toOpened, ⟨fresh.wf, fun piece moved given => ?_⟩, fun pending => ?_⟩
  · rw [fresh.handed] at given
    cases given
  · rw [fresh.idle] at pending
    cases pending

/-- Whatever was handed to the kernel is in `PATH` or in one of `PATH.1` to `PATH.5`, or five
rotations have gone through since. This holds at every point of a run in which no rotation fails
after it has got past the oldest generation, and the live file is made at once after a rotation by
copying. -/
theorem handed_lines_kept {o : OpenAnswers} {maxBytes : Option Nat} {syncEvery : Nat}
    {fs : Files Path Bytes} {s : Sys} (wf : fs.Wf)
    (opened : create o maxBytes syncEvery fs = .ok s) (ops : List Op)
    (retains : Steps.Guarded applyOp (fun s op => opRetains s op = true) s ops) :
    ∀ piece moved, (piece, moved) ∈ (Steps.run applyOp s ops).handed →
      moved + 5 ≤ (Steps.run applyOp s ops).moves ∨
        piece ∈ (Steps.run applyOp s ops).exported := by
  have retained := retains.invariant Retained.applyOp (create_fresh wf opened).retained
  intro piece moved given
  refine (retained.kept piece moved given).imp_right ?_
  rintro ⟨path, inode, exported, named, there, _⟩
  exact mem_exported exported named there

/-! ### A live file that cannot be renamed -/

def quietCreate : CreateAnswer := ⟨none, none, none, none⟩

/-- Nothing fails, and the buffer hands nothing over on its own. -/
def quietAnswers : Answers where
  write := none
  torn := 0
  spilled := 0
  syncFlush := ⟨none, 0⟩
  syncData := none
  rotateFlush := ⟨none, 0⟩
  removeOldest := none
  rename _ := none
  renameLive := none
  cloneSource := none
  createFirst := quietCreate
  guardFirst := none
  copy := none
  copied := 0
  copySync := none
  removeLive := none
  cleanupFirst := none
  createLive := quietCreate
  dropFlush := ⟨none, 0⟩
  syncDir := none

def quietOpen : OpenAnswers := ⟨quietCreate, none, none, none⟩

/-- A live file of 4096 bytes and so many generations. -/
def fullDirectory (generations : Nat) : Files Path Bytes where
  entry
    | .live => some 0
    | .generation g => if 1 ≤ g ∧ g ≤ generations then some g else none
  data i := if i = 0 then [List.replicate 4096 0x61] else []
  next := generations + 1

/-- An exporter that syncs each line and rotates at 4096 bytes. -/
def fullExporter (generations : Nat) : Except CreateError Sys :=
  create quietOpen (some 4096) 1 (fullDirectory generations)

/-- The beats of process 42. -/
def beatLine (nonce : Nat) (a : Answers) : Op := .record (.beat 42 .ok 0 nonce nonce) a

/-- The live file is on another device than `PATH.1`. -/
def crossDevice : Answers := { quietAnswers with renameLive := some .crossDevice }

def createFails (a : Answers) : Answers :=
  { a with createLive := { quietCreate with openFile := some (.other 28) } }

/-- The numbers of the lines that a run hands over, with the moves before each and whether it is
exported at the end; and the moves of the run. -/
def exportTrace (generations : Nat) (ops : List Op) : Option (List (Option Nat × Nat × Bool) × Nat) :=
  match fullExporter generations with
  | .ok s =>
    let t := Steps.run applyOp s ops
    some (t.handed.map fun (piece, moved) =>
      (piece.serial?, moved, decide (piece ∈ t.exported)), t.moves)
  | .error _ => none

set_option maxRecDepth 20000 in
/-- The live file is copied away and not made again at once: the next line goes to the inode that
has lost its name, and is in no file when the live one is there again, after no more rotation. -/
theorem copied_rotation_loses_line :
    exportTrace 0 [beatLine 1 (createFails crossDevice), beatLine 2 quietAnswers] =
      some ([(some 0, 0, true), (some 1, 1, false)], 1) := by
  decide +kernel

theorem fullDirectory_wf (generations : Nat) : (fullDirectory generations).Wf := by
  intro path i named
  unfold fullDirectory at named ⊢
  cases path with
  | live =>
    cases named
    exact Nat.succ_pos _
  | generation g =>
    dsimp only at named ⊢
    split at named
    · cases named
      omega
    · cases named

def fullRunRetains (generations : Nat) (ops : List Op) : Bool :=
  match fullExporter generations with
  | .ok s => decide (Steps.Guarded applyOp (fun s op => opRetains s op = true) s ops)
  | .error _ => false

/-- A copy and a missing live file, but not one after the other. -/
def bothFaults : List Op :=
  [beatLine 1 crossDevice, beatLine 2 (createFails quietAnswers), beatLine 3 quietAnswers]

set_option maxRecDepth 20000 in
theorem handed_lines_kept_bothFaults :
    exportTrace 0 bothFaults = some ([(some 0, 0, true), (some 1, 1, true), (some 2, 1, true)], 1) ∧
      ∃ s, fullExporter 0 = .ok s ∧ ∀ piece moved,
        (piece, moved) ∈ (Steps.run applyOp s bothFaults).handed →
          moved + 5 ≤ (Steps.run applyOp s bothFaults).moves ∨
            piece ∈ (Steps.run applyOp s bothFaults).exported := by
  refine ⟨by decide +kernel, ?_⟩
  have retains : fullRunRetains 0 bothFaults = true := by decide +kernel
  unfold fullRunRetains at retains
  split at retains
  next s opened =>
    exact ⟨s, opened, handed_lines_kept (fullDirectory_wf 0) opened _ (of_decide_eq_true retains)⟩
  next => cases retains

end Varta.Exporter
