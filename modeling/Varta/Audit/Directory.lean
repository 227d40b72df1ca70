import Varta.Audit.LogHistory

/-!
# Generations on disk

The files of the log, oldest first, and how each rotation step changes that list. A step
never reorders generations: it drops the oldest, renames without effect on the order, or
opens a new one.
-/
namespace Varta.Audit

/-- The inodes of the log's files, oldest first. -/
def Fs.inodes (fs : Fs) : List Nat :=
  (fs.gen 5).toList ++ ((fs.gen 4).toList ++ ((fs.gen 3).toList ++ ((fs.gen 2).toList ++
    ((fs.gen 1).toList ++ fs.live.toList))))

/-- The records on disk, generation by generation. -/
def Fs.generations (fs : Fs) : List (List Record) :=
  fs.inodes.map fun i => recordsOf (fs.files i)

/-- The generations with what the log still holds for the newest. -/
def Sys.history (s : Sys) : List (List Record) :=
  (s.fs.inodes.dropLast.map fun i => recordsOf (s.fs.files i)) ++ [s.stream]

/-- Where the sink's file and the generations are in each state of the rotation. -/
structure Placed (s : Sys) : Prop where
  nodup : s.fs.inodes.Nodup
  below : ∀ i ∈ s.fs.inodes, i < s.fs.nextInode
  newest : if s.log.rotationProgress = .finalizing then
      s.fs.live = none ∧ s.fs.gen 1 = some s.log.sink.inode
    else s.fs.live = some s.log.sink.inode
  gap : ∀ g, s.log.rotationProgress = .renaming g →
    1 ≤ g ∧ g ≤ 5 ∧ (g < 5 → s.fs.gen (g + 1) = none)

variable {s t u : Sys} {first g : Nat} {e : IoError} {fs fs' : Fs}

theorem Placed.live (placed : Placed s) (elsewhere : s.log.rotationProgress ≠ .finalizing) :
    s.fs.live = some s.log.sink.inode := by
  have newest := placed.newest
  rwa [if_neg elsewhere] at newest

/-- The sink writes to the newest file. -/
theorem Placed.inodes_eq (placed : Placed s) :
    s.fs.inodes = s.fs.inodes.dropLast ++ [s.log.sink.inode] := by
  have last : s.fs.inodes.getLast? = some s.log.sink.inode := by
    have newest := placed.newest
    unfold Fs.inodes
    -- while finalizing the newest file is `PATH.1`, at all other times the live one
    split at newest
    · simp [newest.1, newest.2, List.getLast?_append]
    · simp [newest, List.getLast?_append]
  obtain ⟨older, shape⟩ := List.getLast?_eq_some_iff.mp last
  rw [shape, List.dropLast_concat]

theorem Placed.not_mem_older (placed : Placed s) :
    s.log.sink.inode ∉ s.fs.inodes.dropLast := by
  have nodup := placed.nodup
  rw [placed.inodes_eq] at nodup
  intro member
  exact (List.disjoint_of_nodup_append nodup) member (by simp)

/-- On disk is the history without what has not reached the newest file. -/
theorem Placed.generations_eq (placed : Placed s) :
    s.fs.generations =
      (s.fs.inodes.dropLast.map fun i => recordsOf (s.fs.files i)) ++
        [recordsOf (s.fs.files s.log.sink.inode)] := by
  unfold Fs.generations
  conv_lhs => rw [placed.inodes_eq]
  simp

theorem Moves.inodes (same : Moves s t) : t.fs.inodes = s.fs.inodes := by
  simp only [Fs.inodes, same.gen, same.live]

theorem Moves.placed (same : Moves s t) (placed : Placed s) : Placed t where
  nodup := by rw [same.inodes]; exact placed.nodup
  below := by rw [same.inodes, same.nextInode]; exact placed.below
  newest := by rw [same.progress, same.live, same.gen, same.inode]; exact placed.newest
  gap := by rw [same.progress, same.gen]; exact placed.gap

theorem Moves.history (same : Moves s t) (newest : s.log.sink.inode ∉ s.fs.inodes.dropLast) :
    t.history = s.history := by
  have older : (t.fs.inodes.dropLast.map fun i => recordsOf (t.fs.files i)) =
      s.fs.inodes.dropLast.map fun i => recordsOf (s.fs.files i) := by
    rw [same.inodes]
    apply List.map_congr_left
    intro i member
    -- older files are not the sink, and only the sink is written
    have other : i ≠ s.log.sink.inode := fun h => newest (h ▸ member)
    rw [same.others i other]
  rw [Sys.history, Sys.history, older, same.stream]

/-! ### Rotation steps -/

/-- A rotation step that adds no record. The history may only lose its oldest files. -/
structure Rotates (s t : Sys) : Prop where
  placed : Placed t
  history : t.history <:+ s.history
  stream : t.stream = s.stream
  nextSeq : t.log.nextSeq = s.log.nextSeq
  prevChain : t.log.prevChain = s.log.prevChain

theorem Rotates.of_history (placed : Placed t) (history : t.history = s.history)
    (stream : t.stream = s.stream) (nextSeq : t.log.nextSeq = s.log.nextSeq)
    (prevChain : t.log.prevChain = s.log.prevChain) : Rotates s t :=
  ⟨placed, history ▸ List.suffix_refl _, stream, nextSeq, prevChain⟩

theorem Rotates.of_same (same : Moves s t) (placed : Placed s) : Rotates s t :=
  Rotates.of_history (same.placed placed) (same.history placed.not_mem_older) same.stream
    same.nextSeq same.prevChain

theorem Rotates.trans (first : Rotates s t) (second : Rotates t u) :
    Rotates s u where
  placed := second.placed
  history := second.history.trans first.history
  stream := second.stream.trans first.stream
  nextSeq := second.nextSeq.trans first.nextSeq
  prevChain := second.prevChain.trans first.prevChain

/-- Where the rotation stood before does not matter. -/
theorem Rotates.from_progress (rotates : Rotates s t) (progress : RotationProgress) :
    Rotates (s.setProgress progress) t :=
  { rotates with }

theorem Moves.trans_rotates (first : Moves s t) (newest : s.log.sink.inode ∉ s.fs.inodes.dropLast)
    (second : Rotates t u) : Rotates s u where
  placed := second.placed
  history := by rw [← first.history newest]; exact second.history
  stream := second.stream.trans first.stream
  nextSeq := second.nextSeq.trans first.nextSeq
  prevChain := second.prevChain.trans first.prevChain

/-- A step that leaves the list of files and all the log's records as they are. -/
theorem Rotates.of_inodes (placed : Placed t) (inodes : t.fs.inodes = s.fs.inodes)
    (files : t.fs.files = s.fs.files) (stream : t.stream = s.stream)
    (nextSeq : t.log.nextSeq = s.log.nextSeq) (prevChain : t.log.prevChain = s.log.prevChain) :
    Rotates s t :=
  Rotates.of_history placed (by rw [Sys.history, Sys.history, inodes, files, stream]) stream
    nextSeq prevChain

section

variable (env : Nat → Answer)

/-- One generation step that went through: the source is gone, and the files keep their
order, less the oldest where that was removed. -/
structure Shifted (s t : Sys) (g : Nat) : Prop where
  log : t.log = s.log
  files : t.fs.files = s.fs.files
  live : t.fs.live = s.fs.live
  nextInode : t.fs.nextInode = s.fs.nextInode
  source : t.fs.gen g = none
  inodes : t.fs.inodes = s.fs.inodes ∨ ∃ i, s.fs.inodes = i :: t.fs.inodes

/-- What one generation step comes to. Nothing to rename counts as renamed. -/
inductive GenerationStep (g : Nat) (s : Sys) : Except IoError Unit × Sys → Prop
  | missing (absent : s.fs.gen g = none) : GenerationStep g s (.ok (), s.tick)
  | failed (f : Fault) : GenerationStep g s (.error (.fault f), s.tick)
  | removed {inode : Nat} (oldest : g = 5) (present : s.fs.gen g = some inode) :
    GenerationStep g s (.ok (), { s with fs := { s.fs with
      gen := Function.update s.fs.gen g none
      events := s.fs.events ++ [DirEvent.oldestRemoved] } }.tick)
  | renamed {inode : Nat} (other : g ≠ 5) (present : s.fs.gen g = some inode) :
    GenerationStep g s (.ok (), { s with fs := { s.fs with
      gen := Function.update (Function.update s.fs.gen (g + 1) (some inode)) g none } }.tick)

theorem shiftGeneration_cases (g : Nat) (s : Sys) :
    GenerationStep g s (shiftGeneration env g s) := by
  unfold shiftGeneration Fs.advance
  by_cases oldest : g = auditRotationGenerations
  · rw [if_pos oldest, Fs.removeOldest, ← oldest]
    cases present : s.fs.gen g with
    | none => exact .missing present
    | some inode =>
      cases (ask env s).removeFile with
      | none => exact .removed oldest present
      | some f => exact .failed f
  · rw [if_neg oldest, Fs.shift]
    cases present : s.fs.gen g with
    | none => exact .missing present
    | some inode =>
      cases (ask env s).rename with
      | none => exact .renamed oldest present
      | some f => exact .failed f

/-- A file goes, the first of the list, or moves to the free place next to it. -/
theorem shiftGeneration_ok (placed : Placed s) (at_gen : s.log.rotationProgress = .renaming g)
    (ok : shiftGeneration env g s = (.ok (), t)) : Shifted s t g := by
  obtain ⟨low, high, free⟩ := placed.gap g at_gen
  have step := shiftGeneration_cases env g s
  rw [ok] at step
  cases step with
  | missing absent => exact ⟨rfl, rfl, rfl, rfl, absent, Or.inl rfl⟩
  | @removed inode oldest present =>
    subst oldest
    refine ⟨rfl, rfl, rfl, rfl, by simp [Sys.tick], Or.inr ⟨inode, ?_⟩⟩
    simp [Fs.inodes, Sys.tick, present]
  | renamed other present =>
    have below : g < 5 := lt_of_le_of_ne high other
    refine ⟨rfl, rfl, rfl, rfl, by simp [Sys.tick], Or.inl ?_⟩
    interval_cases g <;> simp [Fs.inodes, Sys.tick, present, free]

/-- A generation step that failed left the directory alone. -/
theorem shiftGeneration_error (failed : shiftGeneration env g s = (.error e, t)) : t = s.tick := by
  have step := shiftGeneration_cases env g s
  rw [failed] at step
  cases step
  rfl

theorem shiftGeneration_log (g : Nat) (s : Sys) : (shiftGeneration env g s).2.log = s.log := by
  have step := shiftGeneration_cases env g s
  generalize shiftGeneration env g s = result at step
  cases step <;> rfl

/-- A generation step goes through to the next state of the rotation. -/
theorem Shifted.rotates (shifted : Shifted s t g) (placed : Placed s) (progress : RotationProgress)
    (elsewhere : s.log.rotationProgress ≠ .finalizing) (next : progress ≠ .finalizing)
    (gap : ∀ k, progress = .renaming k → 1 ≤ k ∧ k ≤ 5 ∧ k + 1 = g) :
    Rotates s (t.setProgress progress) := by
  have live := placed.live elsewhere
  have stream : (t.setProgress progress).stream = s.stream := by
    simp only [Sys.stream, Sys.setProgress, shifted.log, shifted.files]
  have inside : ∀ i ∈ t.fs.inodes, i ∈ s.fs.inodes := by
    intro i member
    rcases shifted.inodes with same | ⟨oldest, more⟩
    · exact same ▸ member
    · rw [more]; exact List.mem_cons_of_mem _ member
  -- the files that are left were there before, in the same order
  have placed' : Placed (t.setProgress progress) := by
    refine ⟨?_, fun i member => ?_, ?_, fun k hk => ?_⟩
    · rcases shifted.inodes with same | ⟨oldest, more⟩
      · exact same ▸ placed.nodup
      · have nodup := placed.nodup
        rw [more, List.nodup_cons] at nodup
        exact nodup.2
    · rw [show (t.setProgress progress).fs.nextInode = s.fs.nextInode from shifted.nextInode]
      exact placed.below i (inside i member)
    · simp only [Sys.setProgress, next, if_false, shifted.live, shifted.log, live]
    · obtain ⟨low, high, rfl⟩ := gap k hk
      exact ⟨low, high, fun _ => shifted.source⟩
  refine ⟨placed', ?_, stream, by simp [Sys.setProgress, shifted.log],
    by simp [Sys.setProgress, shifted.log]⟩
  rcases shifted.inodes with same | ⟨oldest, more⟩
  · rw [Sys.history, Sys.history, stream]
    simp only [Sys.setProgress, same, shifted.files, List.suffix_refl]
  · -- the file that went was not the newest
    have nonempty : t.fs.inodes ≠ [] := by
      intro empty
      have newest := placed'.inodes_eq
      simp [Sys.setProgress, empty] at newest
    rw [Sys.history, Sys.history, stream, more, List.dropLast_cons_of_ne_nil nonempty]
    simp only [Sys.setProgress, shifted.files, List.map_cons, List.cons_append]
    exact List.suffix_cons _ _

/-! ### Moving the live file -/

/-- The live file is the sink's, and its place among the generations is free. -/
structure Ready (s : Sys) : Prop where
  nodup : s.fs.inodes.Nodup
  below : ∀ i ∈ s.fs.inodes, i < s.fs.nextInode
  live : s.fs.live = some s.log.sink.inode
  first : s.fs.gen 1 = none

theorem Shifted.ready (shifted : Shifted s t 1) (placed : Placed s)
    (elsewhere : s.log.rotationProgress ≠ .finalizing) : Ready t := by
  have idle := shifted.rotates placed .idle elsewhere (by simp) (by simp)
  refine ⟨idle.placed.nodup, idle.placed.below, ?_, shifted.source⟩
  rw [shifted.live, shifted.log, placed.live elsewhere]

theorem Ready.of_same (ready : Ready s) (same : Moves s t) : Ready t where
  nodup := by rw [same.inodes]; exact ready.nodup
  below := by rw [same.inodes, same.nextInode]; exact ready.below
  live := by rw [same.live, same.inode]; exact ready.live
  first := by rw [same.gen]; exact ready.first

/-- The generations behind the live file. -/
def Fs.older (fs : Fs) : List Nat :=
  (fs.gen 5).toList ++ ((fs.gen 4).toList ++ ((fs.gen 3).toList ++ (fs.gen 2).toList))

theorem Ready.inodes_eq (ready : Ready s) : s.fs.inodes = s.fs.older ++ [s.log.sink.inode] := by
  simp [Fs.inodes, Fs.older, ready.first, ready.live]

/-- Two states that agree on the older files and on the stream of the newest. -/
theorem history_of_older (before : s.fs.inodes.dropLast = s.fs.older)
    (after : t.fs.inodes.dropLast = s.fs.older)
    (files : ∀ i ∈ s.fs.older, t.fs.files i = s.fs.files i) (stream : t.stream = s.stream) :
    t.history = s.history := by
  rw [Sys.history, Sys.history, before, after, stream]
  congr 1
  apply List.map_congr_left
  intro i member
  rw [files i member]

theorem Ready.dropLast (ready : Ready s) : s.fs.inodes.dropLast = s.fs.older := by
  rw [ready.inodes_eq, List.dropLast_concat]

/-- Giving the rotation up leaves the live file live. -/
theorem Ready.abandon (ready : Ready s) (e : IoError) :
    Placed (abandonRotation s e) where
  nodup := ready.nodup
  below := ready.below
  newest := ready.live
  gap g hg := by cases hg

theorem Ready.not_mem_older (ready : Ready s) : s.log.sink.inode ∉ s.fs.inodes.dropLast := by
  have nodup := ready.nodup
  rw [ready.inodes_eq] at nodup
  rw [ready.dropLast]
  intro member
  exact (List.disjoint_of_nodup_append nodup) member (by simp)

/-- Giving up after nothing but writes and flushes. -/
theorem Ready.giveUp (ready : Ready s) (same : Moves s t) (e : IoError) :
    Rotates s (abandonRotation t e) :=
  Rotates.of_history ((ready.of_same same).abandon e) (same.history ready.not_mem_older)
    same.stream same.nextSeq same.prevChain

theorem Ready.moved (ready : Ready s) :
    Rotates s ({ s with fs := s.fs.liveToFirst s.log.sink.inode }.tick.setProgress .finalizing) := by
  have inodes : (s.fs.liveToFirst s.log.sink.inode).inodes = s.fs.inodes := by
    simp [Fs.inodes, Fs.liveToFirst, ready.first, ready.live]
  have placed : Placed
      ({ s with fs := s.fs.liveToFirst s.log.sink.inode }.tick.setProgress .finalizing) := by
    refine ⟨?_, ?_, ?_, fun g hg => by cases hg⟩
    · exact inodes ▸ ready.nodup
    · exact inodes ▸ ready.below
    · simp [Sys.setProgress, Sys.tick, Fs.liveToFirst]
  exact Rotates.of_inodes placed inodes rfl rfl rfl rfl

/-! ### The copy fallback -/

/-- What the directory looks like while `first` is being filled: apart from it, nothing
has changed since `s`. -/
structure Copying (s t : Sys) (first : Nat) : Prop where
  fresh : first = s.fs.nextInode
  nextInode : t.fs.nextInode = first + 1
  live : t.fs.live = s.fs.live
  gen : t.fs.gen = Function.update s.fs.gen 1 (some first)
  events : t.fs.events = s.fs.events
  files : ∀ i, i ≠ first → t.fs.files i = s.fs.files i
  log : t.log = s.log

theorem Ready.ne_fresh (ready : Ready s) : ∀ i ∈ s.fs.inodes, i ≠ s.fs.nextInode :=
  fun i member => Nat.ne_of_lt (ready.below i member)

theorem createFirst_copying {answer : Answer}
    (created : s.fs.createFirst answer = (.ok first, fs)) :
    Copying s { s with fs := fs }.tick first ∧ fs.files first = [] := by
  unfold Fs.createFirst at created
  split at created
  · cases created
  · split at created
    · cases created
    · cases created
      refine ⟨⟨rfl, rfl, rfl, rfl, rfl, fun i hi => ?_, rfl⟩, ?_⟩
      · exact Function.update_of_ne hi _ _
      · exact Function.update_self _ _ _

theorem createFirst_error {answer : Answer} (failed : fs.createFirst answer = (.error e, fs')) :
    fs' = fs := by
  unfold Fs.createFirst at failed
  split at failed
  · cases failed
    rfl
  · split at failed <;> cases failed
    rfl

theorem Copying.append (copying : Copying s t first) (chunks : List Chunk) :
    Copying s { t with fs := t.fs.append first chunks }.tick first :=
  { copying with
    files := fun i hi => by
      rw [← copying.files i hi]
      exact Function.update_of_ne hi _ _ }

theorem Copying.tick (copying : Copying s t first) : Copying s t.tick first :=
  { copying with }

/-- Taking the unfinished copy away again. -/
theorem Copying.abort (copying : Copying s t first) (ready : Ready s)
    (removed : (ask env t).cleanup = none) (f : Fault) (e : IoError) :
    Rotates s (abandonRotation (abortCopy env t f).2 e) := by
  set u := (abortCopy env t f).2 with hu
  -- `PATH.1` was free before the copy and is free again
  have gen : u.fs.gen = s.fs.gen := by
    simp only [hu, abortCopy, Fs.cleanupFirst, removed, Sys.tick, copying.gen, Function.update_idem]
    rw [← ready.first, Function.update_eq_self]
  have fs : u.fs.live = s.fs.live ∧ u.fs.nextInode = first + 1 ∧ u.fs.files = t.fs.files := by
    simp [hu, abortCopy, Fs.cleanupFirst, removed, Sys.tick, copying.live, copying.nextInode]
  have log : u.log = s.log := copying.log
  have inodes : u.fs.inodes = s.fs.inodes := by
    simp only [Fs.inodes, gen, fs.1]
  have ready' : Ready u := by
    refine ⟨inodes ▸ ready.nodup, ?_, ?_, by rw [gen, ready.first]⟩
    · rw [inodes, fs.2.1, copying.fresh]
      exact fun i member => Nat.lt_succ_of_lt (ready.below i member)
    · rw [fs.1, log, ready.live]
  have other : ∀ i ∈ s.fs.inodes, u.fs.files i = s.fs.files i := by
    intro i member
    rw [fs.2.2, copying.files i (copying.fresh ▸ ready.ne_fresh i member)]
  have stream : (abandonRotation u e).stream = s.stream := by
    -- the copy has a new inode, so no file of the log was written
    have mine : s.log.sink.inode ∈ s.fs.inodes := by simp [ready.inodes_eq]
    simp only [Sys.stream, abandonRotation, log, other _ mine]
  have behind : (abandonRotation u e).fs.inodes.dropLast = s.fs.older := by
    rw [show (abandonRotation u e).fs.inodes = s.fs.inodes from inodes, ready.dropLast]
  refine Rotates.of_history (ready'.abandon e) ?_ stream (by simp [abandonRotation, log])
    (by simp [abandonRotation, log])
  apply history_of_older ready.dropLast behind _ stream
  intro i member
  exact other i (by rw [ready.inodes_eq]; exact List.mem_append_left _ member)

/-- The copy is complete: it takes the live file's place as `PATH.1`. -/
theorem Copying.finish (copying : Copying s t first) (ready : Ready s)
    (buffer : s.log.sink.buffer = []) (copied : t.fs.files first = s.fs.files s.log.sink.inode) :
    Rotates s ({ t with
      fs := t.fs.liveToFirst first
      log := { t.log with sink := ⟨first, []⟩ } }.tick.setProgress .finalizing) := by
  set u : Sys := { t with
    fs := t.fs.liveToFirst first
    log := { t.log with sink := ⟨first, []⟩ } }.tick.setProgress .finalizing with hu
  have inodes : u.fs.inodes = s.fs.older ++ [first] := by
    simp [hu, Fs.inodes, Fs.older, Fs.liveToFirst, Sys.setProgress, Sys.tick, copying.gen]
  have inside : ∀ i ∈ s.fs.older, i ∈ s.fs.inodes := fun i member => by
    rw [ready.inodes_eq]
    exact List.mem_append_left _ member
  -- the copy takes the place of the live file; the older ones are untouched
  have fresh : ∀ i ∈ s.fs.older, i ≠ first := fun i member =>
    copying.fresh ▸ ready.ne_fresh i (inside i member)
  have stream : u.stream = s.stream := by
    simp [hu, Sys.stream, Sys.setProgress, Sys.tick, Fs.liveToFirst, copied, buffer, copying.log]
  have placed : Placed u := by
    refine ⟨?_, fun i member => ?_, ?_, fun g hg => by cases hg⟩
    · have nodup := ready.nodup
      rw [ready.inodes_eq] at nodup
      rw [inodes, List.nodup_append]
      refine ⟨(List.nodup_append.mp nodup).1, List.nodup_singleton _, ?_⟩
      intro i member j hj
      rw [List.mem_singleton.mp hj]
      exact fresh i member
    · have bound : u.fs.nextInode = first + 1 := copying.nextInode
      rw [inodes] at member
      rw [bound]
      rcases List.mem_append.mp member with old | new
      · exact Nat.lt_succ_of_lt (copying.fresh ▸ ready.below i (inside i old))
      · rw [List.mem_singleton.mp new]
        exact Nat.lt_succ_self _
    · simp [hu, Sys.setProgress, Sys.tick, Fs.liveToFirst]
  refine Rotates.of_history placed ?_ stream (by simp [hu, Sys.setProgress, Sys.tick, copying.log])
    (by simp [hu, Sys.setProgress, Sys.tick, copying.log])
  apply history_of_older ready.dropLast (by rw [inodes, List.dropLast_concat]) _ stream
  intro i member
  exact copying.files i (fresh i member)

/-- What moving the live file comes to. The copy fallback stops before there is a `PATH.1`, gives
up what it has copied, or goes on in the copy. -/
inductive LiveMove (env : Nat → Answer) (s : Sys) : Except IoError Unit × Sys → Prop
  | absent (live : s.fs.live = none) : LiveMove env s (.ok (), s.tick)
  | renamed {inode : Nat} (live : s.fs.live = some inode) :
    LiveMove env s (.ok (), { s with fs := s.fs.liveToFirst inode }.tick)
  | refused {t : Sys} {e : IoError} (same : Moves s t) : LiveMove env s (.error e, t)
  | aborted {t u : Sys} {first : Nat} (same : Moves s t) (copying : Copying t u first) (f : Fault) :
    LiveMove env s (abortCopy env u f)
  | copied {t u : Sys} {first : Nat} (same : Moves s t) (buffer : t.log.sink.buffer = [])
    (copying : Copying t u first)
    (whole : t.log.sink.inode ≠ first → u.fs.files first = t.fs.files t.log.sink.inode) :
    LiveMove env s (.ok (), { u with
      fs := u.fs.liveToFirst first
      log := { u.log with sink := ⟨first, []⟩ } }.tick)

theorem copyInto_cases (same : Moves s t) (buffer : t.log.sink.buffer = [])
    (copying : Copying t u first) (empty : u.fs.files first = []) :
    LiveMove env s (copyInto env first u) := by
  unfold copyInto
  dsimp only
  split
  · -- the copy broke off
    exact .aborted same (copying.append _) _
  · have filled := copying.append (u.fs.files u.log.sink.inode)
    split
    · exact .aborted same filled.tick _
    · split
      · -- the live path could not be unlinked
        exact .aborted same filled.tick.tick _
      · refine .copied same buffer filled.tick fun other => ?_
        simp [Sys.tick, Fs.append, empty, copying.log, copying.files _ other]

theorem copyLiveToFirst_cases (ticked : Moves s t) : LiveMove env s (copyLiveToFirst env t) := by
  have flushed := ticked.trans (flushAndSync_same env t)
  have clear := @flushAndSync_buffer env t
  unfold copyLiveToFirst
  split
  next e u h =>
    rw [h] at flushed
    exact .refused flushed
  next d u h =>
    rw [h] at flushed clear
    have cloned := flushed.trans (same_tick u)
    split
    · exact .refused cloned
    · dsimp only
      split
      next e fs failed =>
        obtain rfl := createFirst_error failed
        exact .refused (cloned.trans (same_tick _))
      next first fs created =>
        -- the copy reads the file, so nothing may be left in the buffer
        obtain ⟨copying, empty⟩ := createFirst_copying created
        exact copyInto_cases env cloned (clear rfl) copying empty

theorem rotateLiveToFirst_cases (s : Sys) : LiveMove env s (rotateLiveToFirst env s) := by
  unfold rotateLiveToFirst Fs.moveLive
  cases live : s.fs.live with
  | none => exact .absent live
  | some inode =>
    cases (ask env s).renameLive with
    | none => exact .renamed live
    | some f =>
      simp only [reduceCtorEq, if_false]
      split
      · -- the rename crosses a device: copy instead
        exact copyLiveToFirst_cases env (same_tick s)
      · exact .refused (same_tick s)

/-- What becomes of the rotation after the live file was to be moved. -/
def MoveSettled (s : Sys) (outcome : Except IoError Unit × Sys) : Prop :=
  match outcome with
  | (.ok (), t) => Rotates s (t.setProgress .finalizing)
  | (.error e, t) => Rotates s (abandonRotation t e)

/-- The live file becomes `PATH.1` with its records, or stays live. -/
theorem LiveMove.settled {outcome : Except IoError Unit × Sys} (move : LiveMove env s outcome)
    (clean : ∀ n, (env n).cleanup = none) (ready : Ready s) : MoveSettled s outcome := by
  cases move with
  | absent live =>
    rw [ready.live] at live
    cases live
  | renamed live =>
    rw [ready.live] at live
    cases live
    exact ready.moved
  | refused same => exact ready.giveUp same _
  | aborted same copying f =>
    have kept := copying.abort env (ready.of_same same) (clean _) f (.fault f)
    exact same.trans_rotates ready.not_mem_older kept
  | @copied t u first same buffer copying whole =>
    have ready' := ready.of_same same
    have mine : t.log.sink.inode ∈ t.fs.inodes := by simp [ready'.inodes_eq]
    have other := copying.fresh ▸ ready'.ne_fresh _ mine
    exact same.trans_rotates ready.not_mem_older (copying.finish ready' buffer (whole other))

theorem LiveMove.nextSeq {outcome : Except IoError Unit × Sys} (move : LiveMove env s outcome) :
    outcome.2.log.nextSeq = s.log.nextSeq := by
  cases move with
  | absent | renamed => rfl
  | refused same => exact same.nextSeq
  | aborted same copying | copied same buffer copying =>
    exact (congrArg _ copying.log).trans same.nextSeq

end

end Varta.Audit
