import Varta.Exporter.File

/-!
# Rotations of the exporter

What `rotate` and the functions under it do to the directory, said once for each function, and
when they fail.
-/
namespace Varta.Exporter

open Audit (IoError DirEvent)

/-! ### New files -/

/-- `create_new_export_file` adds at most its own file. -/
structure Made (path : Path) (fs fs' : Files Path Piece) : Prop extends fs.Extends fs' where
  wf : fs.Wf → fs'.Wf
  others : ∀ other, other ≠ path → fs'.entry other = fs.entry other

variable {s t : Sys} {fs : Files Path Piece} {path : Path} {g : Nat}

theorem made_create (free : fs.entry path = none) : Made path fs (fs.create path) :=
  ⟨Files.extends_create free, fun wf => wf.create path, fun _ other =>
    (Files.create_entry ..).trans (if_neg other)⟩

theorem createNewExportFile_made (c : CreateAnswer) (path : Path) (fs : Files Path Piece) :
    Made path fs (createNewExportFile c path fs).2 := by
  have nothing : Made path fs fs := ⟨.refl fs, id, fun _ _ => rfl⟩
  unfold createNewExportFile
  split
  · exact nothing
  next free =>
    split
    · exact nothing
    · dsimp only
      split
      · exact made_create free
      · split
        · -- the file was not accepted; its guard takes it away, if it can
          dsimp only
          split
          · refine ⟨Files.extends_create_unlink free, fun wf => (wf.create path).unlink path,
              fun name other => ?_⟩
            rw [Files.unlink_entry, if_neg other, Files.create_entry, if_neg other]
          · exact made_create free
        · exact made_create free

theorem createNewExportFile_ok {c : CreateAnswer} {fs' : Files Path Piece} {inode : Nat}
    (made : createNewExportFile c path fs = (.ok inode, fs')) :
    fs.entry path = none ∧ inode = fs.next ∧ fs' = fs.create path := by
  unfold createNewExportFile at made
  split at made
  · cases made
  next free =>
    split at made
    · cases made
    · dsimp only at made
      split at made
      · cases made
      · split at made
        · cases made
        · cases made
          exact ⟨free, rfl, rfl⟩

/-! ### Steps that move no file to `PATH.1` -/

/-- Generations may have lost their names or got others, and files may have been made. The
exporter and the live path are as they were. -/
structure Shuffled (s t : Sys) : Prop where
  exporter : t.exporter = s.exporter
  handed : t.handed = s.handed
  serial : t.serial = s.serial
  moves : t.moves = s.moves
  grows : s.fs.Grows t.fs
  wf : s.fs.Wf → t.fs.Wf
  live : t.fs.entry .live = s.fs.entry .live

theorem Shuffled.refl (s : Sys) : Shuffled s s :=
  ⟨rfl, rfl, rfl, rfl, .refl s.fs, id, rfl⟩

theorem Shuffled.trans {u : Sys} (first : Shuffled s t) (second : Shuffled t u) :
    Shuffled s u where
  exporter := second.exporter.trans first.exporter
  handed := second.handed.trans first.handed
  serial := second.serial.trans first.serial
  moves := second.moves.trans first.moves
  grows := first.grows.trans second.grows
  wf := second.wf ∘ first.wf
  live := second.live.trans first.live

section

variable (a : Answers)

/-- There is a `PATH.5`, and it can be removed. -/
def removesOldest (fs : Files Path Piece) : Bool :=
  (fs.entry (.generation maxRotationGenerations)).isSome && a.removeOldest.isNone

/-- The oldest generation is gone, or its removal failed. -/
theorem removeOldest_cases (s : Sys) :
    Shuffled s (removeOldest a s).2 ∧
      (∀ g, g ≠ maxRotationGenerations →
        (removeOldest a s).2.fs.entry (.generation g) = s.fs.entry (.generation g)) ∧
      ((removeOldest a s).1 = .ok () →
        (removeOldest a s).2.fs.entry (.generation maxRotationGenerations) = none) ∧
      ((removeOldest a s).2.events = s.events ∨ removesOldest a s.fs = true ∧
        (removeOldest a s).2.events = s.events ++ [.oldestRemoved]) := by
  unfold removeOldest
  split
  next missing => exact ⟨.refl s, fun _ _ => rfl, fun _ => missing, Or.inl rfl⟩
  next inode present =>
    split
    · exact ⟨.refl s, fun _ _ => rfl, fun failed => (by cases failed), Or.inl rfl⟩
    next removable =>
      have there : removesOldest a s.fs = true := by
        rw [removesOldest, present, removable]
        rfl
      refine ⟨⟨rfl, rfl, rfl, ?_, Files.grows_unlink _ _, fun wf => wf.unlink _, ?_⟩, fun g other => ?_,
        fun _ => ?_, Or.inr ⟨there, rfl⟩⟩
      · simp [Sys.moves]
      · exact (Files.unlink_entry ..).trans (if_neg (by simp))
      · exact (Files.unlink_entry ..).trans (if_neg (by simpa using other))
      · exact (Files.unlink_entry ..).trans (if_pos rfl)

/-- Run lemma: the loop over the generations. -/
theorem shiftGenerations_shuffled (g : Nat) (s : Sys) :
    Shuffled s (shiftGenerations a g s).2 ∧ (shiftGenerations a g s).2.events = s.events := by
  induction g generalizing s with
  | zero => exact ⟨.refl s, rfl⟩
  | succ g ih =>
    unfold shiftGenerations
    split
    · exact ih s
    next inode present =>
      split
      · exact ⟨.refl s, rfl⟩
      · -- a rename from one generation to another leaves the live path alone
        have renamed : Shuffled s
            { s with fs := s.fs.rename (.generation (g + 1)) (.generation (g + 2)) inode } := by
          refine ⟨rfl, rfl, rfl, rfl, Files.grows_rename _ _ _ _, fun wf => wf.rename _ present, ?_⟩
          rw [Files.rename_entry, if_neg (by simp), if_neg (by simp)]
        obtain ⟨rest, events⟩ := ih _
        exact ⟨renamed.trans rest, events⟩

/-- Run lemma: a loop that goes through moves each generation up by one. -/
theorem shiftGenerations_entries (free : s.fs.entry (.generation (g + 1)) = none)
    (shifted : shiftGenerations a g s = (.ok (), t)) :
    t.fs.entry (.generation 1) = none ∧
      (∀ k, 1 ≤ k → k ≤ g → t.fs.entry (.generation (k + 1)) = s.fs.entry (.generation k)) ∧
      ∀ k, g + 1 < k → t.fs.entry (.generation k) = s.fs.entry (.generation k) := by
  -- from the oldest generation down; the place above the next one is free
  induction g generalizing s with
  | zero =>
    cases shifted
    exact ⟨free, fun k low high => by omega, fun _ _ => rfl⟩
  | succ g ih =>
    unfold shiftGenerations at shifted
    split at shifted
    next missing =>
      obtain ⟨first, moved, above⟩ := ih missing shifted
      refine ⟨first, fun k low high => ?_, fun k high => above k (by omega)⟩
      rcases Nat.lt_or_eq_of_le high with below | rfl
      · exact moved k low (by omega)
      · rw [above _ (by omega), free, missing]
    next inode present =>
      split at shifted
      · cases shifted
      · have renamed := Files.rename_entry s.fs (.generation (g + 1)) (.generation (g + 2))
        obtain ⟨first, moved, above⟩ := ih ((renamed _ inode).trans (if_pos rfl)) shifted
        refine ⟨first, fun k low high => ?_, fun k high => ?_⟩
        · rcases Nat.lt_or_eq_of_le high with below | rfl
          · rw [moved k low (by omega)]
            refine (renamed _ inode).trans ?_
            rw [if_neg (by simp; omega), if_neg (by simp; omega)]
          · rw [above _ (by omega), present]
            refine (renamed _ inode).trans ?_
            rw [if_neg (by simp), if_pos rfl]
        · rw [above k (by omega)]
          refine (renamed _ inode).trans ?_
          rw [if_neg (by simp; omega), if_neg (by simp; omega)]

/-! ### The live file -/

/-- The live file has become `PATH.1`, itself or as a copy, and all else is where it was. -/
structure Parked (s t : Sys) : Prop where
  exporter : t.exporter = s.exporter
  handed : t.handed = s.handed
  serial : t.serial = s.serial
  events : t.events = s.events ++ [.liveMoved]
  grows : s.fs.Grows t.fs
  wf : s.fs.Wf → t.fs.Wf
  first : ∃ i, t.fs.entry (.generation 1) = some i ∧
    ∀ piece ∈ s.fs.data s.exporter.sink.inode, piece ∈ t.fs.data i
  others : ∀ g, g ≠ 1 → t.fs.entry (.generation g) = s.fs.entry (.generation g)
  gone : t.fs.entry .live = none
  renamed : a.renameLive = none → t.fs.entry (.generation 1) = some s.exporter.sink.inode

/-- What a step that may move the live file has done. -/
def MovesLive (s : Sys) : Except IoError Unit × Sys → Prop
  | (.ok (), t) => Parked a s t
  | (.error _, t) => Shuffled s t ∧ t.events = s.events

theorem dropFirst_shuffled (shuffled : Shuffled s t) : Shuffled s (t.dropFirst a) := by
  unfold Sys.dropFirst
  split
  · refine shuffled.trans ⟨rfl, rfl, rfl, rfl, Files.grows_unlink _ _, fun wf => wf.unlink _, ?_⟩
    exact (Files.unlink_entry ..).trans (if_neg (by simp))
  · exact shuffled

theorem dropFirst_events (s : Sys) : (s.dropFirst a).events = s.events := by
  unfold Sys.dropFirst
  split <;> rfl

theorem appended_shuffled (s : Sys) (inode : Nat) (pieces : List Piece) :
    Shuffled s { s with fs := s.fs.append inode pieces } :=
  ⟨rfl, rfl, rfl, rfl, Files.grows_append _ _ _, fun wf => wf.append _ _, rfl⟩

theorem copyInto_moves {first : Nat} (copying : a.renameLive ≠ none)
    (made : s.fs.entry (.generation 1) = some first) : MovesLive a s (copyInto a first s) := by
  unfold copyInto
  dsimp only
  split
  · exact ⟨.refl s, rfl⟩
  · split
    · -- up to the removal of the live file, a failure is no more than a spoilt `PATH.1`
      exact ⟨dropFirst_shuffled a (appended_shuffled s _ _), dropFirst_events a _⟩
    · have copied := appended_shuffled s first (s.fs.data s.exporter.sink.inode)
      split
      · exact ⟨dropFirst_shuffled a copied, dropFirst_events a _⟩
      · split
        · exact ⟨dropFirst_shuffled a copied, dropFirst_events a _⟩
        · refine ⟨rfl, rfl, rfl, rfl, ?_, fun wf => (copied.wf wf).unlink _, ⟨first, ?_, ?_⟩, ?_, ?_, ?_⟩
          · exact copied.grows.trans (Files.grows_unlink _ _)
          · exact (Files.unlink_entry ..).trans ((if_neg (by simp)).trans made)
          · exact fun piece there => Files.mem_append _ _ there
          · exact fun g _ => (Files.unlink_entry ..).trans (if_neg (by simp))
          · exact (Files.unlink_entry ..).trans (if_pos rfl)
          · exact fun renamed => absurd renamed copying

/-- A file made under the first generation is no move yet. -/
theorem MovesLive.after_made {result : Except IoError Unit × Sys}
    (made : Made (.generation 1) s.fs fs) (below : s.exporter.sink.inode < s.fs.next)
    (moves : MovesLive a { s with fs := fs } result) : MovesLive a s result := by
  have shuffled : Shuffled s { s with fs := fs } :=
    ⟨rfl, rfl, rfl, rfl, made.toGrows, made.wf, made.others _ (by simp)⟩
  obtain ⟨outcome, t⟩ := result
  cases outcome with
  | error e => exact ⟨shuffled.trans moves.1, moves.2⟩
  | ok done =>
    obtain ⟨exporter, handed, serial, events, grows, wf, ⟨i, first, copied⟩, others, gone, renamed⟩ :=
      moves
    refine ⟨exporter, handed, serial, events, made.toGrows.trans grows, wf ∘ made.wf, ⟨i, first, ?_⟩,
      fun g other => ?_, gone, renamed⟩
    · exact fun piece there => copied piece (made.data _ below piece there)
    · rw [others g other]
      exact made.others _ (by simpa using other)

theorem copyLiveToFirst_moves (copying : a.renameLive ≠ none)
    (below : s.exporter.sink.inode < s.fs.next) : MovesLive a s (copyLiveToFirst a s) := by
  unfold copyLiveToFirst
  split
  · exact ⟨.refl s, rfl⟩
  · have made := createNewExportFile_made a.createFirst (.generation 1) s.fs
    split
    next e fs failed =>
      rw [failed] at made
      refine MovesLive.after_made a made below ?_
      exact ⟨.refl _, rfl⟩
    next first fs opened =>
      obtain ⟨_, rfl, rfl⟩ := createNewExportFile_ok opened
      rw [opened] at made
      refine MovesLive.after_made a made below (copyInto_moves a copying ?_)
      exact (Files.create_entry ..).trans (if_pos rfl)

theorem moveLive_moves (live : s.fs.entry .live = some s.exporter.sink.inode)
    (below : s.exporter.sink.inode < s.fs.next) : MovesLive a s (moveLive a s) := by
  unfold moveLive
  rw [live]
  dsimp only
  split
  next renamed =>
    have entries := Files.rename_entry s.fs .live (.generation 1)
    have first := (entries (.generation 1) s.exporter.sink.inode).trans
      ((if_neg (by simp)).trans (if_pos rfl))
    refine ⟨rfl, rfl, rfl, rfl, Files.grows_rename _ _ _ _, fun wf => wf.rename _ live,
      ⟨_, first, fun _ there => there⟩, fun g other => ?_, (entries ..).trans (if_pos rfl),
      fun _ => first⟩
    exact (entries _ _).trans ((if_neg (by simp)).trans (if_neg (by simpa using other)))
  next f failed =>
    split
    · exact copyLiveToFirst_moves a (by rw [failed]; simp) below
    · exact ⟨.refl s, rfl⟩

/-! ### The whole rotation -/

/-- A rotation went through: each generation is one further, and the oldest is gone. -/
structure Rotated (s t : Sys) : Prop where
  exporter : t.exporter = s.exporter
  handed : t.handed = s.handed
  serial : t.serial = s.serial
  moves : t.moves = s.moves + 1
  grows : s.fs.Grows t.fs
  wf : s.fs.Wf → t.fs.Wf
  first : ∃ i, t.fs.entry (.generation 1) = some i ∧
    ∀ piece ∈ s.fs.data s.exporter.sink.inode, piece ∈ t.fs.data i
  shifted : ∀ g, 1 ≤ g → g < maxRotationGenerations →
    t.fs.entry (.generation (g + 1)) = s.fs.entry (.generation g)
  gone : t.fs.entry .live = none
  renamed : a.renameLive = none → t.fs.entry (.generation 1) = some s.exporter.sink.inode

/-- The move at the end of a rotation whose generations are all one further. -/
theorem Parked.rotated {a : Answers} {u : Sys} (parked : Parked a u t) (sofar : Shuffled s u)
    (below : s.exporter.sink.inode < s.fs.next)
    (shifted : ∀ g, 1 ≤ g → g < maxRotationGenerations →
      u.fs.entry (.generation (g + 1)) = s.fs.entry (.generation g)) :
    Rotated a s t where
  exporter := parked.exporter.trans sofar.exporter
  handed := parked.handed.trans sofar.handed
  serial := parked.serial.trans sofar.serial
  moves := by
    rw [← sofar.moves, Sys.moves, Sys.moves, parked.events, List.count_append]
    rfl
  grows := sofar.grows.trans parked.grows
  wf := parked.wf ∘ sofar.wf
  first := by
    obtain ⟨i, first, copied⟩ := parked.first
    rw [sofar.exporter] at copied
    exact ⟨i, first, fun piece there => copied piece (sofar.grows.data _ below piece there)⟩
  shifted g low high := (parked.others _ (by omega)).trans (shifted g low high)
  gone := parked.gone
  renamed plain := by
    rw [← sofar.exporter]
    exact parked.renamed plain

/-- The deletion that a rotation may have made. -/
def Removed (s t : Sys) (rest : List DirEvent) : Prop :=
  t.events = s.events ++ rest ∨
    removesOldest a s.fs = true ∧ t.events = s.events ++ .oldestRemoved :: rest

theorem rotate_cases (live : s.fs.entry .live = some s.exporter.sink.inode)
    (below : s.exporter.sink.inode < s.fs.next) :
    (∃ e t, rotate a s = (.error e, t) ∧ Shuffled s t ∧ Removed a s t []) ∨
      ∃ t, rotate a s = (.ok (), t) ∧ Rotated a s t ∧ Removed a s t [.liveMoved] := by
  obtain ⟨removal, others, oldest, removed⟩ := removeOldest_cases a s
  unfold rotate
  generalize removeOldest a s = result at removal others oldest removed
  obtain ⟨outcome, t⟩ := result
  dsimp only at removal others oldest removed
  -- only the first part removes a file, so its events tell those of every end
  have ends : ∀ {u : Sys} {rest : List DirEvent}, u.events = t.events ++ rest →
      Removed a s u rest := by
    intro u rest events
    rcases removed with same | ⟨there, gone⟩
    · exact Or.inl (by rw [events, same])
    · exact Or.inr ⟨there, by rw [events, gone, List.append_assoc]; rfl⟩
  cases outcome with
  | error e => exact Or.inl ⟨e, t, rfl, removal, ends (List.append_nil _).symm⟩
  | ok done =>
    obtain ⟨shuffled, kept⟩ := shiftGenerations_shuffled a (maxRotationGenerations - 1) t
    dsimp only
    cases loop : shiftGenerations a (maxRotationGenerations - 1) t with
    | mk outcome u =>
      rw [loop] at shuffled kept
      have sofar := removal.trans shuffled
      cases outcome with
      | error e => exact Or.inl ⟨e, u, rfl, sofar, ends (kept.trans (List.append_nil _).symm)⟩
      | ok done =>
        obtain ⟨_, moved, _⟩ := shiftGenerations_entries a (oldest rfl) loop
        have here : u.fs.entry .live = some u.exporter.sink.inode := by
          rw [sofar.live, sofar.exporter]
          exact live
        have bound : u.exporter.sink.inode < u.fs.next := by
          rw [sofar.exporter]
          exact Nat.lt_of_lt_of_le below sofar.grows.next
        have last := moveLive_moves a here bound
        dsimp only
        cases final : moveLive a u with
        | mk outcome v =>
          rw [final] at last
          cases outcome with
          | error e =>
            refine Or.inl ⟨e, v, rfl, sofar.trans last.1, ends ?_⟩
            rw [last.2, kept, List.append_nil]
          | ok done =>
            have parked : Parked a u v := last
            have events : v.events = t.events ++ [.liveMoved] := by rw [parked.events, kept]
            refine Or.inr ⟨v, rfl, parked.rotated sofar below fun g low high => ?_, ends events⟩
            rw [moved g low (Nat.le_sub_one_of_lt high), others g (Nat.ne_of_lt high)]

/-! ### When a rotation fails

Told from the directory and the answers alone.
-/

def CreateAnswer.fails (c : CreateAnswer) : Bool :=
  c.openFile.isSome || c.metadata.isSome || c.validate.isSome

def Answers.copyFails : Bool :=
  a.cloneSource.isSome || a.createFirst.fails || a.guardFirst.isSome || a.copy.isSome ||
    a.copySync.isSome || a.removeLive.isSome

/-- The live file can be neither renamed nor copied. -/
def Answers.moveFails : Bool :=
  a.renameLive.any fun f => f ≠ .crossDevice || a.copyFails

/-- A generation is there that cannot be removed or renamed, or the live file cannot be moved. -/
def rotationFails (fs : Files Path Piece) : Bool :=
  (fs.entry (.generation maxRotationGenerations)).isSome && a.removeOldest.isSome ||
    (List.range (maxRotationGenerations - 1)).any (fun g =>
      (fs.entry (.generation (g + 1))).isSome && (a.rename (g + 1)).isSome) ||
    a.moveFails

/-- The loop from generation `g` down renames the first generation that it comes to. -/
def shiftsSome (fs : Files Path Piece) : Nat → Bool
  | 0 => false
  | g + 1 =>
    if (fs.entry (.generation (g + 1))).isSome then (a.rename (g + 1)).isNone
    else shiftsSome fs g

/-- The oldest generation there is gets removed or renamed. -/
def disturbs (fs : Files Path Piece) : Bool :=
  if (fs.entry (.generation maxRotationGenerations)).isSome then a.removeOldest.isNone
  else shiftsSome a fs (maxRotationGenerations - 1)

theorem createNewExportFile_isOk {c : CreateAnswer} (free : fs.entry path = none) :
    (createNewExportFile c path fs).1.isOk = !c.fails := by
  unfold createNewExportFile CreateAnswer.fails
  rw [free]
  cases c.openFile <;> cases c.metadata <;> cases c.validate <;> rfl

theorem copyInto_isOk (first : Nat) (s : Sys) : (copyInto a first s).1.isOk =
    !(a.guardFirst.isSome || a.copy.isSome || a.copySync.isSome || a.removeLive.isSome) := by
  unfold copyInto
  cases a.guardFirst <;> cases a.copy <;> cases a.copySync <;> cases a.removeLive <;> rfl

theorem copyLiveToFirst_isOk (free : s.fs.entry (.generation 1) = none) :
    (copyLiveToFirst a s).1.isOk = !a.copyFails := by
  have first := createNewExportFile_isOk (c := a.createFirst) free
  unfold copyLiveToFirst Answers.copyFails
  cases a.cloneSource with
  | some f => rfl
  | none =>
    dsimp only
    split
    next e fs failed =>
      rw [failed] at first
      have fails := (Bool.not_eq_eq_eq_not ..).mp first.symm
      rw [fails]
      rfl
    next inode fs opened =>
      rw [opened] at first
      have works := (Bool.not_eq_eq_eq_not ..).mp first.symm
      rw [works, copyInto_isOk]
      rfl

theorem moveLive_isOk {inode : Nat} (live : s.fs.entry .live = some inode)
    (free : s.fs.entry (.generation 1) = none) : (moveLive a s).1.isOk = !a.moveFails := by
  unfold moveLive Answers.moveFails
  rw [live]
  cases a.renameLive with
  | none => rfl
  | some f =>
    by_cases cross : f = .crossDevice
    · simpa [cross] using copyLiveToFirst_isOk a free
    · simp [cross, Except.isOk, Except.toBool]

theorem any_congr_mem {l : List Nat} {p q : Nat → Bool} (same : ∀ k ∈ l, p k = q k) :
    l.any p = l.any q := by
  rw [Bool.eq_iff_iff, List.any_eq_true, List.any_eq_true]
  exact exists_congr fun k => and_congr_right fun there => by rw [same k there]

/-- Run lemma: renaming a generation does not change whether a younger one is there. -/
theorem shiftGenerations_isOk (g : Nat) (s : Sys) : (shiftGenerations a g s).1.isOk =
    !((List.range g).any fun k =>
      (s.fs.entry (.generation (k + 1))).isSome && (a.rename (k + 1)).isSome) := by
  induction g generalizing s with
  | zero => rfl
  | succ g ih =>
    rw [List.range_succ, List.any_append]
    unfold shiftGenerations
    split
    next missing => simp [ih, missing]
    next inode present =>
      split
      -- the loop stops at the oldest generation that cannot be renamed
      next f fault => simp [present, fault, Except.isOk, Except.toBool]
      next renamed =>
        rw [ih]
        simp only [List.any_cons, List.any_nil, Bool.or_false, present, renamed, Option.isSome_some,
          Option.isSome_none, Bool.and_false]
        congr 1
        refine any_congr_mem fun k below => ?_
        have younger := List.mem_range.mp below
        rw [Files.rename_entry, if_neg (by simp; omega), if_neg (by simp; omega)]

theorem rotate_isOk (live : s.fs.entry .live = some s.exporter.sink.inode) :
    (rotate a s).1.isOk = !rotationFails a s.fs := by
  obtain ⟨removal, others, oldest, _⟩ := removeOldest_cases a s
  have removable : (removeOldest a s).1.isOk =
      !((s.fs.entry (.generation maxRotationGenerations)).isSome && a.removeOldest.isSome) := by
    unfold removeOldest
    cases s.fs.entry (.generation maxRotationGenerations) <;> cases a.removeOldest <;> rfl
  unfold rotate rotationFails
  generalize removeOldest a s = result at removal others oldest removable
  obtain ⟨outcome, t⟩ := result
  cases outcome with
  | error e =>
    have stuck := (Bool.not_eq_eq_eq_not ..).mp removable.symm
    rw [stuck]
    rfl
  | ok done =>
    have removed := (Bool.not_eq_eq_eq_not ..).mp removable.symm
    rw [removed]
    have loop := shiftGenerations_isOk a (maxRotationGenerations - 1) t
    have same : ∀ k ∈ List.range (maxRotationGenerations - 1),
        ((t.fs.entry (.generation (k + 1))).isSome && (a.rename (k + 1)).isSome) =
          ((s.fs.entry (.generation (k + 1))).isSome && (a.rename (k + 1)).isSome) := by
      intro k below
      have younger := List.mem_range.mp below
      rw [others (k + 1) (by omega)]
    rw [any_congr_mem same] at loop
    obtain ⟨shuffled, _⟩ := shiftGenerations_shuffled a (maxRotationGenerations - 1) t
    dsimp only
    cases shifting : shiftGenerations a (maxRotationGenerations - 1) t with
    | mk outcome u =>
      rw [shifting] at loop shuffled
      cases outcome with
      | error e =>
        have stuck := (Bool.not_eq_eq_eq_not ..).mp loop.symm
        rw [stuck]
        rfl
      | ok done =>
        have shifted := (Bool.not_eq_eq_eq_not ..).mp loop.symm
        obtain ⟨free, _, _⟩ := shiftGenerations_entries a (oldest rfl) shifting
        rw [shifted]
        exact moveLive_isOk a (shuffled.live.trans (removal.live.trans live)) free

/-- Run lemma: a loop that renames nothing has found no generation, or has failed at the first. -/
theorem shiftGenerations_still (still : shiftsSome a s.fs g = false) :
    (shiftGenerations a g s = (.ok (), s) ∧
      ∀ k, 1 ≤ k → k ≤ g → s.fs.entry (.generation k) = none) ∨
    ∃ e, shiftGenerations a g s = (.error e, s) := by
  induction g with
  | zero => exact Or.inl ⟨rfl, fun k low high => by omega⟩
  | succ g ih =>
    unfold shiftsSome at still
    unfold shiftGenerations
    cases entry : s.fs.entry (.generation (g + 1)) with
    | some inode =>
      rw [entry] at still
      cases fault : a.rename (g + 1) with
      | some f => exact Or.inr ⟨_, rfl⟩
      | none =>
        rw [fault] at still
        cases still
    | none =>
      rw [entry] at still
      refine (ih still).imp_left fun ⟨done, missing⟩ => ⟨done, fun k low high => ?_⟩
      rcases Nat.lt_or_eq_of_le high with below | rfl
      · exact missing k low (Nat.le_of_lt_succ below)
      · exact entry

/-- A rotation that fails at the oldest generation, or finds none, takes no name away. -/
theorem rotate_undisturbed {e : IoError} (still : disturbs a s.fs = false)
    (failed : rotate a s = (.error e, t)) {i : Nat} (low : 1 ≤ g)
    (high : g ≤ maxRotationGenerations) (named : s.fs.entry (.generation g) = some i) :
    t.fs.entry (.generation g) = some i := by
  unfold disturbs at still
  unfold rotate removeOldest at failed
  cases oldest : s.fs.entry (.generation maxRotationGenerations) with
  | some inode =>
    rw [oldest] at still failed
    cases fault : a.removeOldest with
    | some f =>
      rw [fault] at failed
      cases failed
      exact named
    | none =>
      rw [fault] at still
      cases still
  | none =>
    rw [oldest] at still failed
    dsimp only at failed
    rcases shiftGenerations_still a still with ⟨done, missing⟩ | ⟨e, stuck⟩
    · -- there is no generation at all
      have younger : g ≤ maxRotationGenerations - 1 := by
        rcases Nat.lt_or_eq_of_le high with below | rfl
        · exact Nat.le_sub_one_of_lt below
        · rw [oldest] at named
          cases named
      rw [missing g low younger] at named
      cases named
    · rw [stuck] at failed
      cases failed
      exact named

end

end Varta.Exporter
