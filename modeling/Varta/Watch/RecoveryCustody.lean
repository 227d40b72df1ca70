import Mathlib.Data.List.Perm.Basic
import Varta.Watch.Recovery

/-!
# Custody of the children

What the runner can do to its children, apart from how it stores them: it spawns a child,
collects its exit status, kills it, and in the end records it and lets go of its handle. All
that holds of whole runs follows from these moves.
-/
namespace Varta.Watch.Recovery

open Audit (CompleteOutcome CompleteRecord)

/-! ### Reading a trace -/

@[simp] def exited? : Effect → Option Child
  | .exited child _ => some child
  | _ => none

@[simp] def killed? : Effect → Option Child
  | .killed child => some child
  | _ => none

@[simp] def completed? : Effect → Option (Child × CompleteRecord)
  | .recordComplete child record => some (child, record)
  | _ => none

@[simp] def dropped? : Effect → Option (UInt32 × Child)
  | .dropped pid child => some (pid, child)
  | _ => none

section

variable (effect : Effect) (trace : List Effect)

def fires : List Firing := trace.filterMap Effect.fired?

/-- The children whose exit status was collected. -/
def exits : List Child := trace.filterMap exited?

def kills : List Child := trace.filterMap killed?

/-- The calls of `record_complete`, with the child that each one is about. -/
def completes : List (Child × CompleteRecord) := trace.filterMap completed?

/-- The children that the runner has let go of, under the pids they were spawned for. -/
def drops : List (UInt32 × Child) := trace.filterMap dropped?

@[simp] theorem fires_cons : fires (effect :: trace) = effect.fired?.toList ++ fires trace := by
  cases effect <;> rfl

@[simp] theorem exits_cons : exits (effect :: trace) = (exited? effect).toList ++ exits trace := by
  cases effect <;> rfl

@[simp] theorem kills_cons : kills (effect :: trace) = (killed? effect).toList ++ kills trace := by
  cases effect <;> rfl

end

/-- The children that a list of outcomes reports as killed. -/
def killedChildren (outcomes : List RecoveryOutcome) : List Child := outcomes.filterMap fun
  | .killed child => some child
  | _ => none

theorem killedChildren_append (outcomes more : List RecoveryOutcome) :
    killedChildren (outcomes ++ more) = killedChildren outcomes ++ killedChildren more :=
  List.filterMap_append

/-! ### Moves -/

/-- The children the runner has, what was done, and what was reported. -/
structure Custody where
  held : List (UInt32 × Outstanding)
  trace : List Effect
  reported : List RecoveryOutcome

/-- What a call may do beyond reaping, and killing with a report a child that still runs. -/
structure Licence where
  spawn : Prop
  /-- Kill a child whose exit status was collected. -/
  late : Prop
  /-- Kill without a report. -/
  silent : Prop

/-- A licence for all of it, and one for none. -/
def Licence.full : Licence := ⟨True, True, True⟩

def Licence.bare : Licence := ⟨False, False, False⟩

/-- The outcome on the record of an entry that is let go. -/
def recordedOutcome (entry : Outstanding) : CompleteOutcome :=
  match entry.completedStatus with
  | none => .reapFailed
  | some _ => if entry.killed then .killed else .reaped

theorem killed_of_recordedOutcome {entry : Outstanding}
    (outcome : recordedOutcome entry = .killed) : entry.killed = true := by
  unfold recordedOutcome at outcome
  split at outcome
  · cases outcome
  · split at outcome
    next flag => exact flag
    next => cases outcome

theorem running_of_recordedOutcome {entry : Outstanding}
    (outcome : recordedOutcome entry = .reapFailed) : entry.completedStatus = none := by
  unfold recordedOutcome at outcome
  split at outcome
  next running => exact running
  next => split at outcome <;> cases outcome

inductive Move (audited : Bool) (licence : Licence) : Custody → Custody → Prop where
  /-- A record that ends no child. -/
  | note {c : Custody} (effect : Effect)
      (aside : (∃ record, effect = .recordSpawn record) ∨ ∃ record, effect = .recordRefused record) :
      Move audited licence c { c with trace := effect :: c.trace }
  | keep {c : Custody} {held : List (UInt32 × Outstanding)} (same : held.Perm c.held) :
      Move audited licence c { c with held := held }
  | spawn {c : Custody} {held : List (UInt32 × Outstanding)} (licensed : licence.spawn)
      (fired : Firing) (entry : Outstanding) (serial : fired.child.serial = (fires c.trace).length)
      (child : entry.child = fired.child) (alive : entry.killed = false)
      (running : entry.completedStatus = none)
      (joined : held.Perm ((fired.pid, entry) :: c.held)) :
      Move audited licence c { c with held := held, trace := .spawned fired :: c.trace }
  /-- The capture goes on. -/
  | capture {c : Custody} {held rest : List (UInt32 × Outstanding)} (pid : UInt32)
      (entry entry' : Outstanding) (found : c.held.Perm ((pid, entry) :: rest))
      (placed : held.Perm ((pid, entry') :: rest)) (child : entry'.child = entry.child)
      (killed : entry'.killed = entry.killed)
      (status : entry'.completedStatus = entry.completedStatus) :
      Move audited licence c { c with held := held }
  | exit {c : Custody} {held rest : List (UInt32 × Outstanding)} (pid : UInt32)
      (entry entry' : Outstanding) (status : ExitStatus)
      (found : c.held.Perm ((pid, entry) :: rest)) (placed : held.Perm ((pid, entry') :: rest))
      (running : entry.completedStatus = none) (child : entry'.child = entry.child)
      (killed : entry'.killed = entry.killed) (collected : entry'.completedStatus = some status) :
      Move audited licence c
        { c with held := held, trace := .exited entry.child status :: c.trace }
  | kill {c : Custody} {held rest : List (UInt32 × Outstanding)}
      {reported : List RecoveryOutcome} (pid : UInt32) (entry : Outstanding)
      (found : c.held.Perm ((pid, entry) :: rest))
      (placed : held.Perm ((pid, { entry with killed := true }) :: rest))
      (alive : entry.killed = false) (inTime : entry.completedStatus ≠ none → licence.late)
      (report : reported = c.reported ++ [.killed entry.child] ∨
        reported = c.reported ∧ licence.silent) :
      Move audited licence c ⟨held, .killed entry.child :: c.trace, reported⟩
  /-- The last record of a child, and the end of its handle. -/
  | finish {c : Custody} {held : List (UInt32 × Outstanding)} (pid : UInt32)
      (entry : Outstanding) (record : CompleteRecord) (outcome : RecoveryOutcome)
      (found : c.held.Perm ((pid, entry) :: held))
      (recorded : record.outcome = recordedOutcome entry)
      (other : killedChildren [outcome] = []) :
      Move audited licence c ⟨held, .dropped pid entry.child ::
        (if audited then .recordComplete entry.child record :: c.trace else c.trace),
        c.reported ++ [outcome]⟩

/-- A sequence of moves. -/
def Moves (audited : Bool) (licence : Licence) : Custody → Custody → Prop :=
  Relation.ReflTransGen (Move audited licence)

/-! ### What every move keeps -/

/-- An entry that is held, by the pid and the child it is for. -/
def ofChild (e : UInt32 × Outstanding) : UInt32 × Child := (e.1, e.2.child)

/-- Each child is held or let go, once, and there is a record for each one that was let go. -/
structure Accounted (audited : Bool) (c : Custody) : Prop where
  numbered : (fires c.trace).map (·.child.serial) = (List.range (fires c.trace).length).reverse
  conserved : ((fires c.trace).map fun f => (f.pid, f.child)).Perm
    (c.held.map ofChild ++ drops c.trace)
  recorded : (completes c.trace).map Prod.fst =
    if audited then (drops c.trace).map Prod.snd else []

variable {trace : List Effect}

section

variable {audited : Bool} {licence : Licence} {c c' : Custody}
  {held rest : List (UInt32 × Outstanding)} {pid : UInt32} {entry entry' : Outstanding}

theorem accounted_nil (audited : Bool) : Accounted audited ⟨[], [], []⟩ := by
  constructor
  · rfl
  · exact .refl _
  · cases audited <;> rfl

/-- Another entry of the same child. -/
theorem map_ofChild_perm (found : c.held.Perm ((pid, entry) :: rest))
    (placed : held.Perm ((pid, entry') :: rest)) (child : entry'.child = entry.child) :
    (c.held.map ofChild).Perm (held.map ofChild) := by
  refine (found.map ofChild).trans ((placed.map ofChild).trans ?_).symm
  rw [List.map_cons, List.map_cons, ofChild, child]
  exact .refl _

theorem Accounted.move (accounted : Accounted audited c) (move : Move audited licence c c') :
    Accounted audited c' := by
  obtain ⟨numbered, conserved, recorded⟩ := accounted
  cases move with
  | note effect aside =>
    rcases aside with ⟨record, rfl⟩ | ⟨record, rfl⟩
    · exact ⟨numbered, conserved, recorded⟩
    · exact ⟨numbered, conserved, recorded⟩
  | keep same =>
    exact ⟨numbered, conserved.trans ((same.map _).symm.append_right _), recorded⟩
  | spawn licensed fired entry serial child alive running joined =>
    refine ⟨?_, ?_, recorded⟩
    · have fires : fires (.spawned fired :: c.trace) = fired :: fires c.trace := rfl
      rw [fires, List.map_cons, List.length_cons, List.range_succ, List.reverse_append, numbered,
        serial]
      rfl
    · refine .trans ?_ ((joined.map ofChild).symm.append_right _)
      rw [List.map_cons, List.cons_append, ofChild, child]
      exact conserved.cons _
  | capture pid entry entry' found placed child
  | exit pid entry entry' status found placed running child =>
    exact ⟨numbered, conserved.trans ((map_ofChild_perm found placed child).append_right _),
      recorded⟩
  | kill pid entry found placed alive inTime report =>
    exact ⟨numbered, conserved.trans ((map_ofChild_perm found placed rfl).append_right _),
      recorded⟩
  | finish pid entry record outcome found recorded' other =>
    -- from the front of what is held to the front of what was let go
    have moved : (c.held.map ofChild ++ drops c.trace).Perm
        (_ ++ (pid, entry.child) :: drops c.trace) :=
      ((found.map ofChild).append_right _).trans List.perm_middle.symm
    cases audited with
    | false => exact ⟨numbered, conserved.trans moved, recorded⟩
    | true =>
      refine ⟨numbered, conserved.trans moved, ?_⟩
      simp only [if_true] at recorded ⊢
      exact congrArg (entry.child :: ·) recorded

/-! ### Which child an entry is for -/

section

variable (accounted : Accounted audited c)

include accounted

/-- The children that were spawned are those that are held and those that were let go. -/
theorem Accounted.children :
    ((fires c.trace).map (·.child)).Perm
      ((c.held.map fun e => e.2.child) ++ (drops c.trace).map Prod.snd) := by
  have conserved := accounted.conserved.map Prod.snd
  rwa [List.map_map, List.map_append, List.map_map] at conserved

theorem Accounted.nodup :
    ((c.held.map fun e => e.2.child) ++ (drops c.trace).map Prod.snd).Nodup := by
  have serials : ((fires c.trace).map fun f => f.child.serial).Nodup := by
    rw [accounted.numbered]
    exact List.nodup_reverse.mpr List.nodup_range
  -- the serial numbers tell the children apart, also those with one process id
  have distinct : ((fires c.trace).map (·.child)).Nodup := by
    have mapped : (((fires c.trace).map (·.child)).map Child.serial).Nodup := by
      rwa [List.map_map]
    exact List.Pairwise.of_map Child.serial (fun _ _ => mt (congrArg Child.serial)) mapped
  exact accounted.children.nodup_iff.mp distinct

theorem Accounted.mem_fires {e : UInt32 × Outstanding} (mem : e ∈ c.held) :
    e.2.child ∈ (fires c.trace).map (·.child) := by
  refine accounted.children.mem_iff.mpr (List.mem_append_left _ ?_)
  exact List.mem_map.mpr ⟨e, mem, rfl⟩

/-- A child has one entry, and none once it was let go. -/
theorem Accounted.apart (found : c.held.Perm ((pid, entry) :: rest)) :
    (∀ e ∈ rest, e.2.child ≠ entry.child) ∧ entry.child ∉ (drops c.trace).map Prod.snd := by
  have nodup := accounted.nodup
  rw [((found.map fun e => e.2.child).append_right _).nodup_iff, List.map_cons, List.cons_append,
    List.nodup_cons, List.mem_append] at nodup
  constructor
  · intro e mem same
    exact nodup.1 (.inl (List.mem_map.mpr ⟨e, mem, same⟩))
  · intro dropped
    exact nodup.1 (.inr dropped)

/-- A new child is none of the old ones. -/
theorem Accounted.fresh {child : Child} (serial : child.serial = (fires c.trace).length) :
    child ∉ (fires c.trace).map (·.child) := by
  intro mem
  have old : child.serial ∈ (fires c.trace).map (·.child.serial) := by
    obtain ⟨f, spawned, rfl⟩ := List.mem_map.mp mem
    exact List.mem_map.mpr ⟨f, spawned, rfl⟩
  rw [accounted.numbered, List.mem_reverse, List.mem_range] at old
  omega

end

/-! ### What the entries say -/

/-- The flags of an entry are what was done to its child. -/
structure Marked (c : Custody) : Prop where
  killed : ∀ e ∈ c.held, e.2.killed = true ↔ e.2.child ∈ kills c.trace
  exited : ∀ e ∈ c.held, e.2.completedStatus ≠ none ↔ e.2.child ∈ exits c.trace
  spawned : ∀ child, child ∈ kills c.trace ∨ child ∈ exits c.trace →
    child ∈ (fires c.trace).map (·.child)
  once : (kills c.trace).Nodup

theorem marked_nil : Marked ⟨[], [], []⟩ := by
  constructor <;> simp [kills, exits]

/-- One entry is replaced, and what was done concerns its child alone. -/
theorem Marked.replace (marked : Marked c) (accounted : Accounted audited c)
    (found : c.held.Perm ((pid, entry) :: rest)) (placed : held.Perm ((pid, entry') :: rest))
    (child : entry'.child = entry.child) {reported : List RecoveryOutcome}
    (fires_eq : fires trace = fires c.trace)
    (killed : entry'.killed = true ↔ entry.child ∈ kills trace)
    (exited : entry'.completedStatus ≠ none ↔ entry.child ∈ exits trace)
    (others : ∀ other, other ≠ entry.child →
      (other ∈ kills trace ↔ other ∈ kills c.trace) ∧
        (other ∈ exits trace ↔ other ∈ exits c.trace))
    (once : (kills trace).Nodup) : Marked ⟨held, trace, reported⟩ := by
  have before : (pid, entry) ∈ c.held := found.mem_iff.mpr (List.mem_cons_self ..)
  have apart := (accounted.apart found).1
  constructor
  · intro e mem
    rcases List.mem_cons.mp (placed.mem_iff.mp mem) with rfl | old
    · simpa [child] using killed
    · rw [(others e.2.child (apart e old)).1]
      exact marked.killed e (found.mem_iff.mpr (List.mem_cons_of_mem _ old))
  · intro e mem
    rcases List.mem_cons.mp (placed.mem_iff.mp mem) with rfl | old
    · simpa [child] using exited
    · rw [(others e.2.child (apart e old)).2]
      exact marked.exited e (found.mem_iff.mpr (List.mem_cons_of_mem _ old))
  · intro other done
    rw [fires_eq]
    by_cases own : other = entry.child
    · rw [own]
      exact accounted.mem_fires before
    · rw [(others other own).1, (others other own).2] at done
      exact marked.spawned other done
  · exact once

/-- Entries leave, and nothing is done to a child. -/
theorem Marked.subset (marked : Marked c) {reported : List RecoveryOutcome}
    (fewer : ∀ e ∈ held, e ∈ c.held) (fires_eq : fires trace = fires c.trace)
    (kills_eq : kills trace = kills c.trace) (exits_eq : exits trace = exits c.trace) :
    Marked ⟨held, trace, reported⟩ := by
  constructor
  · intro e mem
    rw [kills_eq]
    exact marked.killed e (fewer e mem)
  · intro e mem
    rw [exits_eq]
    exact marked.exited e (fewer e mem)
  · rw [kills_eq, exits_eq, fires_eq]
    exact marked.spawned
  · rw [kills_eq]
    exact marked.once

theorem Marked.move (marked : Marked c) (accounted : Accounted audited c)
    (move : Move audited licence c c') : Marked c' := by
  cases move with
  | note effect aside =>
    rcases aside with ⟨record, rfl⟩ | ⟨record, rfl⟩
    · exact marked.subset (fun _ => id) rfl rfl rfl
    · exact marked.subset (fun _ => id) rfl rfl rfl
  | keep same => exact marked.subset (fun _ => same.mem_iff.mp) rfl rfl rfl
  | spawn licensed fired entry serial child alive running joined =>
    -- nothing was done to the new child yet
    have fresh := mt (marked.spawned fired.child) (accounted.fresh serial)
    rw [not_or] at fresh
    constructor
    · intro e mem
      rcases List.mem_cons.mp (joined.mem_iff.mp mem) with rfl | old
      · simpa [alive, child] using fresh.1
      · exact marked.killed e old
    · intro e mem
      rcases List.mem_cons.mp (joined.mem_iff.mp mem) with rfl | old
      · simpa [running, child] using fresh.2
      · exact marked.exited e old
    · intro other done
      exact List.mem_cons_of_mem _ (marked.spawned other done)
    · exact marked.once
  | capture pid entry entry' found placed child killed status =>
    have before : (pid, entry) ∈ c.held := found.mem_iff.mpr (List.mem_cons_self ..)
    refine marked.replace accounted found placed child rfl ?_ ?_ (fun _ _ => ⟨.rfl, .rfl⟩) marked.once
    · rw [killed]
      exact marked.killed _ before
    · rw [status]
      exact marked.exited _ before
  | exit pid entry entry' status found placed running child killed collected =>
    have before : (pid, entry) ∈ c.held := found.mem_iff.mpr (List.mem_cons_self ..)
    refine marked.replace accounted found placed child rfl ?_ ?_ ?_ marked.once
    · rw [killed]
      exact marked.killed _ before
    · simp [collected]
    · intro other differs
      simp [differs]
  | kill pid entry found placed alive inTime report =>
    have before : (pid, entry) ∈ c.held := found.mem_iff.mpr (List.mem_cons_self ..)
    have spared : entry.child ∉ kills c.trace := by
      rw [← marked.killed _ before, alive]
      exact Bool.false_ne_true
    refine marked.replace accounted found placed rfl rfl ?_ ?_ ?_ ?_
    · simp
    · exact marked.exited _ before
    · intro other differs
      simp [differs]
    · exact List.nodup_cons.mpr ⟨spared, marked.once⟩
  | finish pid entry record outcome found recorded other =>
    have fewer : ∀ e ∈ _, e ∈ c.held := fun e mem =>
      found.mem_iff.mpr (List.mem_cons_of_mem _ mem)
    cases audited with
    | false | true => exact marked.subset fewer rfl rfl rfl

/-! ### What the records say -/

/-- A child recorded or reported as killed was killed, and one recorded as failed never
exited. -/
structure Recorded (c : Custody) : Prop where
  killed : ∀ p ∈ completes c.trace, p.2.outcome = .killed → p.1 ∈ kills c.trace
  failed : ∀ p ∈ completes c.trace, p.2.outcome = .reapFailed → p.1 ∉ exits c.trace
  reported : ∀ child ∈ killedChildren c.reported, child ∈ kills c.trace

theorem recorded_nil : Recorded ⟨[], [], []⟩ := by
  constructor <;> simp [completes, killedChildren]

theorem Accounted.mem_drops (accounted : Accounted audited c) {p : Child × CompleteRecord}
    (mem : p ∈ completes c.trace) : p.1 ∈ (drops c.trace).map Prod.snd := by
  have recorded := accounted.recorded
  have child : p.1 ∈ (completes c.trace).map Prod.fst := List.mem_map.mpr ⟨p, mem, rfl⟩
  rw [recorded] at child
  cases audited with
  | false => simp at child
  | true => exact child

theorem Recorded.move (recorded : Recorded c) (accounted : Accounted audited c)
    (marked : Marked c) (move : Move audited licence c c') : Recorded c' := by
  cases move with
  | note effect aside =>
    rcases aside with ⟨record, rfl⟩ | ⟨record, rfl⟩
    · exact { recorded with }
    · exact { recorded with }
  | keep | spawn | capture => exact { recorded with }
  | exit pid entry entry' status found placed running child killed collected =>
    refine ⟨recorded.killed, ?_, recorded.reported⟩
    intro p mem failed exited
    rcases List.mem_cons.mp exited with same | old
    · -- a child that is held has no record yet
      exact (accounted.apart found).2 (same ▸ accounted.mem_drops mem)
    · exact recorded.failed p mem failed old
  | kill pid entry found placed alive inTime report =>
    refine ⟨?_, recorded.failed, ?_⟩
    · intro p mem killed
      exact List.mem_cons_of_mem _ (recorded.killed p mem killed)
    · intro child mem
      rcases report with rfl | ⟨rfl, _⟩
      · rw [killedChildren_append, List.mem_append] at mem
        rcases mem with old | new
        · exact List.mem_cons_of_mem _ (recorded.reported child old)
        · exact List.mem_cons.mpr (.inl (List.mem_singleton.mp new))
      · exact List.mem_cons_of_mem _ (recorded.reported child mem)
  | finish pid entry record outcome found outcome_eq other =>
    have held : (pid, entry) ∈ c.held := found.mem_iff.mpr (List.mem_cons_self ..)
    have reports (child : Child) (mem : child ∈ killedChildren (c.reported ++ [outcome])) :
        child ∈ kills c.trace := by
      rw [killedChildren_append, other, List.append_nil] at mem
      exact recorded.reported child mem
    cases audited with
    | false => exact ⟨recorded.killed, recorded.failed, reports⟩
    | true =>
      refine ⟨?_, ?_, reports⟩
      · intro p mem killed
        rcases List.mem_cons.mp mem with rfl | old
        · exact (marked.killed _ held).mp (killed_of_recordedOutcome (outcome_eq ▸ killed))
        · exact recorded.killed p old killed
      · intro p mem failed
        rcases List.mem_cons.mp mem with rfl | old
        -- the wait failed, so the entry has no status, and then the child has no exit
        · have running := running_of_recordedOutcome (outcome_eq ▸ failed)
          exact mt (marked.exited _ held).mpr (not_not.mpr running)
        · exact recorded.failed p old failed

/-- A child is let go right after the call of `record_complete` for it. -/
def Prompt (trace : List Effect) : Prop :=
  ∀ later earlier pid child, trace = later ++ .dropped pid child :: earlier →
    ∃ record rest, earlier = .recordComplete child record :: rest

theorem Prompt.cons (prompt : Prompt trace) (effect : Effect)
    (after : ∀ pid child, effect = .dropped pid child →
      ∃ record rest, trace = .recordComplete child record :: rest) :
    Prompt (effect :: trace) := by
  intro later earlier pid child shape
  rcases later with _ | ⟨first, later⟩
  · obtain ⟨rfl, rfl⟩ := List.cons.inj shape
    exact after pid child rfl
  · obtain ⟨rfl, rfl⟩ := List.cons.inj shape
    exact prompt later earlier pid child rfl

theorem Prompt.move (prompt : Prompt c.trace) (move : Move true licence c c') :
    Prompt c'.trace := by
  cases move with
  | note effect aside =>
    apply prompt.cons
    rintro pid child rfl
    rcases aside with ⟨record, absurd⟩ | ⟨record, absurd⟩ <;> cases absurd
  | keep | capture => exact prompt
  | spawn | exit | kill => exact prompt.cons _ (by simp)
  | finish pid entry record outcome found recorded other =>
    -- two effects: the record, and on top of it the drop
    refine (prompt.cons (.recordComplete entry.child record) (by simp)).cons _ ?_
    rintro pid' child ⟨⟩
    exact ⟨record, c.trace, rfl⟩

/-! ### What follows without the two odd kills -/

/-- No child is killed after its exit status was collected. -/
def Timely (trace : List Effect) : Prop :=
  ∀ later earlier child status, trace = later ++ .exited child status :: earlier →
    child ∈ kills trace → child ∈ kills earlier

theorem timely_nil : Timely [] := by
  intro later earlier child status shape
  simp at shape

theorem Timely.cons (timely : Timely trace) (effect : Effect)
    (inTime : ∀ child, effect = .killed child → child ∉ exits trace) :
    Timely (effect :: trace) := by
  intro later earlier child status shape killed
  rcases later with _ | ⟨first, later⟩
  · -- the exit is the latest effect
    obtain ⟨rfl, rfl⟩ := List.cons.inj shape
    simpa using killed
  · -- the exit is older, so a kill on top of it would be late
    obtain ⟨rfl, rfl⟩ := List.cons.inj shape
    rw [kills_cons, List.mem_append] at killed
    rcases killed with now | before
    · have last : effect = .killed child := by
        cases effect <;> simp at now
        rw [now]
      exact absurd (by simp [exits]) (inTime child last)
    · exact timely later earlier child status rfl before

theorem Timely.move (timely : Timely c.trace) (marked : Marked c) (punctual : ¬licence.late)
    (move : Move audited licence c c') : Timely c'.trace := by
  cases move with
  | note effect aside =>
    apply timely.cons
    rintro child rfl
    rcases aside with ⟨record, absurd⟩ | ⟨record, absurd⟩ <;> cases absurd
  | keep | capture => exact timely
  | spawn | exit => exact timely.cons _ (by simp)
  | kill pid entry found placed alive inTime report =>
    apply timely.cons
    rintro child ⟨rfl⟩
    have held : (pid, entry) ∈ c.held := found.mem_iff.mpr (List.mem_cons_self ..)
    -- the entry of a child that has exited says so, and the licence forbids the kill
    exact mt (marked.exited _ held).mpr fun exited => punctual (inTime exited)
  | finish pid entry record outcome found recorded other =>
    cases audited with
    | false => exact timely.cons _ (by simp)
    | true => exact (timely.cons _ (by simp)).cons _ (by simp)

/-- Every kill is reported, in the order of the kills. -/
def Reported (c : Custody) : Prop := killedChildren c.reported = (kills c.trace).reverse

theorem Reported.move (reported : Reported c) (loud : ¬licence.silent)
    (move : Move audited licence c c') : Reported c' := by
  unfold Reported at *
  cases move with
  | note effect aside =>
    rcases aside with ⟨record, rfl⟩ | ⟨record, rfl⟩
    · simpa using reported
    · simpa using reported
  | keep | capture => exact reported
  | spawn | exit => simpa using reported
  | kill pid entry found placed alive inTime report =>
    rcases report with rfl | ⟨_, silent⟩
    · simpa [killedChildren] using reported
    · exact absurd silent loud
  | finish pid entry record outcome found recorded other =>
    have same : killedChildren (c.reported ++ [outcome]) = killedChildren c.reported := by
      rw [killedChildren_append, other, List.append_nil]
    cases audited with
    | false | true => simpa [same] using reported

end

/-! ### Sequences of moves -/

section

variable {audited : Bool} {licence : Licence} {c c' : Custody}

/-- What holds of a custody from the first spawn on. -/
structure Sound (audited : Bool) (c : Custody) : Prop where
  accounted : Accounted audited c
  marked : Marked c
  recorded : Recorded c
  prompt : audited = true → Prompt c.trace

theorem sound_nil (audited : Bool) : Sound audited ⟨[], [], []⟩ := by
  refine ⟨accounted_nil audited, marked_nil, recorded_nil, fun _ => ?_⟩
  intro later earlier pid child shape
  simp at shape

theorem Sound.moves (sound : Sound audited c) (moves : Moves audited licence c c') :
    Sound audited c' := by
  induction moves with
  | refl => exact sound
  | tail _ move ih =>
    refine ⟨ih.accounted.move move, ih.marked.move ih.accounted move,
      ih.recorded.move ih.accounted ih.marked move, ?_⟩
    rintro rfl
    exact (ih.prompt rfl).move move

theorem Sound.timely_moves (sound : Sound audited c) (timely : Timely c.trace)
    (punctual : ¬licence.late) (moves : Moves audited licence c c') : Timely c'.trace := by
  induction moves with
  | refl => exact timely
  | tail before move ih => exact ih.move (sound.moves before).marked punctual move

/-- What was done stays done. -/
theorem suffix_moves (moves : Moves audited licence c c') : c.trace <:+ c'.trace := by
  induction moves with
  | refl => exact List.suffix_refl _
  | tail _ move ih =>
    refine ih.trans ?_
    cases move with
    | keep | capture => exact List.suffix_refl _
    | note | spawn | exit | kill => exact List.suffix_cons ..
    | finish =>
      cases audited with
      | false => exact List.suffix_cons ..
      | true => exact (List.suffix_cons ..).trans (List.suffix_cons ..)

/-- A kill that was not reported then is never reported. -/
theorem Sound.unreported_moves (sound : Sound audited c) {child : Child}
    (killed : child ∈ kills c.trace) (unreported : child ∉ killedChildren c.reported)
    (moves : Moves audited licence c c') :
    child ∈ kills c'.trace ∧ child ∉ killedChildren c'.reported := by
  induction moves with
  | refl => exact ⟨killed, unreported⟩
  | tail before move ih =>
    have grown := (suffix_moves (Relation.ReflTransGen.single move)).filterMap killed?
    refine ⟨grown.subset ih.1, ?_⟩
    cases move with
    | note | keep | spawn | capture | exit => exact ih.2
    | kill pid entry found placed alive inTime report =>
      -- a child is killed once
      have marked := (sound.moves before).marked
      have other : entry.child ≠ child := by
        rintro rfl
        have held := found.mem_iff.mpr (List.mem_cons_self ..)
        have again := (marked.killed _ held).mpr ih.1
        rw [alive] at again
        cases again
      rcases report with rfl | ⟨rfl, _⟩
      · rw [killedChildren_append, List.mem_append, not_or]
        exact ⟨ih.2, fun now => other (List.mem_singleton.mp now).symm⟩
      · exact ih.2
    | finish pid entry record outcome found recorded other =>
      rw [killedChildren_append, other, List.append_nil]
      exact ih.2

theorem Reported.moves (reported : Reported c) (loud : ¬licence.silent)
    (moves : Moves audited licence c c') : Reported c' := by
  induction moves with
  | refl => exact reported
  | tail _ move ih => exact ih.move loud move

/-- Without a licence to spawn, no child is new. -/
theorem fires_moves (barren : ¬licence.spawn) (moves : Moves audited licence c c') :
    fires c'.trace = fires c.trace := by
  induction moves with
  | refl => rfl
  | tail _ move ih =>
    rw [← ih]
    cases move with
    | note effect aside => rcases aside with ⟨record, rfl⟩ | ⟨record, rfl⟩ <;> simp
    | keep same => rfl
    | spawn licensed => exact absurd licensed barren
    | capture => rfl
    | exit | kill => simp
    | finish => cases audited <;> simp

end

end Varta.Watch.Recovery
