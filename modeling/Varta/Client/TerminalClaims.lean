import Varta.Client.Panic
import Varta.Vlp.Codec
import Varta.Watch.Tracker

/-!
# Terminal timestamps of competing panics

`claim_terminal_timestamp` of `panic.rs` round by round: any number of hooks fire in one
process, and between any two accesses of one call to the high-water mark the others may go on.
All accesses are relaxed. A load may return any value that the mark has had; an exchange may
fail for no reason, and it succeeds on the latest value only.
-/
namespace Varta.Client

open Machine Vlp

/-- Where a call of `claim_terminal_timestamp` stands. -/
inductive Claim where
  | entered (rawTimestamp : Nat)
  /-- In front of a round of the loop. -/
  | holding (rawTimestamp previous : Nat)
  | returned (result : Option Nat)
  deriving DecidableEq, Repr

/-- The timestamp that a call has returned. -/
def Claim.timestamp : Claim → Option Nat
  | .returned result => result
  | _ => none

/-- The calls of a process, and what their exchanges have put into `LAST_TERMINAL_TIMESTAMP`, in
this order. -/
structure TerminalClaims where
  exchanged : List Nat
  calls : List Claim
  deriving DecidableEq, Repr

namespace TerminalClaims

/-- A process that has not panicked yet. -/
def start : TerminalClaims := ⟨[], []⟩

/-- The values that the high-water mark has had. -/
def marks (p : TerminalClaims) : List Nat := 0 :: p.exchanged

def highWater (p : TerminalClaims) : Nat := p.exchanged.getLastD 0

def goto (p : TerminalClaims) (i : Nat) (claim : Claim) : TerminalClaims :=
  { p with calls := p.calls.set i claim }

inductive Action where
  | fire (rawTimestamp : Nat)
  | load (i observed : Nat)
  /-- A round of the loop; `none` is a successful exchange. -/
  | round (i : Nat) (failed : Option Nat)
  deriving DecidableEq, Repr

/-- One step of one call; `none` if it cannot happen. -/
def step (p : TerminalClaims) : Action → Option TerminalClaims
  | .fire rawTimestamp =>
    some { p with calls := p.calls ++ [.entered (min rawTimestamp maxValidTerminalTimestamp)] }
  | .load i observed =>
    match p.calls[i]? with
    | some (.entered rawTimestamp) =>
      if observed ∈ p.marks then some (p.goto i (.holding rawTimestamp observed)) else none
    | _ => none
  | .round i failed =>
    match p.calls[i]? with
    | some (.holding rawTimestamp previous) =>
      if previous ≥ maxValidTerminalTimestamp then some (p.goto i (.returned none))
      else
        let candidate := max rawTimestamp (previous + 1)
        match failed with
        | none =>
          if previous = p.highWater then
            some { p.goto i (.returned (some candidate)) with exchanged := p.exchanged ++ [candidate] }
          else none
        | some observed =>
          if observed ∈ p.marks then some (p.goto i (.holding rawTimestamp observed)) else none
    | _ => none

def run (p : TerminalClaims) : List Action → Option TerminalClaims
  | [] => some p
  | action :: actions => (p.step action).bind fun p => p.run actions

/-! ### One step -/

variable {p p' : TerminalClaims} {action : Action}

/-- What a step does. Only the last of these touches the mark. -/
inductive Effect (p : TerminalClaims) : TerminalClaims → Prop
  | enters {raw : Nat} (bounded : raw ≤ maxValidTerminalTimestamp) :
    Effect p { p with calls := p.calls ++ [.entered raw] }
  | loads {i raw observed : Nat} (before : p.calls[i]? = some (.entered raw))
    (seen : observed ∈ p.marks) : Effect p (p.goto i (.holding raw observed))
  | fails {i raw previous observed : Nat} (before : p.calls[i]? = some (.holding raw previous))
    (seen : observed ∈ p.marks) : Effect p (p.goto i (.holding raw observed))
  | ends {i raw previous : Nat} (before : p.calls[i]? = some (.holding raw previous))
    (full : maxValidTerminalTimestamp ≤ previous) : Effect p (p.goto i (.returned none))
  | succeeds {i raw : Nat} {timestamp : Nat}
    (before : p.calls[i]? = some (.holding raw p.highWater))
    (claimed : claimTerminalTimestamp raw p.highWater = some timestamp) :
    Effect p { p.goto i (.returned (some timestamp)) with exchanged := p.exchanged ++ [timestamp] }

/-- A call never goes on with a raw timestamp beyond the last valid one. -/
def Bounded (p : TerminalClaims) : Prop :=
  ∀ raw, (.entered raw ∈ p.calls ∨ ∃ previous, .holding raw previous ∈ p.calls) →
    raw ≤ maxValidTerminalTimestamp

theorem step_effect (bounded : p.Bounded) (stepped : p.step action = some p') : Effect p p' := by
  cases action with
  | fire raw =>
    cases stepped
    exact .enters (Nat.min_le_right ..)
  | load i observed =>
    simp only [step] at stepped
    split at stepped
    next raw before =>
      split at stepped
      next seen =>
        cases stepped
        exact .loads before seen
      · cases stepped
    · cases stepped
  | round i failed =>
    simp only [step] at stepped
    split at stepped
    next raw previous before =>
      split at stepped
      next full =>
        cases stepped
        exact .ends before full
      next room =>
        cases failed with
        | some observed =>
          dsimp only at stepped
          split at stepped
          next seen =>
            cases stepped
            exact .fails before seen
          · cases stepped
        | none =>
          dsimp only at stepped
          split at stepped
          next current =>
            subst current
            cases stepped
            -- an exchange that succeeds does what the whole call would do at once
            refine .succeeds before ?_
            have raw_bounded := bounded raw (.inr ⟨_, List.mem_of_getElem? before⟩)
            rw [claimTerminalTimestamp, if_neg room, Nat.min_eq_left raw_bounded]
          · cases stepped
    · cases stepped

/-- What holds in every state of the process. -/
structure Ordered (p : TerminalClaims) : Prop where
  bounded : p.Bounded
  increasing : p.marks.Pairwise (· < ·)
  valid : ∀ timestamp ∈ p.exchanged, timestamp ≤ maxValidTerminalTimestamp
  /-- A call goes on with a value that the mark has had. -/
  observed : ∀ raw previous, .holding raw previous ∈ p.calls → previous ∈ p.marks
  /-- What was exchanged has been returned, each by one call. -/
  returned : (p.calls.filterMap Claim.timestamp).Perm p.exchanged
  exhausted : .returned none ∈ p.calls → maxValidTerminalTimestamp ∈ p.exchanged

theorem ordered_start : start.Ordered where
  bounded := by simp [Bounded, start]
  increasing := by simp [marks, start]
  valid := by simp [start]
  observed := by simp [start]
  returned := by simp [start]
  exhausted := by simp [start]

variable {i timestamp : Nat} {claim : Claim}

/-- A call that has not returned moves. -/
theorem returned_goto (before : p.calls[i]? = some claim) (running : claim.timestamp = none)
    (after : Claim) :
    ((p.goto i after).calls.filterMap Claim.timestamp).Perm
      (after.timestamp.toList ++ p.calls.filterMap Claim.timestamp) := by
  obtain ⟨rest, old, new⟩ := Lists.set_perm before after
  have old := old.filterMap Claim.timestamp
  have new := new.filterMap Claim.timestamp
  rw [List.filterMap_cons_none running] at old
  refine new.trans (List.Perm.trans ?_ (List.Perm.append_left _ old.symm))
  cases stamp : after.timestamp with
  | none => rw [List.filterMap_cons_none stamp]; exact .refl _
  | some timestamp => rw [List.filterMap_cons_some stamp]; exact .refl _

theorem mem_goto {after : Claim} (member : claim ∈ (p.goto i after).calls) :
    claim = after ∨ claim ∈ p.calls :=
  (List.mem_or_eq_of_mem_set member).symm

/-- No mark was higher than the latest one. -/
theorem Ordered.le_highWater (ordered : p.Ordered) {mark : Nat} (member : mark ∈ p.marks) :
    mark ≤ p.highWater := by
  have last : p.marks.getLast (by simp [marks]) = p.highWater := List.getLast_eq_getLastD _
  have sorted := ordered.increasing
  rw [← List.dropLast_append_getLast (l := p.marks) (by simp [marks]), last] at sorted member
  rcases List.mem_append.mp member with earlier | latest
  · exact Nat.le_of_lt ((List.pairwise_append.mp sorted).2.2 mark earlier _ (by simp))
  · exact Nat.le_of_eq (List.mem_singleton.mp latest)

/-- What is claimed is valid, and higher than the mark. -/
theorem claimTerminalTimestamp_bounds {raw mark : Nat}
    (claimed : claimTerminalTimestamp raw mark = some timestamp) :
    mark < timestamp ∧ timestamp ≤ maxValidTerminalTimestamp := by
  have stamped := claimTerminalTimestamp_eq claimed
  unfold claimTerminalTimestamp at claimed
  split at claimed
  · cases claimed
  · omega

/-- A call goes on without touching the mark. -/
theorem Ordered.goto (ordered : p.Ordered) {raw observed : Nat} (before : p.calls[i]? = some claim)
    (running : claim.timestamp = none) (raw_bounded : raw ≤ maxValidTerminalTimestamp)
    (seen : observed ∈ p.marks) :
    (p.goto i (.holding raw observed)).Ordered where
  bounded := by
    rintro other (member | ⟨previous, member⟩)
    · rcases mem_goto member with absurd | held
      · cases absurd
      · exact ordered.bounded other (.inl held)
    · rcases mem_goto member with same | held
      · cases same
        exact raw_bounded
      · exact ordered.bounded other (.inr ⟨previous, held⟩)
  increasing := ordered.increasing
  valid := ordered.valid
  observed := by
    intro other previous member
    rcases mem_goto member with same | held
    · cases same
      exact seen
    · exact ordered.observed other previous held
  returned := (returned_goto before running _).trans ordered.returned
  exhausted := by
    intro member
    rcases mem_goto member with absurd | held
    · cases absurd
    · exact ordered.exhausted held

theorem Ordered.effect (ordered : p.Ordered) (effect : Effect p p') : p'.Ordered := by
  cases effect with
  | @enters raw bounded =>
    constructor
    · rintro other (member | ⟨previous, member⟩)
      · rcases List.mem_append.mp member with held | new
        · exact ordered.bounded other (.inl held)
        · cases List.mem_singleton.mp new
          exact bounded
      · rcases List.mem_append.mp member with held | new
        · exact ordered.bounded other (.inr ⟨previous, held⟩)
        · cases List.mem_singleton.mp new
    · exact ordered.increasing
    · exact ordered.valid
    · intro other previous member
      rcases List.mem_append.mp member with held | new
      · exact ordered.observed other previous held
      · cases List.mem_singleton.mp new
    · rw [List.filterMap_append, List.filterMap_cons_none rfl, List.filterMap_nil, List.append_nil]
      exact ordered.returned
    · intro member
      rcases List.mem_append.mp member with held | new
      · exact ordered.exhausted held
      · cases List.mem_singleton.mp new
  | @loads i raw observed before seen =>
    exact ordered.goto before rfl (ordered.bounded raw (.inl (List.mem_of_getElem? before))) seen
  | @fails i raw previous observed before seen =>
    exact ordered.goto before rfl
      (ordered.bounded raw (.inr ⟨previous, List.mem_of_getElem? before⟩)) seen
  | @ends i raw previous before full =>
    constructor
    · rintro other (member | ⟨previous, member⟩)
      · exact ordered.bounded other (.inl ((mem_goto member).resolve_left (by simp)))
      · exact ordered.bounded other (.inr ⟨previous, (mem_goto member).resolve_left (by simp)⟩)
    · exact ordered.increasing
    · exact ordered.valid
    · intro other previous member
      exact ordered.observed other previous ((mem_goto member).resolve_left (by simp))
    · exact (returned_goto before rfl _).trans ordered.returned
    · intro _
      -- the value it has seen was exchanged by another call
      have seen := ordered.observed raw previous (List.mem_of_getElem? before)
      have positive : 0 < maxValidTerminalTimestamp := by decide
      rcases List.mem_cons.mp seen with rfl | exchanged
      · omega
      · have valid := ordered.valid previous exchanged
        exact Nat.le_antisymm valid full ▸ exchanged
  | @succeeds i raw timestamp before claimed =>
    obtain ⟨higher, valid⟩ := claimTerminalTimestamp_bounds claimed
    have extended : TerminalClaims.marks
        { p.goto i (.returned (some timestamp)) with exchanged := p.exchanged ++ [timestamp] } =
        p.marks ++ [timestamp] := rfl
    constructor
    · rintro other (member | ⟨previous, member⟩)
      · exact ordered.bounded other (.inl ((mem_goto member).resolve_left (by simp)))
      · exact ordered.bounded other (.inr ⟨previous, (mem_goto member).resolve_left (by simp)⟩)
    · rw [extended]
      refine List.pairwise_append.mpr ⟨ordered.increasing, List.pairwise_singleton .., ?_⟩
      intro mark member _ new
      rw [List.mem_singleton.mp new]
      exact (ordered.le_highWater member).trans_lt higher
    · intro other member
      rcases List.mem_append.mp member with held | new
      · exact ordered.valid other held
      · exact List.mem_singleton.mp new ▸ valid
    · intro other previous member
      rw [extended]
      exact List.mem_append_left _
        (ordered.observed other previous ((mem_goto member).resolve_left (by simp)))
    · have moved := returned_goto before rfl (.returned (some timestamp))
      exact moved.trans (List.perm_append_comm.trans (ordered.returned.append_right _))
    · intro member
      exact List.mem_append_left _ (ordered.exhausted ((mem_goto member).resolve_left (by simp)))

theorem Ordered.run (ordered : p.Ordered) {actions : List Action}
    (ran : p.run actions = some p') : p'.Ordered := by
  induction actions generalizing p with
  | nil =>
    cases ran
    exact ordered
  | cons action actions ih =>
    obtain ⟨next, stepped, ran⟩ := Option.bind_eq_some_iff.mp ran
    exact ih (ordered.effect (step_effect ordered.bounded stepped)) ran

/-! ### The frames -/

/-- The frame of a hook that has claimed a timestamp. -/
def terminalFrame (pid : UInt32) (timestamp : Nat) : WireFrame :=
  .new .critical pid (UInt64.ofNat timestamp) (UInt64.ofNat nonceTerminal) 0

theorem terminalFrame_timestamp (pid : UInt32) (valid : timestamp ≤ maxValidTerminalTimestamp) :
    (terminalFrame pid timestamp).frame.timestamp = timestamp := by
  have small : timestamp < 2 ^ 64 := by
    unfold maxValidTerminalTimestamp u64Bound at valid
    omega
  simpa [terminalFrame, WireFrame.new, WireFrame.frame] using Nat.mod_eq_of_lt small

theorem terminalFrame_valid {pid : UInt32} (process : 2 ≤ pid)
    (valid : timestamp ≤ maxValidTerminalTimestamp) : (terminalFrame pid timestamp).Valid where
  magic := rfl
  version := rfl
  status := by simp [terminalFrame, WireFrame.new]
  pid := process
  timestamp := by
    have stamp : (terminalFrame pid timestamp).timestamp.toNat = timestamp :=
      terminalFrame_timestamp pid valid
    rw [stamp]
    unfold maxValidTerminalTimestamp u64Bound at *
    omega
  nonce := fun _ => rfl

end TerminalClaims

open Watch (Slot Arrival)

/-- Frames with rising timestamps are accepted one after the other. -/
theorem refreshTerminal_increasing {slot : Slot} {arrivals : List Arrival}
    (increasing : (arrivals.map fun b => b.frame.timestamp).Pairwise (· < ·))
    (advances : ∀ b ∈ arrivals, slot.terminalWouldAdvance b.frame.timestamp) :
    (arrivals.foldlM Slot.refreshTerminal slot).isSome := by
  induction arrivals generalizing slot with
  | nil => rfl
  | cons b arrivals ih =>
    obtain ⟨first, rest⟩ := List.pairwise_cons.mp increasing
    rw [List.foldlM_cons, Slot.refreshTerminal, if_pos (advances b (List.mem_cons_self ..))]
    refine ih rest fun later member => ?_
    simpa [Slot.terminalWouldAdvance] using first _ (List.mem_map_of_mem member)

namespace TerminalClaims

/-- For all panics of a process, in every interleaving of their rounds: the claimed timestamps
rise in the order of the exchanges and are never `u64::MAX`, a call returns `None` only after the
last valid one was claimed, and the frames with these timestamps decode and are accepted in
order, also if some of them are lost. -/
theorem terminal_frames_in_order (actions : List Action) (p : TerminalClaims)
    (ran : start.run actions = some p) (pid : UInt32) (process : 2 ≤ pid) :
    p.exchanged.Pairwise (· < ·) ∧ (∀ timestamp ∈ p.exchanged, timestamp < u64Bound - 1) ∧
    (p.calls.filterMap Claim.timestamp).Perm p.exchanged ∧
    (.returned none ∈ p.calls → u64Bound - 2 ∈ p.exchanged) ∧
    (∀ timestamp ∈ p.exchanged,
      WireFrame.decode (terminalFrame pid timestamp).encode = .ok (terminalFrame pid timestamp)) ∧
    ∀ (slot : Slot) (arrivals : List Arrival), slot.lastTerminalTimestamp = none →
      (arrivals.map Arrival.frame).Sublist
        (p.exchanged.map fun timestamp => (terminalFrame pid timestamp).frame) →
      (arrivals.foldlM Slot.refreshTerminal slot).isSome := by
  have ordered := ordered_start.run ran
  have increasing := (List.pairwise_cons.mp ordered.increasing).2
  refine ⟨increasing, ?_, ordered.returned, ordered.exhausted, ?_, ?_⟩
  · intro timestamp member
    have valid := ordered.valid timestamp member
    unfold maxValidTerminalTimestamp u64Bound at *
    omega
  · intro timestamp member
    exact WireFrame.decode_eq_ok_iff_encode.mpr
      ⟨terminalFrame_valid process (ordered.valid timestamp member), rfl⟩
  · intro slot arrivals fresh delivered
    have stamps : (p.exchanged.map fun timestamp => (terminalFrame pid timestamp).frame).map
        Frame.timestamp = p.exchanged := by
      rw [List.map_map]
      refine List.map_congr_left (g := id) (fun timestamp member => ?_) |>.trans (List.map_id _)
      exact terminalFrame_timestamp pid (ordered.valid timestamp member)
    have sub := delivered.map Frame.timestamp
    rw [stamps, List.map_map] at sub
    refine refreshTerminal_increasing (increasing.sublist sub) fun b _ => ?_
    simp [Slot.terminalWouldAdvance, fresh]

/-- Two panics at once: the second loses its first exchange and claims the next nanosecond. -/
theorem terminal_frames_in_order_competing :
    start.run [.fire 5, .fire 5, .load 0 0, .load 1 0, .round 0 none, .round 1 (some 5),
        .round 1 none] = some ⟨[5, 6], [.returned (some 5), .returned (some 6)]⟩ ∧
      [5, 6].Pairwise (· < ·) :=
  ⟨by decide, (terminal_frames_in_order
    [.fire 5, .fire 5, .load 0 0, .load 1 0, .round 0 none, .round 1 (some 5), .round 1 none]
    ⟨[5, 6], [.returned (some 5), .returned (some 6)]⟩ (by decide) 42 (by decide)).1⟩

/-- The first process of a namespace: its frame does not decode. -/
theorem terminal_frame_of_init :
    start.run [.fire 5, .load 0 0, .round 0 none] = some ⟨[5], [.returned (some 5)]⟩ ∧
      WireFrame.decode (terminalFrame 1 5).encode = .error (.badPid 1) := by
  decide +kernel

end TerminalClaims

end Varta.Client
