import Varta.Watch.OrphanCoverage
import Varta.Watch.RecoveryKills
import Mathlib.Data.List.Rotate

/-!
# Who is visited first on the next tick

`try_reap_into` visits a window of the outstanding pids and keeps the place behind it. The place
is a position in the list of this tick; the next tick makes a new list, in which the pids that
were removed are missing.
-/
namespace Varta.Watch

open Vlp (Bytes32)

namespace Recovery

/-! ### Windows -/

/-- The list that begins behind a window has the rest of the list and then the window. -/
theorem rotate_behind {scratch : List UInt32} (start : Nat) {limit : Nat}
    (fits : limit ≤ scratch.length) :
    scratch.rotate ((start + limit) % scratch.length) =
      (scratch.rotate start).drop limit ++ (scratch.rotate start).take limit := by
  rw [List.rotate_mod, ← List.rotate_rotate,
    List.rotate_eq_drop_append_take (by rwa [List.length_rotate])]

/-! ### What a tick visits -/

section

variable (chainHash : Option (Bytes32 → Bytes → Bytes → Bytes32)) (env : Nat → Answer)

end

section

variable {chainHash : Option (Bytes32 → Bytes → Bytes → Bytes32)} {env : Nat → Answer}
  {r r' r'' : Recovery}

/-! ### Two ticks -/

/-- A tick, as far as the next one depends on it. -/
structure Ticked (r next : Recovery) (visits : List UInt32) : Prop where
  visits_eq : visits = (r.outstanding.iterPids.rotate r.reapCursor).take r.reapMax
  filtered : ∃ keep : UInt32 → Bool,
    next.outstanding.iterPids = r.outstanding.iterPids.filter keep ∧
      ∀ pid, pid ∉ visits → keep pid = true
  cursor : next.reapCursor = if r.outstanding.iterPids.length = 0 then r.reapCursor else
    (r.reapCursor % r.outstanding.iterPids.length +
      min r.reapMax r.outstanding.iterPids.length) % r.outstanding.iterPids.length
  reapMax : next.reapMax = r.reapMax

theorem Ticked.congr {next : Recovery} {visits : List UInt32} (ticked : Ticked r' next visits)
    (outstanding : r'.outstanding = r.outstanding) (cursor : r'.reapCursor = r.reapCursor)
    (limit : r'.reapMax = r.reapMax) : Ticked r next visits := by
  obtain ⟨visits_eq, filtered, moved, same⟩ := ticked
  rw [outstanding, cursor, limit] at visits_eq moved
  rw [outstanding] at filtered
  exact ⟨visits_eq, filtered, moved, same.trans limit⟩

/-- The place behind the window of a tick. -/
def behindWindow (r : Recovery) : Nat :=
  (r.reapCursor % r.outstanding.iterPids.length + r.reapMax) % r.outstanding.iterPids.length

/-- By how many pids the next tick begins late if those of `gone` leave: as many as stood before
its place, around the list that is left. -/
def shift (r : Recovery) (gone : List UInt32) : Nat :=
  (r.outstanding.iterPids.take r.behindWindow).countP (· ∈ gone) %
    (r.outstanding.iterPids.length - gone.length)

/-- The list of the second tick, from its place on: the pids that the first one has not visited,
then those that it has, read from the shift on. -/
structure SecondList (r next : Recovery) (first gone unvisited visited : List UInt32) : Prop where
  list : next.outstanding.iterPids.rotate next.reapCursor =
    (unvisited ++ visited).rotate (r.shift gone)
  unvisited_iff : ∀ pid, pid ∈ unvisited ↔ pid ∈ next.outstanding.iterPids ∧ pid ∉ first
  visited_iff : ∀ pid, pid ∈ visited ↔ pid ∈ next.outstanding.iterPids ∧ pid ∈ first
  length_unvisited : unvisited.length + r.reapMax = r.outstanding.iterPids.length
  length_visited : visited.length + gone.length = r.reapMax

theorem Ticked.second_list {next : Recovery} {first : List UInt32} (ticked : Ticked r next first)
    (more : r.reapMax < r.outstanding.iterPids.length) :
    ∃ unvisited visited, SecondList r next first
      (first.filter (· ∉ next.outstanding.iterPids)) unvisited visited := by
  obtain ⟨visits, ⟨keep, filtered, kept⟩, cursor, -⟩ := ticked
  rw [Nat.min_eq_left (Nat.le_of_lt more), if_neg (by omega)] at cursor
  set scratch := r.outstanding.iterPids
  have here : next.reapCursor = r.behindWindow := cursor
  have inside : r.behindWindow < scratch.length :=
    Nat.mod_lt _ (Nat.lt_of_le_of_lt r.reapMax.zero_le more)
  -- behind the window stands the rest, and then the window
  set rest := (scratch.rotate r.reapCursor).drop r.reapMax with rest_eq
  have behind : scratch.rotate r.behindWindow = rest ++ first := by
    rw [visits, behindWindow, rotate_behind _ (Nat.le_of_lt more), List.rotate_mod]
  have unique : (rest ++ first).Nodup := by
    rw [← behind, List.nodup_rotate]
    exact r.outstanding.nodup_iterPids
  have apart := List.disjoint_of_nodup_append unique
  have member_iff : ∀ pid, pid ∈ scratch ↔ pid ∈ rest ∨ pid ∈ first := by
    intro pid
    rw [← List.mem_append, ← behind, List.mem_rotate]
  have left_iff : ∀ pid, pid ∈ next.outstanding.iterPids ↔ pid ∈ scratch ∧ keep pid = true := by
    intro pid
    rw [filtered, List.mem_filter]
  have rest_kept : ∀ pid ∈ rest, keep pid = true := fun pid member => kept pid (apart member)
  -- those that have left are those that were not kept
  have gone_eq : first.filter (· ∉ next.outstanding.iterPids) = first.filter (!keep ·) := by
    refine List.filter_congr fun pid member => ?_
    simp [left_iff, (member_iff pid).mpr (.inr member)]
  have gone_iff : ∀ pid ∈ scratch, (!keep pid) = true ↔ pid ∈ first.filter (!keep ·) := by
    intro pid member
    rw [List.mem_filter]
    refine ⟨fun lost => ⟨?_, lost⟩, And.right⟩
    refine ((member_iff pid).mp member).resolve_left fun resting => ?_
    simp [rest_kept pid resting] at lost
  have lengths : rest.length + r.reapMax = scratch.length ∧
      (first.filter keep).length + (first.filter (!keep ·)).length = r.reapMax := by
    rw [← List.length_eq_length_filter_add, visits, rest_eq, List.length_drop, List.length_take,
      List.length_rotate]
    omega
  have rotated := Rotation.filter_rotate keep (Nat.le_of_lt inside)
  rw [← filtered, behind, List.filter_append, List.filter_eq_self.mpr rest_kept] at rotated
  rw [gone_eq]
  refine ⟨rest, first.filter keep, ?_, fun pid => ?_, fun pid => ?_, lengths.1, lengths.2⟩
  · have left_length : scratch.length - (first.filter (!keep ·)).length =
        (rest ++ first.filter keep).length := by
      rw [List.length_append]
      omega
    rw [here, rotated, shift, left_length, List.rotate_mod]
    congr 1
    refine List.countP_congr fun pid member => ?_
    rw [gone_iff pid (List.mem_of_mem_take member), decide_eq_true_iff]
  · rw [left_iff, member_iff]
    refine ⟨fun resting => ⟨⟨.inl resting, rest_kept pid resting⟩, apart resting⟩, ?_⟩
    exact fun outside => outside.1.1.resolve_right outside.2
  · rw [left_iff, member_iff, List.mem_filter]
    exact ⟨fun seen => ⟨⟨.inr seen.1, seen.2⟩, seen.1⟩, fun seen => ⟨seen.2, seen.1.2⟩⟩

section

variable {next : Recovery} {first gone unvisited visited second : List UInt32}
  (second_list : SecondList r next first gone unvisited visited)
  (window : second = ((unvisited ++ visited).rotate (r.shift gone)).take r.reapMax)

include second_list

theorem SecondList.nodup : (unvisited ++ visited).Nodup := by
  rw [← List.nodup_rotate, ← second_list.list, List.nodup_rotate]
  exact next.outstanding.nodup_iterPids

include window

end

end

/-! ### Four children and two visits a tick -/

end Recovery

end Varta.Watch
