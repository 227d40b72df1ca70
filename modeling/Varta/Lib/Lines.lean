import Mathlib.Data.List.Basic
import Mathlib.Data.List.Infix

/-!
# Searching a buffer from its end

The last element with a property, the start of the last line, the last occurrence of
a pattern, and the terminated lines of a buffer with the rest that has no terminator.
-/
namespace Lines

section Search

variable {α : Type}

/-- Index of the last element satisfying `p`. -/
def rposition (p : α → Bool) : List α → Option Nat
  | [] => none
  | x :: xs =>
    match rposition p xs with
    | some i => some (i + 1)
    | none => if p x then some 0 else none

theorem rposition_eq_none_iff (p : α → Bool) (xs : List α) :
    rposition p xs = none ↔ ∀ x ∈ xs, p x = false := by
  induction xs with
  | nil => simp [rposition]
  | cons x xs ih =>
    cases h : rposition p xs with
    | some i =>
      have later : ¬ ∀ y ∈ xs, p y = false := fun all => by simp [ih.mpr all] at h
      simp only [rposition, h, List.forall_mem_cons]
      exact iff_of_false (by simp) fun all => later all.2
    | none =>
      simp only [rposition, h, List.forall_mem_cons, and_iff_left (ih.mp h)]
      cases p x <;> simp

theorem rposition_append_cons (p : α → Bool) (front : List α) (x : α) (back : List α)
    (hit : p x = true) (later : ∀ y ∈ back, p y = false) :
    rposition p (front ++ x :: back) = some front.length := by
  induction front with
  | nil => simp [rposition, (rposition_eq_none_iff p back).mpr later, hit]
  | cons y front ih => simp [rposition, ih]

/-- The split at the element that was found. -/
theorem rposition_split (p : α → Bool) (xs : List α) {i : Nat}
    (found : rposition p xs = some i) :
    ∃ front x back, xs = front ++ x :: back ∧ front.length = i ∧ p x = true ∧
      ∀ y ∈ back, p y = false := by
  induction xs generalizing i with
  | nil => simp [rposition] at found
  | cons y xs ih =>
    cases h : rposition p xs with
    | some j =>
      simp only [rposition, h, Option.some.injEq] at found
      obtain ⟨front, x, back, split, length, hit, later⟩ := ih h
      exact ⟨y :: front, x, back, by simp [split], by simp [length, found], hit, later⟩
    | none =>
      by_cases hit : p y = true
      · simp only [rposition, h, hit, if_true, Option.some.injEq] at found
        exact ⟨[], y, xs, rfl, found, hit, (rposition_eq_none_iff p xs).mp h⟩
      · simp [rposition, h, hit] at found

end Search

section Terminated

variable {α : Type} [DecidableEq α] (sep : α)

/-- Where the last line of `view` begins: just past its last terminator. -/
def lineStart (view : List α) : Nat :=
  match rposition (· == sep) view with
  | some i => i + 1
  | none => 0

theorem rposition_sep_none {view : List α} (clear : sep ∉ view) :
    rposition (· == sep) view = none := by
  rw [rposition_eq_none_iff]
  intro x member
  exact beq_false_of_ne fun same => clear (same ▸ member)

theorem rposition_sep (front back : List α) (clear : sep ∉ back) :
    rposition (· == sep) (front ++ sep :: back) = some front.length := by
  refine rposition_append_cons _ front sep back (by simp) fun y member => ?_
  exact beq_false_of_ne fun same => clear (same ▸ member)

theorem lineStart_of_not_mem {view : List α} (clear : sep ∉ view) : lineStart sep view = 0 := by
  simp [lineStart, rposition_sep_none sep clear]

theorem lineStart_append (front back : List α) (clear : sep ∉ back) :
    lineStart sep (front ++ sep :: back) = front.length + 1 := by
  simp [lineStart, rposition_sep sep front back clear]

/-- Every buffer is one unterminated piece, or ends in one after its last terminator. -/
theorem last_line_cases (view : List α) :
    sep ∉ view ∨ ∃ front back, view = front ++ sep :: back ∧ sep ∉ back := by
  cases h : rposition (· == sep) view with
  | none =>
    left
    intro member
    have := (rposition_eq_none_iff _ _).mp h sep member
    simp at this
  | some i =>
    obtain ⟨front, x, back, split, _, hit, later⟩ := rposition_split _ _ h
    have same : x = sep := by simpa using hit
    refine Or.inr ⟨front, back, by rw [split, same], fun member => ?_⟩
    simpa using later sep member

/-- The lines of `buf` that carry their terminator, without it. -/
def completeLines : List α → List (List α)
  | [] => []
  | x :: xs =>
    if x = sep then [] :: completeLines xs
    else match completeLines xs with
      | [] => []
      | line :: lines => (x :: line) :: lines

/-- Terminate each line and write them one after the other. -/
def terminated (lines : List (List α)) : List α :=
  lines.flatMap fun line => line ++ [sep]

omit [DecidableEq α] in
@[simp] theorem terminated_nil : terminated sep [] = [] := rfl

omit [DecidableEq α] in
@[simp] theorem terminated_cons (line : List α) (lines : List (List α)) :
    terminated sep (line :: lines) = line ++ sep :: terminated sep lines := by
  simp [terminated]

omit [DecidableEq α] in
theorem terminated_append (front back : List (List α)) :
    terminated sep (front ++ back) = terminated sep front ++ terminated sep back := by
  simp [terminated]

omit [DecidableEq α] in
theorem terminated_concat (front : List (List α)) (line : List α) :
    terminated sep (front ++ [line]) = terminated sep front ++ (line ++ [sep]) := by
  simp [terminated]

theorem completeLines_of_not_mem {torn : List α} (clear : sep ∉ torn) :
    completeLines sep torn = [] := by
  induction torn with
  | nil => rfl
  | cons x xs ih =>
    rw [List.mem_cons, not_or] at clear
    simp [completeLines, ih clear.2, Ne.symm clear.1]

theorem completeLines_append (line rest : List α) (clear : sep ∉ line) :
    completeLines sep (line ++ sep :: rest) = line :: completeLines sep rest := by
  induction line with
  | nil => simp [completeLines]
  | cons x xs ih =>
    rw [List.mem_cons, not_or] at clear
    simp [completeLines, ih clear.2, Ne.symm clear.1]

omit [DecidableEq α] in
/-- Every buffer is some lines and an unterminated piece behind them. -/
theorem exists_terminated (buf : List α) : ∃ lines torn, buf = terminated sep lines ++ torn ∧
    (∀ line ∈ lines, sep ∉ line) ∧ sep ∉ torn := by
  classical
  induction buf with
  | nil => exact ⟨[], [], rfl, by simp, by simp⟩
  | cons x buf ih =>
    obtain ⟨lines, torn, rfl, clear, clearTorn⟩ := ih
    by_cases ends : x = sep
    · exact ⟨[] :: lines, torn, by simp [ends], by simpa using clear, clearTorn⟩
    · -- the element goes to the first line, or to the unterminated piece
      cases lines with
      | nil => exact ⟨[], x :: torn, rfl, by simp, by simp [clearTorn, Ne.symm ends]⟩
      | cons line lines =>
        refine ⟨(x :: line) :: lines, torn, by simp, ?_, clearTorn⟩
        simp only [List.forall_mem_cons] at clear ⊢
        exact ⟨by simp [clear.1, Ne.symm ends], clear.2⟩

/-- Splitting a written buffer gives back the lines, whatever unterminated piece follows. -/
theorem completeLines_terminated (lines : List (List α)) (torn : List α)
    (clear : ∀ line ∈ lines, sep ∉ line) (clearTorn : sep ∉ torn) :
    completeLines sep (terminated sep lines ++ torn) = lines := by
  induction lines with
  | nil => exact completeLines_of_not_mem sep clearTorn
  | cons line lines ih =>
    rw [terminated_cons, List.append_assoc, List.cons_append,
      completeLines_append sep line _ (clear line (by simp)),
      ih fun l hl => clear l (by simp [hl])]

omit [DecidableEq α] in
/-- A cut through a written buffer falls into one line, or past all of them. -/
theorem drop_terminated (lines : List (List α)) (torn : List α) (k : Nat) :
    (∃ before line later j, lines = before ++ line :: later ∧ j ≤ line.length ∧
        k = (terminated sep before).length + j ∧
        (terminated sep lines ++ torn).drop k = terminated sep (line.drop j :: later) ++ torn) ∨
      ((terminated sep lines).length ≤ k ∧
        (terminated sep lines ++ torn).drop k = torn.drop (k - (terminated sep lines).length)) := by
  induction lines generalizing k with
  | nil => exact Or.inr (by simp)
  | cons line lines ih =>
    -- the cut is in the first line, or behind its terminator
    by_cases inside : k ≤ line.length
    · refine Or.inl ⟨[], line, lines, k, rfl, inside, by simp, ?_⟩
      simp [List.drop_append_of_le_length inside]
    · obtain ⟨m, rfl⟩ : ∃ m, k = line.length + 1 + m := ⟨k - (line.length + 1), by omega⟩
      have skip : (terminated sep (line :: lines) ++ torn).drop (line.length + 1 + m) =
          (terminated sep lines ++ torn).drop m := by
        have split : terminated sep (line :: lines) ++ torn =
            (line ++ [sep]) ++ (terminated sep lines ++ torn) := by simp
        rw [split, ← List.drop_drop, List.drop_left' (by simp)]
      rcases ih m with ⟨before, l, later, j, shape, bound, place, rest⟩ | ⟨past, rest⟩
      · refine Or.inl ⟨line :: before, l, later, j, by simp [shape], bound, ?_, by rw [skip, rest]⟩
        simp [place]
        omega
      · refine Or.inr ⟨by simp; omega, ?_⟩
        rw [skip, rest]
        congr 1
        simp
        omega

end Terminated

section Pattern

variable {α : Type} [DecidableEq α]

/-- The consecutive blocks of length `n`. -/
def windows (n : Nat) : List α → List (List α)
  | [] => []
  | x :: xs => if n ≤ (x :: xs).length then (x :: xs).take n :: windows n xs else []

/-- Start of the last occurrence of `needle`. -/
def lastOccurrence (needle buf : List α) : Option Nat :=
  rposition (· == needle) (windows needle.length buf)

theorem lastOccurrence_cons (needle : List α) (x : α) (xs : List α) :
    lastOccurrence needle (x :: xs) =
      match lastOccurrence needle xs with
      | some i => some (i + 1)
      | none => if needle <+: x :: xs then some 0 else none := by
  by_cases room : needle.length ≤ (x :: xs).length
  · -- a block of the needle's length equals it exactly where it is a prefix
    have hit : ((x :: xs).take needle.length == needle) = decide (needle <+: x :: xs) := by
      rw [Bool.eq_iff_iff, beq_iff_eq, decide_eq_true_iff, List.prefix_iff_eq_take, eq_comm]
    simp only [lastOccurrence, windows, if_pos room, rposition, hit, decide_eq_true_eq]
  · have short : windows needle.length xs = [] := by
      cases xs with
      | nil => rfl
      | cons y ys =>
        simp only [List.length_cons] at room
        simp [windows]
        omega
    have miss : ¬ needle <+: x :: xs := fun pre => room pre.length_le
    simp only [lastOccurrence, windows, if_neg room, short, rposition, if_neg miss]

theorem lastOccurrence_eq_none_iff (needle : List α) (nonempty : needle ≠ []) (buf : List α) :
    lastOccurrence needle buf = none ↔ ∀ j, ¬ needle <+: buf.drop j := by
  induction buf with
  | nil => simp [lastOccurrence, windows, rposition, nonempty]
  | cons x xs ih =>
    rw [lastOccurrence_cons]
    cases h : lastOccurrence needle xs with
    | some k =>
      have hit : ¬ ∀ j, ¬ needle <+: xs.drop j := fun all => by simp [ih.mpr all] at h
      exact iff_of_false (by simp) fun all => hit fun j => by simpa using all (j + 1)
    | none =>
      have later := ih.mp h
      by_cases pre : needle <+: x :: xs
      · rw [if_pos pre]
        exact iff_of_false (by simp) fun all => all 0 pre
      · rw [if_neg pre]
        refine iff_of_true rfl fun j => ?_
        cases j with
        | zero => exact pre
        | succ j => exact later j

/-- A non-empty needle is found at its last position. -/
theorem lastOccurrence_eq_some_iff (needle : List α) (nonempty : needle ≠ []) (buf : List α)
    (i : Nat) : lastOccurrence needle buf = some i ↔
      needle <+: buf.drop i ∧ ∀ j, needle <+: buf.drop j → j ≤ i := by
  induction buf generalizing i with
  | nil => simp [lastOccurrence, windows, rposition, nonempty]
  | cons x xs ih =>
    rw [lastOccurrence_cons]
    cases h : lastOccurrence needle xs with
    | some k =>
      obtain ⟨here, last⟩ := (ih k).mp h
      simp only [Option.some.injEq]
      constructor
      · rintro rfl
        refine ⟨here, fun j hj => ?_⟩
        cases j with
        | zero => omega
        | succ j => exact Nat.succ_le_succ (last j hj)
      · rintro ⟨hi, latest⟩
        have low := latest (k + 1) here
        cases i with
        | zero => omega
        | succ i => exact le_antisymm low (Nat.succ_le_succ (last i hi))
    | none =>
      have missing := (lastOccurrence_eq_none_iff needle nonempty xs).mp h
      by_cases pre : needle <+: x :: xs
      · simp only [if_pos pre, Option.some.injEq]
        constructor
        · rintro rfl
          refine ⟨pre, fun j hj => ?_⟩
          cases j with
          | zero => exact le_rfl
          | succ j => exact absurd hj (missing j)
        · rintro ⟨hi, _⟩
          cases i with
          | zero => rfl
          | succ i => exact absurd hi (missing i)
      · refine iff_of_false (by simp [pre]) ?_
        rintro ⟨hi, _⟩
        cases i with
        | zero => exact pre hi
        | succ i => exact missing i hi

variable (sep : α)

omit [DecidableEq α] in
/-- Where a terminated pattern meets a terminated line, the two end together. -/
theorem prefix_line_iff (text line rest : List α) (clearText : sep ∉ text)
    (clearLine : sep ∉ line) : text ++ [sep] <+: line ++ sep :: rest ↔ text = line := by
  induction text generalizing line with
  | nil =>
    cases line with
    | nil => simp
    | cons y ys =>
      rw [List.mem_cons, not_or] at clearLine
      simp [clearLine.1]
  | cons x xs ih =>
    rw [List.mem_cons, not_or] at clearText
    cases line with
    | nil => simp [Ne.symm clearText.1]
    | cons y ys =>
      rw [List.mem_cons, not_or] at clearLine
      simp [List.cons_prefix_cons, ih ys clearText.2 clearLine.2]

omit [DecidableEq α] in
/-- A terminated pattern occurs in a written buffer only at the end of a line. -/
theorem occurrence_terminated (text : List α) (clearText : sep ∉ text) (lines : List (List α))
    (torn : List α) (clear : ∀ line ∈ lines, sep ∉ line) (clearTorn : sep ∉ torn) (k : Nat)
    (occurs : text ++ [sep] <+: (terminated sep lines ++ torn).drop k) :
    ∃ before line later, lines = before ++ line :: later ∧ text <:+ line ∧
      k = (terminated sep before).length + (line.length - text.length) := by
  rcases drop_terminated sep lines torn k with
    ⟨before, line, later, j, rfl, bound, place, buf⟩ | ⟨_, buf⟩
  · have clearPart : sep ∉ line.drop j :=
      fun member => clear line (by simp) (List.mem_of_mem_drop member)
    rw [buf, terminated_cons, List.append_assoc, List.cons_append,
      prefix_line_iff sep text _ _ clearText clearPart] at occurs
    -- the pattern takes up the rest of the line from the cut on
    refine ⟨before, line, later, rfl, occurs ▸ List.drop_suffix j line, ?_⟩
    rw [place, occurs, List.length_drop]
    omega
  · -- behind all lines there is no terminator left for the pattern
    rw [buf] at occurs
    exact absurd (List.mem_of_mem_drop (occurs.subset (by simp))) clearTorn

/-- The last line that ends in `text` is where the terminated pattern occurs last. -/
theorem lastOccurrence_terminated (text : List α) (clearText : sep ∉ text)
    (before : List (List α)) (line : List α) (later : List (List α)) (torn : List α)
    (clear : ∀ l ∈ before ++ line :: later, sep ∉ l) (clearTorn : sep ∉ torn)
    (ends : text <:+ line) (last : ∀ l ∈ later, ¬ text <:+ l) :
    lastOccurrence (text ++ [sep]) (terminated sep (before ++ line :: later) ++ torn) =
      some ((terminated sep before).length + (line.length - text.length)) := by
  rw [lastOccurrence_eq_some_iff _ (by simp)]
  constructor
  · -- the pattern does occur there
    obtain ⟨front, rfl⟩ := ends
    have buf : terminated sep (before ++ (front ++ text) :: later) ++ torn =
        (terminated sep before ++ front) ++ ((text ++ [sep]) ++ (terminated sep later ++ torn)) := by
      simp [terminated_append]
    have place : (terminated sep before).length + ((front ++ text).length - text.length) =
        (terminated sep before ++ front).length := by simp
    rw [buf, place, List.drop_left]
    exact List.prefix_append _ _
  · intro k occurs
    obtain ⟨before', line', later', shape, ends', place⟩ :=
      occurrence_terminated sep text clearText _ torn clear clearTorn k occurs
    -- a later hit would be in one of the lines after `line`
    by_contra beyond
    rcases List.append_eq_append_iff.mp shape with
      ⟨mid, rfl, rest⟩ | ⟨mid, rfl, rest⟩
    · -- the hit is in this line or in a later one
      cases mid with
      | nil =>
        obtain ⟨rfl, rfl⟩ := List.cons.inj (by simpa using rest)
        simp at place
        omega
      | cons m mid =>
        obtain ⟨rfl, rfl⟩ := List.cons.inj rest
        exact last line' (by simp) ends'
    · rw [terminated_append, List.length_append] at beyond
      cases mid with
      | nil =>
        obtain ⟨rfl, rfl⟩ := List.cons.inj (by simpa using rest)
        simp at beyond
        omega
      | cons m mid =>
        obtain ⟨rfl, rfl⟩ := List.cons.inj rest
        simp only [terminated_cons, List.length_append, List.length_cons] at beyond
        omega

end Pattern

end Lines
