import Varta.Audit.TailProbe

/-!
# What the bounded read can see

For a file that is a v2 header followed by lines and an unterminated rest, the first
read of the probe agrees with a read of the whole data region, except where the window
cuts through the last line and the part it shows is itself readable as a record.
-/
namespace Varta.Audit

open Vlp (Bytes32)

/-- Where the log resumes. -/
def TailProbe.resumePoint (probe : TailProbe) : Nat × Bytes32 := (probe.lastSeq, probe.lastChain)

def auditFile (lines : List Bytes) (torn : Bytes) : Bytes :=
  auditHeaderV2 ++ (Lines.terminated newline lines ++ torn)

/-- The probe of the data region alone, read from its first byte. -/
def regionProbe (lines : List Bytes) (torn : Bytes) (dataStart : Nat) : TailProbe :=
  (classifyTail (Lines.terminated newline lines ++ torn) dataStart dataStart).1

/-- The record that the tail window shows in place of a last line too long for it. -/
def windowRecord (lines : List Bytes) (torn : Bytes) : Option (Nat × Bytes32) :=
  match torn, lines.getLast? with
  | [], some last =>
    if tailScanBytes ≤ last.length then
      parseRecord (last.drop (last.length - (tailScanBytes - 1)))
    else none
  | _, _ => none

theorem auditHeaderV2_length : auditHeaderV2.length = 32 := by decide

theorem newline_not_mem_auditHeaderText : newline ∉ auditHeaderText := by decide

/-! ### Verdicts that do not depend on how the line was reached -/

theorem cleanVerdict_of_recovered {last : Bytes} {narrow wide : Option Bytes}
    (recovered : (cleanVerdict last narrow).2 = true) (sees : ∀ p, narrow = some p → wide = some p) :
    cleanVerdict last narrow = cleanVerdict last wide := by
  cases h : parseRecord last with
  | some r => simp [cleanVerdict, h]
  | none =>
    cases narrow with
    | none => simp [cleanVerdict, h] at recovered
    -- the verdict used this line, and the wider read has the same one
    | some p => rw [sees p rfl]

theorem tornVerdict_resumePoint (t t' : Nat) {narrow wide : Option Bytes}
    (recovered : (tornVerdict t narrow).2 = true) (sees : ∀ p, narrow = some p → wide = some p) :
    (tornVerdict t narrow).1.resumePoint = (tornVerdict t' wide).1.resumePoint := by
  cases narrow with
  | none => simp [tornVerdict] at recovered
  | some p =>
    rw [sees p rfl]
    unfold tornVerdict
    split <;> rfl

theorem tornVerdict_unread (t t' : Nat) {a b : Option Bytes}
    (ha : a.bind parseRecord = none) (hb : b.bind parseRecord = none) :
    (tornVerdict t a).1.resumePoint = (tornVerdict t' b).1.resumePoint := by
  simp only [tornVerdict, ha, hb]
  rfl

variable {dataStart scanStart : Nat} (init lines : List Bytes) (last torn : Bytes)

theorem cleanVerdict_unread {p q : Bytes} (hp : parseRecord p = none) (hq : parseRecord q = none) :
    cleanVerdict last (some p) = cleanVerdict last (some q) := by
  simp [cleanVerdict, hp, hq]

theorem lineBefore_whole (dataStart : Nat) (init : List Bytes) :
    lineBefore dataStart dataStart init = some (init.getLastD []) := by
  unfold lineBefore
  rcases List.eq_nil_or_concat init with rfl | ⟨init, p, rfl⟩ <;> simp

theorem lineBefore_window (after : dataStart < scanStart) (before : List Bytes) (line frag : Bytes)
    (later : List Bytes) (p : Bytes)
    (seen : lineBefore scanStart dataStart (frag :: later) = some p) :
    lineBefore dataStart dataStart (before ++ line :: later) = some p := by
  rw [lineBefore_whole]
  have cut : ¬ scanStart ≤ dataStart := by omega
  rcases List.eq_nil_or_concat later with rfl | ⟨later, q, rfl⟩
  · -- the line before is the cut one, which the look-back does not trust
    simp [lineBefore, cut] at seen
  · rw [List.concat_eq_append, ← List.cons_append, lineBefore_concat] at seen
    rw [if_pos (by simp), Option.some.injEq] at seen
    rw [List.concat_eq_append, ← List.cons_append, ← List.append_assoc, List.getLastD_concat, seen]

/-! ### The window against the whole region -/

theorem parseRecord_header_part (s : Nat) (inside : s ≤ 31) :
    parseRecord (auditHeaderText.drop s) = none := by
  -- 32 positions in a fixed text
  interval_cases s <;> decide

/-- The window reaches back into the header, so nothing is cut off. -/
theorem classifyTail_from_header (s : Nat) (inside : s ≤ 31) (lines : List Bytes) (torn : Bytes)
    (clear : ∀ line ∈ lines, newline ∉ line) (clearTorn : newline ∉ torn)
    (whole : lines = [] → torn = [] → s = 0) :
    (classifyTail ((auditFile lines torn).drop s) s auditHeaderV2.length).1.resumePoint =
      (regionProbe lines torn auditHeaderV2.length).resumePoint := by
  have reach : s ≤ auditHeaderV2.length := by rw [auditHeaderV2_length]; omega
  have part := parseRecord_header_part s inside
  have clearPart : newline ∉ auditHeaderText.drop s :=
    fun member => newline_not_mem_auditHeaderText (List.mem_of_mem_drop member)
  have buf : (auditFile lines torn).drop s =
      Lines.terminated newline (auditHeaderText.drop s :: lines) ++ torn := by
    have room : s ≤ auditHeaderText.length := le_trans inside (by decide)
    simp [auditFile, auditHeaderV2, List.drop_append_of_le_length room]
  rw [buf, regionProbe]
  -- the part of the header in sight reads as a line, but never as a record
  rcases List.eq_nil_or_concat lines with rfl | ⟨init, last, rfl⟩
  · -- no line at all: the header itself is the line in front of the rest
    by_cases hollow : torn = []
    · subst hollow
      have start := whole rfl rfl
      subst start
      decide
    · have torn_part := classifyTail_torn s auditHeaderV2.length [] (auditHeaderText.drop s) torn
        clearPart clearTorn hollow
      rw [List.nil_append] at torn_part
      rw [torn_part, Lines.terminated_nil, List.nil_append,
        classifyTail_unterminated _ _ torn clearTorn]
      exact tornVerdict_unread _ _ (by simp [reach, part]) rfl
  · rw [List.concat_eq_append] at clear ⊢
    have clearLast := clear last (by simp)
    have clearInit : ∀ line ∈ init, newline ∉ line := fun l hl => clear l (by simp [hl])
    rw [← List.cons_append]
    by_cases hollow : torn = []
    · subst hollow
      rw [List.append_nil, List.append_nil,
        classifyTail_clean _ _ _ _ (by simpa [clearPart] using clearInit) clearLast,
        classifyTail_clean _ _ _ _ clearInit clearLast, lineBefore_whole]
      congr 2
      rcases List.eq_nil_or_concat init with rfl | ⟨init, p, rfl⟩
      · -- one line: the look-back sees the header instead of nothing
        have seen : lineBefore s auditHeaderV2.length [auditHeaderText.drop s] =
            some (auditHeaderText.drop s) := by simp [lineBefore, reach]
        rw [seen]
        exact cleanVerdict_unread last part (by decide)
      · rw [List.concat_eq_append, ← List.cons_append, lineBefore_concat, if_pos (by simp),
          List.getLastD_concat]
    · -- a torn rest: both reads look back to the same last line
      rw [classifyTail_torn _ _ _ _ _ clearLast clearTorn hollow,
        classifyTail_torn _ _ _ _ _ clearLast clearTorn hollow]
      simp only [reach, le_refl, or_true, if_true]
      unfold tornVerdict
      split <;> rfl

theorem regionProbe_clean (clear : ∀ line ∈ init ++ [last], newline ∉ line) (dataStart : Nat) :
    regionProbe (init ++ [last]) [] dataStart =
      (cleanVerdict last (some (init.getLastD []))).1 := by
  rw [regionProbe, List.append_nil, classifyTail_clean _ _ _ _
    (fun l hl => clear l (by simp [hl])) (clear last (by simp)), lineBefore_whole]

theorem regionProbe_torn (clearLast : newline ∉ last) (clearTorn : newline ∉ torn)
    (nonempty : torn ≠ []) (dataStart : Nat) :
    regionProbe (init ++ [last]) torn dataStart =
      (tornVerdict (dataStart + (Lines.terminated newline (init ++ [last])).length)
        (some last)).1 := by
  rw [regionProbe, classifyTail_torn _ _ _ _ _ clearLast clearTorn nonempty]
  simp

/-- What a window that starts inside some line recovers is what the region holds, unless
it is the last line that was cut. -/
theorem window_recovers (after : dataStart < scanStart) (before : List Bytes) (line frag : Bytes)
    (later : List Bytes) (torn : Bytes) (clear : ∀ l ∈ before ++ line :: later, newline ∉ l)
    (clearFrag : newline ∉ frag) (clearTorn : newline ∉ torn)
    (whole : later = [] → torn = [] → frag = line)
    (recovered : (classifyTail (Lines.terminated newline (frag :: later) ++ torn)
      scanStart dataStart).2 = true) :
    (classifyTail (Lines.terminated newline (frag :: later) ++ torn)
      scanStart dataStart).1.resumePoint =
        (regionProbe (before ++ line :: later) torn dataStart).resumePoint := by
  -- the last line in sight is the cut one, or a whole one behind it
  rcases List.eq_nil_or_concat later with rfl | ⟨later, last, rfl⟩
  · by_cases hollow : torn = []
    · subst hollow
      -- the only line in sight is whole, so the cut is at its start
      obtain rfl := whole rfl rfl
      have window := classifyTail_clean scanStart dataStart [] frag (by simp) clearFrag
      rw [List.nil_append] at window
      rw [List.append_nil, window] at recovered ⊢
      have seen : ∀ p, lineBefore scanStart dataStart [] = some p →
          some (before.getLastD []) = some p := by simp [lineBefore, after]
      rw [cleanVerdict_of_recovered recovered seen,
        regionProbe_clean before frag (by simpa using clear)]
    · have window := classifyTail_torn scanStart dataStart [] frag torn clearFrag clearTorn hollow
      rw [List.nil_append] at window
      rw [window] at recovered
      -- the look-back does not trust a line that starts at the cut
      simp [tornVerdict, Nat.not_le.mpr after] at recovered
  · rw [List.concat_eq_append] at clear recovered ⊢
    have clearLast : newline ∉ last := clear last (by simp)
    have clearLater : ∀ l ∈ frag :: later, newline ∉ l := by
      simp only [List.forall_mem_cons]
      exact ⟨clearFrag, fun l hl => clear l (by simp [hl])⟩
    rw [← List.cons_append] at recovered ⊢
    rw [← List.cons_append, ← List.append_assoc] at clear ⊢
    by_cases hollow : torn = []
    · subst hollow
      rw [List.append_nil, classifyTail_clean _ _ _ _ clearLater clearLast] at recovered ⊢
      -- the last line is whole; the one before it may be the cut one
      rw [regionProbe_clean _ _ clear, ← lineBefore_whole dataStart,
        ← cleanVerdict_of_recovered recovered (lineBefore_window after before line frag later)]
    · rw [classifyTail_torn _ _ _ _ _ clearLast clearTorn hollow] at recovered ⊢
      rw [regionProbe_torn _ _ _ clearLast clearTorn hollow]
      exact tornVerdict_resumePoint _ _ recovered (by simp)

theorem auditFile_drop_header (k : Nat) :
    (auditFile lines torn).drop (auditHeaderV2.length + k) =
      (Lines.terminated newline lines ++ torn).drop k := by
  rw [auditFile, ← List.drop_drop, List.drop_left]

theorem windowRecord_of_torn {torn : Bytes} (nonempty : torn ≠ []) :
    windowRecord lines torn = none := by
  unfold windowRecord
  split
  next => exact absurd rfl nonempty
  next => rfl

theorem windowRecord_concat :
    windowRecord (init ++ [last]) [] =
      if tailScanBytes ≤ last.length then
        parseRecord (last.drop (last.length - (tailScanBytes - 1)))
      else none := by
  simp [windowRecord]

theorem windowRecord_of_short
    (short : ∀ last, lines.getLast? = some last → torn = [] → last.length < tailScanBytes) :
    windowRecord lines torn = none := by
  by_cases hollow : torn = []
  · subst hollow
    rcases List.eq_nil_or_concat lines with rfl | ⟨init, last, rfl⟩
    · rfl
    · rw [List.concat_eq_append] at short ⊢
      rw [windowRecord_concat, if_neg (Nat.not_le.mpr (short last (by simp) rfl))]
  · exact windowRecord_of_torn lines hollow

/-- A window in which the last line is whole shows it as it is. -/
theorem windowRecord_of_seen {before : List Bytes} {line : Bytes} {later : List Bytes}
    {torn : Bytes} {j : Nat}
    (room : (Lines.terminated newline (line.drop j :: later) ++ torn).length = tailScanBytes)
    (whole : later = [] → torn = [] → j = 0) :
    windowRecord (before ++ line :: later) torn = none := by
  simp only [Lines.terminated_cons, List.length_append, List.length_cons,
    List.length_drop] at room
  refine windowRecord_of_short _ _ fun last hlast hollow => ?_
  rcases List.eq_nil_or_concat later with rfl | ⟨later, q, rfl⟩
  · -- the line under the cut is the last one, so the cut is at its start
    have same : line = last := by simpa using hlast
    have start := whole rfl hollow
    simp only [Lines.terminated_nil, List.length_nil] at room
    rw [← same]
    omega
  · have same : q = last := by
      rw [List.concat_eq_append, ← List.cons_append, ← List.append_assoc,
        List.getLast?_concat] at hlast
      exact Option.some.inj hlast
    simp only [List.concat_eq_append, Lines.terminated_concat, List.length_append,
      List.length_singleton] at room
    rw [← same]
    omega

/-- A window that shows only the end of the last line resumes at what this end reads as, if
it reads as anything. -/
theorem window_of_cut_line (after : dataStart < scanStart) (init : List Bytes) {line : Bytes}
    {j : Nat} (clearFrag : newline ∉ line.drop j)
    (room : (Lines.terminated newline [line.drop j]).length = tailScanBytes) (started : j ≠ 0)
    (wide : TailProbe) :
    (if (classifyTail (Lines.terminated newline [line.drop j]) scanStart dataStart).2 = true then
        (classifyTail (Lines.terminated newline [line.drop j]) scanStart dataStart).1
      else wide).resumePoint =
      (windowRecord (init ++ [line]) []).getD wide.resumePoint := by
  simp only [Lines.terminated_cons, Lines.terminated_nil, List.length_append, List.length_cons,
    List.length_nil, List.length_drop] at room
  have scan : tailScanBytes = 4096 := rfl
  have long : tailScanBytes ≤ line.length := by omega
  have place : j = line.length - (tailScanBytes - 1) := by omega
  have window := classifyTail_clean scanStart dataStart [] (line.drop j) (by simp) clearFrag
  rw [List.nil_append] at window
  rw [window, windowRecord_concat, if_pos long, ← place]
  cases h : parseRecord (line.drop j) with
  | some record => simp [cleanVerdict, h, TailProbe.resumePoint]
  | none =>
    -- no look-back either: there is no line before the fragment in sight
    have unread : ¬ (cleanVerdict (line.drop j) (lineBefore scanStart dataStart [])).2 = true := by
      simp [cleanVerdict, h, lineBefore, Nat.not_le.mpr after]
    rw [if_neg unread, Option.getD_none]

/-- The first read of the probe, over a full window behind the start of the data region. -/
theorem window_resumePoint {k : Nat} (clear : ∀ line ∈ lines, newline ∉ line)
    (clearTorn : newline ∉ torn) (positive : 0 < k)
    (size : ((Lines.terminated newline lines ++ torn).drop k).length = tailScanBytes)
    (wide : TailProbe) (region : wide = regionProbe lines torn auditHeaderV2.length) :
    (if (classifyTail ((Lines.terminated newline lines ++ torn).drop k) (auditHeaderV2.length + k)
          auditHeaderV2.length).2 = true then
        (classifyTail ((Lines.terminated newline lines ++ torn).drop k) (auditHeaderV2.length + k)
          auditHeaderV2.length).1
      else wide).resumePoint = (windowRecord lines torn).getD wide.resumePoint := by
  have after : auditHeaderV2.length < auditHeaderV2.length + k := by omega
  rcases Lines.drop_terminated newline lines torn k with
    ⟨before, line, later, j, rfl, bound, place, buf⟩ | ⟨past, buf⟩
  · rw [buf] at size ⊢
    have clearFrag : newline ∉ line.drop j :=
      fun member => clear line (by simp) (List.mem_of_mem_drop member)
    by_cases cut : later = [] ∧ torn = [] ∧ j ≠ 0
    · -- only the last line is in sight, and not all of it
      obtain ⟨rfl, rfl, started⟩ := cut
      rw [List.append_nil] at size ⊢
      exact window_of_cut_line after before clearFrag size started wide
    · have whole : later = [] → torn = [] → j = 0 := by
        intro hl ht
        by_contra started
        exact cut ⟨hl, ht, started⟩
      rw [windowRecord_of_seen size whole, Option.getD_none]
      split
      next recovered =>
        rw [region]
        refine window_recovers after before line _ later torn clear clearFrag clearTorn ?_ recovered
        intro hl ht
        rw [whole hl ht, List.drop_zero]
      next => rfl
  · -- the window starts in the torn fragment and sees no newline at all
    have clearRest : newline ∉ torn.drop (k - (Lines.terminated newline lines).length) :=
      fun member => clearTorn (List.mem_of_mem_drop member)
    have nonempty : torn ≠ [] := by
      rintro rfl
      rw [buf, List.drop_nil] at size
      exact absurd size (by decide)
    rw [buf, classifyTail_unterminated _ _ _ clearRest, windowRecord_of_torn lines nonempty]
    simp [tornVerdict]

/-- The probe of a native v2 file, in terms of its lines. -/
theorem probeNative_resumePoint (clear : ∀ line ∈ lines, newline ∉ line)
    (clearTorn : newline ∉ torn) :
    (probeNative (auditFile lines torn)).resumePoint =
      (windowRecord lines torn).getD
        (regionProbe lines torn auditHeaderV2.length).resumePoint := by
  generalize hs : (auditFile lines torn).length - min tailScanBytes (auditFile lines torn).length =
    scanStart
  have total : (auditFile lines torn).length =
      32 + ((Lines.terminated newline lines).length + torn.length) := by
    simp [auditFile, auditHeaderV2_length]
  have rescan : regionProbe lines torn auditHeaderV2.length =
      (classifyTail ((auditFile lines torn).drop auditHeaderV2.length) auditHeaderV2.length
        auditHeaderV2.length).1 := by
    rw [regionProbe]
    rw [← List.drop_zero (l := Lines.terminated newline lines ++ torn), ← auditFile_drop_header,
      Nat.add_zero]
  simp only [probeNative, hs, ← rescan]
  have header := auditHeaderV2_length
  have scan : tailScanBytes = 4096 := rfl
  by_cases reach : scanStart ≤ auditHeaderV2.length
  · -- the last line fits into the window, so there is nothing to misread
    have short : windowRecord lines torn = none := by
      refine windowRecord_of_short lines torn fun last hlast hollow => ?_
      obtain ⟨init, rfl⟩ := List.getLast?_eq_some_iff.mp hlast
      simp only [hollow, Lines.terminated_concat, List.length_append, List.length_nil,
        List.length_singleton] at total hs
      omega
    simp only [reach, or_true, if_true, short, Option.getD_none]
    -- at 32 the window is the data region itself, before that it starts in the header
    by_cases inside : scanStart ≤ 31
    · refine classifyTail_from_header scanStart inside lines torn clear clearTorn ?_
      rintro rfl rfl
      simp at total
      omega
    · have edge : scanStart = auditHeaderV2.length := by omega
      rw [edge, ← rescan]
  · -- the window is full and starts behind the header
    obtain ⟨k, rfl⟩ : ∃ k, scanStart = auditHeaderV2.length + k :=
      ⟨scanStart - auditHeaderV2.length, by omega⟩
    have size : ((Lines.terminated newline lines ++ torn).drop k).length = tailScanBytes := by
      rw [List.length_drop, List.length_append]
      omega
    -- from here on offsets are relative to the data region
    rw [auditFile_drop_header]
    simp only [reach, or_false]
    exact window_resumePoint lines torn clear clearTorn (by omega) size _ rfl

end Varta.Audit
