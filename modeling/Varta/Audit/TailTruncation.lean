import Varta.Audit.TailWindow

/-!
# Torn-tail truncation

`create_unchecked` calls `set_len` with the probe's `truncate_to`. The bytes cut off are
one final fragment without a newline, for every content but one: a file holding the
header text and nothing else is made longer.
-/
namespace Varta.Audit

/-- `set_len(n)` drops at most one unterminated fragment, and every v2 header survives. -/
structure TruncationSafe (content : Bytes) (n : Nat) : Prop where
  within : n ≤ content.length
  drops_fragment : newline ∉ content.drop n
  keeps_head : auditHeaderText <+: content → auditHeaderText <+: content.take n
  keeps_headers : ∀ p, auditHeaderV2 <+: content.drop p → auditHeaderV2 <+: (content.take n).drop p

variable {content : Bytes} {n : Nat}

theorem prefix_take_of_length {text : Bytes} (pre : text <+: content) (room : text.length ≤ n) :
    text <+: content.take n := by
  rw [List.prefix_take_iff]
  exact ⟨pre, room⟩

theorem TruncationSafe.of_fragment (within : n ≤ content.length)
    (fragment : newline ∉ content.drop n)
    (head : auditHeaderText <+: content → auditHeaderText.length ≤ n) :
    TruncationSafe content n where
  within := within
  drops_fragment := fragment
  keeps_head pre := prefix_take_of_length pre (head pre)
  keeps_headers p occurs := by
    -- the header's own newline cannot lie in the part cut off
    have inside : p + auditHeaderV2.length ≤ n := by
      by_contra beyond
      obtain ⟨rest, shape⟩ := occurs
      have split : content.drop (p + (auditHeaderV2.length - 1)) = newline :: rest := by
        rw [← List.drop_drop, ← shape]
        rfl
      have reach : n ≤ p + (auditHeaderV2.length - 1) := by omega
      have member : newline ∈ content.drop (p + (auditHeaderV2.length - 1)) := by simp [split]
      obtain ⟨k, hk⟩ := Nat.exists_eq_add_of_le reach
      rw [hk, ← List.drop_drop] at member
      exact fragment (List.mem_of_mem_drop member)
    rw [List.drop_take]
    exact prefix_take_of_length occurs (by omega)

theorem cleanVerdict_truncateTo (last : Bytes) (lookBack : Option Bytes) :
    (cleanVerdict last lookBack).1.truncateTo = none := by
  unfold cleanVerdict
  repeat' split
  all_goals rfl

theorem tornVerdict_truncateTo (t : Nat) (lookBack : Option Bytes) :
    (tornVerdict t lookBack).1.truncateTo = some t := by
  unfold tornVerdict
  split <;> rfl

/-- Where a truncation asked for by `classify_tail` falls in the buffer it read. -/
theorem classifyTail_truncateTo (buf : Bytes) (scanStart dataStart n : Nat)
    (asked : (classifyTail buf scanStart dataStart).1.truncateTo = some n) :
    (∃ front back, buf = front ++ newline :: back ∧ newline ∉ back ∧
        n = scanStart + front.length + 1) ∨
      (newline ∉ buf ∧ n = dataStart) := by
  unfold classifyTail at asked
  split at asked
  · -- a clean tail asks for no truncation
    rw [cleanVerdict_truncateTo] at asked
    cases asked
  · rcases Lines.last_line_cases newline buf with clear | ⟨front, back, rfl, clear⟩
    · -- no newline in the buffer
      rw [Lines.rposition_sep_none newline clear] at asked
      rw [tornVerdict_truncateTo] at asked
      exact Or.inr ⟨clear, (Option.some.inj asked).symm⟩
    · rw [Lines.rposition_sep newline front back clear] at asked
      rw [tornVerdict_truncateTo] at asked
      exact Or.inl ⟨front, back, rfl, clear, (Option.some.inj asked).symm⟩

/-- The truncation asked for after a read from `scanStart`, on the file itself. -/
theorem truncationSafe_of_classifyTail {scanStart dataStart : Nat}
    (within : scanStart ≤ content.length) (room : dataStart ≤ content.length)
    (reach : newline ∉ content.drop scanStart → newline ∉ content.drop dataStart)
    (header : auditHeaderText <+: content → auditHeaderText.length ≤ dataStart)
    (asked : (classifyTail (content.drop scanStart) scanStart dataStart).1.truncateTo = some n) :
    TruncationSafe content n := by
  rcases classifyTail_truncateTo _ _ _ _ asked with ⟨front, back, shape, clear, rfl⟩ | ⟨clear, rfl⟩
  · have size : content.length - scanStart = front.length + (back.length + 1) := by
      rw [← List.length_drop, shape]
      simp
    have rest : content.drop (scanStart + front.length + 1) = back := by
      rw [Nat.add_assoc, ← List.drop_drop, shape]
      simp
    refine TruncationSafe.of_fragment (by omega) (by rw [rest]; exact clear) fun pre => ?_
    -- the newline found lies past the header text, which has none
    by_contra short
    have member : newline ∈ auditHeaderText := by
      obtain ⟨after, rfl⟩ := pre
      have place : (auditHeaderText ++ after).drop (scanStart + front.length) =
          newline :: back := by
        rw [← List.drop_drop, shape]
        simp
      rw [List.drop_append_of_le_length (by omega)] at place
      have nonempty : auditHeaderText.drop (scanStart + front.length) ≠ [] := by
        simp
        omega
      obtain ⟨b, bs, hb⟩ := List.exists_cons_of_ne_nil nonempty
      rw [hb, List.cons_append] at place
      have first : b = newline := (List.cons.inj place).1
      have found : b ∈ auditHeaderText.drop (scanStart + front.length) := by simp [hb]
      exact first ▸ List.mem_of_mem_drop found
    exact newline_not_mem_auditHeaderText member
  · exact TruncationSafe.of_fragment room (reach clear) header

theorem auditHeaderText_length : auditHeaderText.length = 31 := by decide

/-- The head check sees the first 64 bytes only when they are text. -/
theorem headIsV2_iff (content : Bytes) :
    auditHeaderText.isPrefixOf (headStr content) = true ↔
      Utf8.valid (content.take 64) = true ∧ auditHeaderText <+: content := by
  rw [List.isPrefixOf_iff_prefix, headStr]
  by_cases text : Utf8.valid (content.take 64) = true
  · simp only [text, if_true, true_and, List.prefix_take_iff]
    exact and_iff_left (by decide)
  · rw [if_neg text]
    refine iff_of_false (fun empty => ?_) fun both => text both.1
    exact absurd (List.prefix_nil.mp empty) (by decide)

theorem probeNative_truncationSafe (head : auditHeaderText <+: content)
    (more : content ≠ auditHeaderText) (asked : (probeNative content).truncateTo = some n) :
    TruncationSafe content n := by
  have room : auditHeaderV2.length ≤ content.length := by
    obtain ⟨rest, rfl⟩ := head
    -- one more byte makes room for the newline, whatever that byte is
    have nonempty : rest ≠ [] := by rintro rfl; exact more (by simp)
    have := List.length_pos_of_ne_nil nonempty
    rw [auditHeaderV2_length, List.length_append, auditHeaderText_length]
    omega
  have header : auditHeaderText <+: content → auditHeaderText.length ≤ auditHeaderV2.length :=
    fun _ => by decide
  simp only [probeNative] at asked
  generalize hs : content.length - min tailScanBytes content.length = scanStart at asked
  split at asked
  next final =>
    by_cases reach : scanStart ≤ auditHeaderV2.length
    · refine truncationSafe_of_classifyTail (by omega) room (fun clear member => clear ?_) header
        asked
      obtain ⟨k, hk⟩ := Nat.exists_eq_add_of_le reach
      rw [hk, ← List.drop_drop] at member
      exact List.mem_of_mem_drop member
    · -- a recovered record leaves a newline in the window
      rcases classifyTail_truncateTo _ _ _ _ asked with ⟨front, back, shape, _, _⟩ | ⟨clear, _⟩
      · refine truncationSafe_of_classifyTail (by omega) room (fun clear => ?_) header asked
        exact absurd (by simp [shape]) clear
      · rw [classifyTail_unterminated _ _ _ clear] at final
        simp [tornVerdict, reach] at final
  -- the second read starts at the data region
  next => exact truncationSafe_of_classifyTail room room id header asked

theorem lastV2HeaderEnd_le {dataStart : Nat} (found : lastV2HeaderEnd content = some dataStart) :
    auditHeaderV2.length ≤ dataStart ∧ dataStart ≤ content.length := by
  obtain ⟨i, hi, rfl⟩ := Option.map_eq_some_iff.mp found
  obtain ⟨here, _⟩ := (Lines.lastOccurrence_eq_some_iff _ (by decide) _ _).mp hi
  have fits := here.length_le
  rw [List.length_drop, auditHeaderV2_length] at fits
  rw [auditHeaderV2_length]
  omega

theorem probeTailFile_truncationSafe (more : content ≠ auditHeaderText)
    (asked : (probeTailFile content).truncateTo = some n) : TruncationSafe content n := by
  unfold probeTailFile at asked
  split at asked
  · cases asked
  · dsimp only at asked
    split at asked
    next head =>
      exact probeNative_truncationSafe ((headIsV2_iff content).mp head).2 more asked
    next =>
      split at asked
      -- no header: nothing is cut, a new header is appended
      next => cases asked
      next dataStart found =>
        obtain ⟨low, high⟩ := lastV2HeaderEnd_le found
        exact truncationSafe_of_classifyTail high high id
          (fun _ => le_trans (by decide) low) asked

/-- Truncation is safe for every content except the bare header text. -/
theorem probeTailFile_truncation_iff (content : Bytes) :
    (∀ n, (probeTailFile content).truncateTo = some n → TruncationSafe content n) ↔
      content ≠ auditHeaderText := by
  constructor
  · rintro safe rfl
    -- `set_len(32)` on a file of 31 bytes
    have grown := (safe 32 (by decide)).within
    exact absurd grown (by decide)
  · intro more n asked
    exact probeTailFile_truncationSafe more asked

/-- A crash that leaves the header without its newline: 31 bytes, truncated to 32. -/
theorem probeTailFile_grows_bare_header :
    (probeTailFile auditHeaderText).truncateTo = some 32 ∧ auditHeaderText.length = 31 ∧
      ¬ TruncationSafe auditHeaderText 32 :=
  ⟨by decide, by decide, fun safe => absurd safe.within (by decide)⟩

end Varta.Audit
