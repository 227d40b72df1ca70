import Mathlib.Data.List.Chain

/-!
# Chained generations

An append-only log kept in several files, oldest first. Consecutive records are linked,
across file boundaries too; each file starts with an opening record that is anchored at
the last record of the file before it.
-/
namespace Generations

section

variable {ρ : Type} (link anchor : ρ → ρ → Prop) (opens : ρ → Prop)

structure Chained (gens : List (List ρ)) : Prop where
  links : gens.flatten.IsChain link
  openers : ∀ g ∈ gens, ∀ r ∈ g.head?, opens r
  anchors : gens.IsChain fun older newer => ∀ r ∈ newer.head?, ∃ a ∈ older.getLast?, anchor a r

variable {link anchor opens}

variable {gens : List (List ρ)} {g : List ρ}

/-- Dropping the oldest files. -/
theorem Chained.suffix {newer : List (List ρ)} (chained : Chained link anchor opens gens)
    (suffix : newer <:+ gens) :
    Chained link anchor opens newer where
  links := by
    obtain ⟨dropped, rfl⟩ := suffix
    have links := chained.links
    rw [List.flatten_append] at links
    exact links.right_of_append
  openers g hg := chained.openers g (suffix.subset hg)
  anchors := chained.anchors.suffix suffix

/-- Two last files with the same first record have the same boundary before them. -/
theorem anchors_congr {g' : List ρ}
    (anchors : (gens ++ [g]).IsChain fun older newer => ∀ r ∈ newer.head?, ∃ a ∈ older.getLast?,
      anchor a r) (head : ∀ r, r ∈ g'.head? → r ∈ g.head?) :
    (gens ++ [g']).IsChain
      fun older newer => ∀ r ∈ newer.head?, ∃ a ∈ older.getLast?, anchor a r := by
  rw [List.isChain_append] at anchors ⊢
  refine ⟨anchors.1, List.isChain_singleton _, fun older hold newer hnew r hr => ?_⟩
  simp only [List.head?_cons, Option.mem_some_iff] at hnew
  subst hnew
  exact anchors.2.2 older hold g (by simp) r (head r hr)

/-- A record is written to the newest file. -/
theorem Chained.append {r : ρ} (chained : Chained link anchor opens (gens ++ [g]))
    (started : g ≠ []) (linked : ∀ a ∈ g.getLast?, link a r) :
    Chained link anchor opens (gens ++ [g ++ [r]]) := by
  have head : ∀ x, x ∈ (g ++ [r]).head? → x ∈ g.head? := by
    intro x hx
    rwa [List.head?_append_of_ne_nil _ started] at hx
  refine ⟨?_, fun h hh x hx => ?_, anchors_congr chained.anchors head⟩
  · have links := chained.links
    simp only [List.flatten_append, List.flatten_cons, List.flatten_nil, List.append_nil] at links ⊢
    -- one more link at the end
    rw [← List.append_assoc, List.isChain_append]
    refine ⟨links, List.isChain_singleton _, fun a ha b hb => ?_⟩
    rw [List.getLast?_append_of_ne_nil _ started] at ha
    simp only [List.head?_cons, Option.mem_some_iff] at hb
    exact hb ▸ linked a ha
  · rcases List.mem_append.mp hh with old | new
    · exact chained.openers h (by simp [old]) x hx
    · rw [List.mem_singleton] at new
      subst new
      exact chained.openers g (by simp) x (head x hx)

/-- A new file is opened. -/
theorem Chained.open {a r : ρ} (chained : Chained link anchor opens (gens ++ [g]))
    (last : a ∈ g.getLast?) (linked : link a r) (anchored : anchor a r) (opener : opens r) :
    Chained link anchor opens (gens ++ [g] ++ [[r]]) := by
  refine ⟨?_, fun h hh x hx => ?_, ?_⟩
  · rw [List.flatten_append, List.isChain_append]
    refine ⟨chained.links, by simp, fun b hb c hc => ?_⟩
    have nonempty : g ≠ [] := by rintro rfl; simp at last
    -- the last record of all is the last one of the newest file
    have newest : (gens ++ [g]).flatten.getLast? = g.getLast? := by
      simp [List.getLast?_append_of_ne_nil _ nonempty]
    rw [newest] at hb
    obtain rfl := Option.mem_unique last hb
    simp only [List.flatten_cons, List.flatten_nil, List.append_nil, List.head?_cons,
      Option.mem_some_iff] at hc
    exact hc ▸ linked
  · rcases List.mem_append.mp hh with old | new
    · exact chained.openers h old x hx
    · rw [List.mem_singleton] at new
      subst new
      simp only [List.head?_cons, Option.mem_some_iff] at hx
      exact hx ▸ opener
  · rw [List.isChain_append]
    refine ⟨chained.anchors, List.isChain_singleton _, fun older hold newer hnew x hx => ?_⟩
    simp only [List.head?_cons, Option.mem_some_iff] at hnew
    subst hnew
    simp only [List.head?_cons, Option.mem_some_iff] at hx
    simp only [List.getLast?_append, List.getLast?_singleton, Option.some_or,
      Option.mem_some_iff] at hold
    subst hold
    exact ⟨a, last, hx ▸ anchored⟩

/-- What has reached the newest file so far is chained as well. -/
theorem Chained.written {rest : List ρ} (chained : Chained link anchor opens (gens ++ [g ++ rest])) :
    Chained link anchor opens (gens ++ [g]) := by
  have head : ∀ x, x ∈ g.head? → x ∈ (g ++ rest).head? := by
    intro x hx
    cases g with
    | nil => simp at hx
    | cons y ys => simpa using hx
  refine ⟨?_, fun h hh x hx => ?_, anchors_congr chained.anchors head⟩
  · have links := chained.links
    simp only [List.flatten_append, List.flatten_cons, List.flatten_nil, List.append_nil] at links ⊢
    rw [← List.append_assoc] at links
    -- what is still to come is cut off at the end
    exact links.left_of_append
  · rcases List.mem_append.mp hh with old | new
    · exact chained.openers h (by simp [old]) x hx
    · rw [List.mem_singleton] at new
      subst new
      exact chained.openers (h ++ rest) (by simp) x (head x hx)

end

end Generations
