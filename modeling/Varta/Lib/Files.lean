import Mathlib.Data.List.Basic
import Mathlib.Logic.Function.Basic

/-!
# Files under names

A flat directory over inodes. A name is an entry that points to an inode; what is written to an
inode stays there, whether it has a name or not. New inodes are numbered from `next` on.
-/

structure Files (κ α : Type) where
  entry : κ → Option Nat
  data : Nat → List α
  next : Nat

namespace Files

section

variable {κ α β : Type}

/-- The same directory with other contents. -/
def map (f : α → β) (fs : Files κ α) : Files κ β :=
  ⟨fs.entry, fun i => (fs.data i).map f, fs.next⟩

def append (fs : Files κ α) (inode : Nat) (xs : List α) : Files κ α :=
  { fs with data := Function.update fs.data inode (fs.data inode ++ xs) }

@[simp] theorem append_data (fs : Files κ α) (inode i : Nat) (xs : List α) :
    (fs.append inode xs).data i = if i = inode then fs.data inode ++ xs else fs.data i :=
  Function.update_apply ..

variable [DecidableEq κ]

def unlink (fs : Files κ α) (k : κ) : Files κ α :=
  { fs with entry := Function.update fs.entry k none }

/-- `inode` moves from one name to another, which loses what it named. -/
def rename (fs : Files κ α) (source target : κ) (inode : Nat) : Files κ α :=
  { fs with entry := Function.update (Function.update fs.entry target (some inode)) source none }

/-- A new, empty file; its inode is the old `next`. -/
def create (fs : Files κ α) (k : κ) : Files κ α where
  entry := Function.update fs.entry k (some fs.next)
  data := Function.update fs.data fs.next []
  next := fs.next + 1

@[simp] theorem unlink_entry (fs : Files κ α) (k j : κ) :
    (fs.unlink k).entry j = if j = k then none else fs.entry j :=
  Function.update_apply ..

@[simp] theorem rename_entry (fs : Files κ α) (source target j : κ) (inode : Nat) :
    (fs.rename source target inode).entry j =
      if j = source then none else if j = target then some inode else fs.entry j := by
  simp only [rename, Function.update_apply]

@[simp] theorem create_entry (fs : Files κ α) (k j : κ) :
    (fs.create k).entry j = if j = k then some fs.next else fs.entry j :=
  Function.update_apply ..

@[simp] theorem create_data (fs : Files κ α) (k : κ) (i : Nat) :
    (fs.create k).data i = if i = fs.next then [] else fs.data i :=
  Function.update_apply ..

end

/-! ### Names of inodes that exist -/

section

variable {κ α β : Type} {fs : Files κ α}

/-- No name is of an inode that is yet to be made. -/
def Wf (fs : Files κ α) : Prop := ∀ k i, fs.entry k = some i → i < fs.next

theorem Wf.map (wf : fs.Wf) (f : α → β) : (fs.map f).Wf := wf

theorem Wf.append (wf : fs.Wf) (inode : Nat) (xs : List α) : (fs.append inode xs).Wf := wf

variable [DecidableEq κ]

theorem Wf.unlink (wf : fs.Wf) (k : κ) : (fs.unlink k).Wf := by
  intro j i named
  rw [unlink_entry] at named
  split at named
  · cases named
  · exact wf j i named

theorem Wf.rename (wf : fs.Wf) {source : κ} (target : κ) {inode : Nat}
    (present : fs.entry source = some inode) : (fs.rename source target inode).Wf := by
  intro j i named
  rw [rename_entry] at named
  split at named
  · cases named
  · split at named
    · exact wf source i (present.trans named)
    · exact wf j i named

theorem Wf.create (wf : fs.Wf) (k : κ) : (fs.create k).Wf := by
  intro j i named
  rw [create_entry] at named
  split at named
  · cases named
    exact Nat.lt_succ_self _
  · exact Nat.lt_succ_of_lt (wf j i named)

end

/-! ### What stays in an inode -/

section

variable {κ α : Type}

/-- Every inode still has what it had. -/
structure Grows (fs fs' : Files κ α) : Prop where
  next : fs.next ≤ fs'.next
  data : ∀ i < fs.next, ∀ x ∈ fs.data i, x ∈ fs'.data i

variable (fs : Files κ α)

theorem Grows.refl : Grows fs fs := ⟨Nat.le_refl _, fun _ _ _ here => here⟩

theorem Grows.trans {fs fs' fs'' : Files κ α} (first : Grows fs fs') (second : Grows fs' fs'') :
    Grows fs fs'' :=
  ⟨Nat.le_trans first.next second.next, fun i old x here =>
    second.data i (Nat.lt_of_lt_of_le old first.next) x (first.data i old x here)⟩

theorem grows_append (inode : Nat) (xs : List α) : Grows fs (fs.append inode xs) := by
  refine ⟨Nat.le_refl _, fun i _ x here => ?_⟩
  rw [append_data]
  split
  next same => exact List.mem_append_left xs (same ▸ here)
  next => exact here

/-- What is appended is there. -/
theorem mem_append (inode : Nat) {xs : List α} {x : α} (given : x ∈ xs) :
    x ∈ (fs.append inode xs).data inode := by
  rw [append_data, if_pos rfl]
  exact List.mem_append_right _ given

/-- Every inode still has what it had, and every name its inode. -/
structure Extends (fs fs' : Files κ α) : Prop extends Grows fs fs' where
  names : ∀ k i, fs.entry k = some i → fs'.entry k = some i

theorem Extends.refl : Extends fs fs := ⟨Grows.refl fs, fun _ _ named => named⟩

variable [DecidableEq κ]

theorem grows_unlink (fs : Files κ α) (k : κ) : Grows fs (fs.unlink k) :=
  ⟨Nat.le_refl _, fun _ _ _ here => here⟩

theorem grows_rename (fs : Files κ α) (source target : κ) (inode : Nat) :
    Grows fs (fs.rename source target inode) :=
  ⟨Nat.le_refl _, fun _ _ _ here => here⟩

theorem grows_create (fs : Files κ α) (k : κ) : Grows fs (fs.create k) := by
  refine ⟨Nat.le_succ _, fun i old x here => ?_⟩
  rw [create_data, if_neg (Nat.ne_of_lt old)]
  exact here

theorem extends_create {fs : Files κ α} {k : κ} (free : fs.entry k = none) :
    Extends fs (fs.create k) := by
  refine ⟨grows_create fs k, fun j i named => ?_⟩
  rw [create_entry, if_neg]
  · exact named
  · rintro rfl
    rw [free] at named
    cases named

/-- A file that was made under a free name and taken away again. -/
theorem extends_create_unlink {fs : Files κ α} {k : κ} (free : fs.entry k = none) :
    Extends fs ((fs.create k).unlink k) := by
  refine ⟨(grows_create fs k).trans (grows_unlink _ k), fun j i named => ?_⟩
  have other : j ≠ k := by
    rintro rfl
    rw [free] at named
    cases named
  rw [unlink_entry, if_neg other, create_entry, if_neg other]
  exact named

end

end Files
