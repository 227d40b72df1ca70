import Mathlib.Data.List.Nodup
import Mathlib.Data.Prod.Lex
import Varta.Lib.Steps

/-!
# Nonces that are numbered within sessions

A sender reads a salt for each session. A session has one prefix after the other, and a prefix is
used with one counter value after the other. `Opens` and `Sends` say all that a call may do to the
place of the sender. Along every run of such calls the accepted frames are in lexicographic order,
so that no nonce is used twice if the salts are fresh and the prefixes differ.
-/
namespace SessionNonces

variable {Salt Iv : Type}

/-- The session, prefix and counter value that a frame is sealed with. -/
structure Place (Salt Iv : Type) where
  salt : Salt
  index : Nat
  iv : Iv
  counter : Nat
  deriving DecidableEq, Repr

namespace Place

def nonce (p : Place Salt Iv) : Iv × Nat := (p.iv, p.counter)

/-- Session number, prefix index and counter, as they are compared. -/
def stamp (number : Salt → Nat) (p : Place Salt Iv) : Nat ×ₗ Nat ×ₗ Nat :=
  toLex (number p.salt, toLex (p.index, p.counter))

/-- The next value of the counter. -/
def next (p : Place Salt Iv) : Place Salt Iv := { p with counter := p.counter + 1 }

variable (kdf : Salt → Nat → Iv)

/-- The first place of a session. -/
def first (salt : Salt) : Place Salt Iv := ⟨salt, 0, kdf salt 0, 0⟩

/-- The first place of the next prefix. -/
def rotated (p : Place Salt Iv) : Place Salt Iv :=
  ⟨p.salt, p.index + 1, kdf p.salt (p.index + 1), 0⟩

/-- Both the counter and the prefixes are used up. -/
def Exhausted (limit : Nat) (p : Place Salt Iv) : Prop := p.counter = limit ∧ p.index = limit

variable {number : Salt → Nat} {p q : Place Salt Iv}

theorem stamp_lt : p.stamp number < q.stamp number ↔ number p.salt < number q.salt ∨
    number p.salt = number q.salt ∧ (p.index < q.index ∨ p.index = q.index ∧ p.counter < q.counter) := by
  rw [stamp, stamp, Prod.Lex.toLex_lt_toLex, Prod.Lex.toLex_lt_toLex]

theorem stamp_lt_next (number : Salt → Nat) (p : Place Salt Iv) :
    p.stamp number < p.next.stamp number :=
  stamp_lt.mpr (.inr ⟨rfl, .inr ⟨rfl, Nat.lt_succ_self _⟩⟩)

theorem stamp_lt_rotated (number : Salt → Nat) (p : Place Salt Iv) :
    p.stamp number < (p.rotated kdf).stamp number :=
  stamp_lt.mpr (.inr ⟨rfl, .inl (Nat.lt_succ_self _)⟩)

end Place

/-- What a call leaves behind. -/
structure Outcome (σ Salt Iv : Type) where
  succeeded : Bool
  state : σ
  /-- The reads of entropy that were made so far. -/
  reads : Nat
  accepted : Option (Place Salt Iv)

/-- The outcome as far as the places go. -/
def Outcome.view {σ : Type} (place : σ → Place Salt Iv) (o : Outcome σ Salt Iv) :
    Outcome (Place Salt Iv) Salt Iv :=
  { o with state := place o.state }

variable (limit : Nat) (kdf : Salt → Nat → Iv) (drawn : Nat → Option Salt)

/-- The salt was read by one of the reads in between. -/
def DrawnBetween (reads reads' : Nat) (salt : Salt) : Prop :=
  ∃ m, reads ≤ m ∧ m < reads' ∧ drawn m = some salt

/-- A call that opens a session, or leaves everything as it was. -/
inductive Opens (reads : Nat) (p : Place Salt Iv) : Outcome (Place Salt Iv) Salt Iv → Prop where
  | failed {reads' : Nat} (later : reads ≤ reads') : Opens reads p ⟨false, p, reads', none⟩
  | renewed {reads' : Nat} {salt : Salt} (new : DrawnBetween drawn reads reads' salt) :
      Opens reads p ⟨true, .first kdf salt, reads', none⟩

/-- A call that sends a frame. Only an exhausted session is left for another one. -/
inductive Sends (reads : Nat) (p : Place Salt Iv) : Outcome (Place Salt Iv) Salt Iv → Prop where
  | refused {reads' : Nat} (later : reads ≤ reads') : Sends reads p ⟨false, p, reads', none⟩
  | renewed {reads' : Nat} {salt : Salt} (exhausted : p.Exhausted limit)
      (new : DrawnBetween drawn reads reads' salt) :
      Sends reads p ⟨false, .first kdf salt, reads', none⟩
  | counted (room : p.counter < limit) : Sends reads p ⟨true, p.next, reads, some p⟩
  | rotated (spent : p.counter = limit) (room : p.index < limit) :
      Sends reads p ⟨true, (p.rotated kdf).next, reads, some (p.rotated kdf)⟩
  | restarted {reads' : Nat} {salt : Salt} (exhausted : p.Exhausted limit)
      (new : DrawnBetween drawn reads reads' salt) :
      Sends reads p ⟨true, (Place.first kdf salt).next, reads', some (.first kdf salt)⟩

/-- The first part of a send: the place of the sender afterwards, and the one that the frame is to
be sealed with. -/
inductive Reserves (reads : Nat) (p : Place Salt Iv) :
    Place Salt Iv → Nat → Option (Place Salt Iv) → Prop where
  | refused {reads' : Nat} (later : reads ≤ reads') : Reserves reads p p reads' none
  | counted (room : p.counter < limit) : Reserves reads p p reads (some p)
  | rotated (spent : p.counter = limit) (room : p.index < limit) :
      Reserves reads p p reads (some (p.rotated kdf))
  | restarted {reads' : Nat} {salt : Salt} (exhausted : p.Exhausted limit)
      (new : DrawnBetween drawn reads reads' salt) :
      Reserves reads p (.first kdf salt) reads' (some (.first kdf salt))

def Serves (reads : Nat) (p : Place Salt Iv) (o : Outcome (Place Salt Iv) Salt Iv) : Prop :=
  Opens kdf drawn reads p o ∨ Sends limit kdf drawn reads p o

/-- The prefix is that of the salt and the index, and neither number is above the limit. -/
structure WellPlaced (p : Place Salt Iv) : Prop where
  iv : p.iv = kdf p.salt p.index
  index : p.index ≤ limit
  counter : p.counter ≤ limit

variable {limit kdf drawn}

section

variable {reads reads' : Nat} {p b q : Place Salt Iv} {reserved : Option (Place Salt Iv)}

/-- An exhausted session is left by opening another one. -/
theorem Opens.restarts (opens : Opens kdf drawn reads p ⟨true, b, reads', none⟩)
    (exhausted : p.Exhausted limit) : Reserves limit kdf drawn reads p b reads' (some b) := by
  cases opens with
  | renewed new => exact .restarted exhausted new

theorem Opens.counter_eq_zero (opens : Opens kdf drawn reads p ⟨true, b, reads', none⟩) :
    b.counter = 0 := by
  cases opens with
  | renewed new => rfl

theorem Opens.refuses (opens : Opens kdf drawn reads p ⟨false, b, reads', none⟩) :
    Reserves limit kdf drawn reads p b reads' none := by
  cases opens with
  | failed later => exact .refused later

/-- The frame was not taken: the sender stays where the reservation left it. -/
theorem Reserves.fails (reserves : Reserves limit kdf drawn reads p b reads' reserved) :
    Sends limit kdf drawn reads p ⟨false, b, reads', none⟩ := by
  cases reserves with
  | refused later => exact .refused later
  | counted | rotated => exact .refused (Nat.le_refl _)
  | restarted exhausted new => exact .renewed exhausted new

theorem Reserves.room (positive : 0 < limit)
    (reserves : Reserves limit kdf drawn reads p b reads' (some q)) : q.counter < limit := by
  cases reserves with
  | counted room => exact room
  | rotated | restarted => exact positive

/-- The frame was taken: the sender goes on behind it. -/
theorem Reserves.commits (reserves : Reserves limit kdf drawn reads p b reads' (some q)) :
    Sends limit kdf drawn reads p ⟨true, q.next, reads', some q⟩ := by
  cases reserves with
  | counted room => exact .counted room
  | rotated spent room => exact .rotated spent room
  | restarted exhausted new => exact .restarted exhausted new

end

theorem wellPlaced_first (kdf : Salt → Nat → Iv) (salt : Salt) :
    WellPlaced limit kdf (.first kdf salt) :=
  ⟨rfl, Nat.zero_le _, Nat.zero_le _⟩

theorem WellPlaced.next {p : Place Salt Iv} (placed : WellPlaced limit kdf p)
    (room : p.counter < limit) : WellPlaced limit kdf p.next :=
  ⟨placed.iv, placed.index, room⟩

theorem wellPlaced_rotated {p : Place Salt Iv} (room : p.index < limit) :
    WellPlaced limit kdf (p.rotated kdf) :=
  ⟨rfl, room, Nat.zero_le _⟩

/-! ### Runs -/

/-- A sender and what it has sent so far. -/
structure Journal (σ Salt Iv : Type) where
  state : σ
  reads : Nat
  accepted : List (Place Salt Iv)

/-- One more call. -/
def Journal.record {σ α : Type} (call : σ → Nat → α → Outcome σ Salt Iv) (j : Journal σ Salt Iv)
    (a : α) : Journal σ Salt Iv :=
  let o := call j.state j.reads a
  ⟨o.state, o.reads, j.accepted ++ o.accepted.toList⟩

variable (limit kdf drawn) in
/-- The accepted frames are genuine, in order, and before the place of the sender. -/
structure Ordered (number : Salt → Nat) (p : Place Salt Iv) (reads : Nat)
    (accepted : List (Place Salt Iv)) : Prop where
  placed : WellPlaced limit kdf p
  known : DrawnBetween drawn 0 reads p.salt
  genuine : ∀ q ∈ accepted, WellPlaced limit kdf q ∧ DrawnBetween drawn 0 reads q.salt
  ordered : (accepted.map (·.stamp number)).Pairwise (· < ·)
  before : ∀ q ∈ accepted, q.stamp number < p.stamp number

theorem DrawnBetween.mono {first first' last last' : Nat} {salt : Salt}
    (known : DrawnBetween drawn first last salt) (earlier : first' ≤ first) (later : last ≤ last') :
    DrawnBetween drawn first' last' salt := by
  obtain ⟨m, above, below, read⟩ := known
  exact ⟨m, Nat.le_trans earlier above, Nat.lt_of_lt_of_le below later, read⟩

theorem DrawnBetween.le {first last : Nat} {salt : Salt}
    (known : DrawnBetween drawn first last salt) : first ≤ last := by
  obtain ⟨m, above, below, -⟩ := known
  exact Nat.le_trans above (Nat.le_of_lt below)

variable (drawn) in
/-- Every salt that is read is a new one: it tells which read it is from. -/
def Fresh (number : Salt → Nat) : Prop := ∀ m salt, drawn m = some salt → number salt = m

variable (limit kdf) in
/-- No two prefixes of any sessions are the same. -/
def Separates : Prop :=
  ∀ salt salt' index index', index ≤ limit → index' ≤ limit →
    kdf salt index = kdf salt' index' → salt = salt' ∧ index = index'

namespace Ordered

variable {number : Salt → Nat} {p : Place Salt Iv} {reads reads' : Nat}
  {accepted : List (Place Salt Iv)}

theorem first {salt : Salt} (known : DrawnBetween drawn 0 reads salt) :
    Ordered limit kdf drawn number (.first kdf salt) reads [] where
  placed := wellPlaced_first kdf salt
  known := known
  genuine := by simp
  ordered := .nil
  before := by simp

theorem later (now : Ordered limit kdf drawn number p reads accepted) (later : reads ≤ reads') :
    Ordered limit kdf drawn number p reads' accepted :=
  { now with
    known := now.known.mono (Nat.le_refl 0) later
    genuine := fun q sent =>
      ⟨(now.genuine q sent).1, (now.genuine q sent).2.mono (Nat.le_refl 0) later⟩ }

/-- A later read has a larger number than the sessions of all frames before it. -/
theorem renew {salt : Salt} (fresh : Fresh drawn number)
    (now : Ordered limit kdf drawn number p reads accepted)
    (new : DrawnBetween drawn reads reads' salt) :
    Ordered limit kdf drawn number (.first kdf salt) reads' accepted := by
  refine { now.later new.le with
    placed := wellPlaced_first kdf salt
    known := new.mono (Nat.zero_le _) (Nat.le_refl _)
    before := fun q sent => Place.stamp_lt.mpr (.inl ?_) }
  obtain ⟨m, above, -, read⟩ := new
  obtain ⟨n, -, below, read'⟩ := (now.genuine q sent).2
  have number_new : number (Place.first kdf salt).salt = m := fresh m salt read
  rw [number_new, fresh n q.salt read']
  omega

theorem rotate (now : Ordered limit kdf drawn number p reads accepted) (room : p.index < limit) :
    Ordered limit kdf drawn number (p.rotated kdf) reads accepted :=
  { now with
    placed := wellPlaced_rotated room
    before := fun q sent => lt_trans (now.before q sent) (p.stamp_lt_rotated kdf number) }

theorem accept (now : Ordered limit kdf drawn number p reads accepted)
    (room : p.counter < limit) :
    Ordered limit kdf drawn number p.next reads (accepted ++ [p]) := by
  constructor
  · exact now.placed.next room
  · exact now.known
  · intro q sent
    rcases List.mem_append.mp sent with earlier | last
    · exact now.genuine q earlier
    · rw [List.mem_singleton.mp last]
      exact ⟨now.placed, now.known⟩
  · rw [List.map_append, List.pairwise_append]
    refine ⟨now.ordered, List.pairwise_singleton _ _, ?_⟩
    intro earlier sent last isLast
    obtain ⟨q, member, rfl⟩ := List.mem_map.mp sent
    rw [List.mem_singleton.mp isLast]
    exact now.before q member
  · intro q sent
    rcases List.mem_append.mp sent with earlier | last
    · exact lt_trans (now.before q earlier) (Place.stamp_lt_next number p)
    · rw [List.mem_singleton.mp last]
      exact Place.stamp_lt_next number p

theorem opens {o : Outcome (Place Salt Iv) Salt Iv} (fresh : Fresh drawn number)
    (now : Ordered limit kdf drawn number p reads accepted) (opens : Opens kdf drawn reads p o) :
    Ordered limit kdf drawn number o.state o.reads (accepted ++ o.accepted.toList) := by
  cases opens with
  | failed later => simpa using now.later later
  | renewed new => simpa using now.renew fresh new

theorem sends {o : Outcome (Place Salt Iv) Salt Iv} (fresh : Fresh drawn number)
    (positive : 0 < limit) (now : Ordered limit kdf drawn number p reads accepted)
    (sends : Sends limit kdf drawn reads p o) :
    Ordered limit kdf drawn number o.state o.reads (accepted ++ o.accepted.toList) := by
  cases sends with
  | refused later => simpa using now.later later
  | renewed exhausted new => simpa using now.renew fresh new
  | counted room => exact now.accept room
  | rotated spent room => exact (now.rotate room).accept positive
  | restarted exhausted new => exact (now.renew fresh new).accept positive

/-- Frames of different places have different nonces. -/
theorem nonces_nodup (separates : Separates limit kdf)
    (now : Ordered limit kdf drawn number p reads accepted) :
    (accepted.map Place.nonce).Nodup := by
  refine List.pairwise_map.mpr ((List.pairwise_map.mp now.ordered).imp_of_mem ?_)
  intro q r sent sent' before same
  obtain ⟨iv, counter⟩ := Prod.mk.inj same
  have placed := (now.genuine q sent).1
  have placed' := (now.genuine r sent').1
  rw [placed.iv, placed'.iv] at iv
  obtain ⟨salt, index⟩ := separates _ _ _ _ placed.index placed'.index iv
  have equal : q.stamp number = r.stamp number := by
    rw [Place.stamp, Place.stamp, salt, index, counter]
  exact absurd before (equal ▸ lt_irrefl _)

end Ordered

/-- Calls that serve the place of a sender keep its frames in order. -/
theorem Journal.run_ordered {σ α : Type} {call : σ → Nat → α → Outcome σ Salt Iv}
    {place : σ → Place Salt Iv} {number : Salt → Nat} (fresh : Fresh drawn number)
    (positive : 0 < limit)
    (serves : ∀ s reads a, WellPlaced limit kdf (place s) →
      Serves limit kdf drawn reads (place s) ((call s reads a).view place))
    {j : Journal σ Salt Iv} (start : Ordered limit kdf drawn number (place j.state) j.reads j.accepted)
    (calls : List α) :
    Ordered limit kdf drawn number (place (Steps.run (record call) j calls).state)
      (Steps.run (record call) j calls).reads (Steps.run (record call) j calls).accepted := by
  let inv (j : Journal σ Salt Iv) : Prop :=
    Ordered limit kdf drawn number (place j.state) j.reads j.accepted
  have keeps (j : Journal σ Salt Iv) (a : α) (now : inv j) : inv (j.record call a) := by
    rcases serves j.state j.reads a now.placed with opens | sends
    · exact now.opens fresh opens
    · exact now.sends fresh positive sends
  exact Steps.run_invariant keeps calls start

end SessionNonces
