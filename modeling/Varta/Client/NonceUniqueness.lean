import Mathlib.Data.List.Nodup
import Varta.Lib.Steps
import Varta.Client.SecureTransport

/-!
# Nonces across a process tree

Processes fork, connect, reconnect and send in any order. A session belongs to the one
transport whose epoch is the epoch of its process; every other copy reconnects before it
sends. Inside a session the frames are numbered, and the transport's own number is above
those of all frames sent.
-/
namespace Varta.Client

open SecureUdpTransport

variable {Salt Iv Key : Type}

/-! ### The tree -/

/-- A process with the transports in its memory. -/
structure Member (Salt Iv Key : Type) where
  process : Process
  transports : List (SecureUdpTransport Salt Iv Key)

structure Tree (Salt Iv Key : Type) where
  members : List (Member Salt Iv Key)
  /-- Entropy reads of all processes. -/
  reads : Nat
  accepted : List (Datagram Iv Key)

inductive Action (Key : Type) where
  | fork (parent : Nat) (childPid : UInt32)
  | connect (member : Nat) (b : Binding) (key : Key)
  | connectWithMaster (member : Nat) (b : Binding) (masterKey : Key)
  | reconnect (member transport : Nat) (b : Binding)
  | send (member transport : Nat) (a : SendAnswer)

namespace Tree

/-- One process that has not connected yet. -/
def root (pid : UInt32) : Tree Salt Iv Key := ⟨[⟨⟨pid, 0⟩, []⟩], 0, []⟩

/-- A transport and the process that holds it. -/
def find (w : Tree Salt Iv Key) (i j : Nat) :
    Option (Process × SecureUdpTransport Salt Iv Key) :=
  (w.members[i]?).bind fun m => (m.transports[j]?).map fun t => (m.process, t)

def put (w : Tree Salt Iv Key) (i j : Nat) (t : SecureUdpTransport Salt Iv Key) :
    Tree Salt Iv Key :=
  { w with members := w.members.modify i fun m => { m with transports := m.transports.set j t } }

def add (w : Tree Salt Iv Key) (i : Nat) (t : SecureUdpTransport Salt Iv Key) :
    Tree Salt Iv Key :=
  { w with members := w.members.modify i fun m => { m with transports := m.transports ++ [t] } }

/-- The memory is copied, transports and all. -/
def fork (w : Tree Salt Iv Key) (i : Nat) (childPid : UInt32) : Tree Salt Iv Key :=
  match w.members[i]? with
  | none => w
  | some m => { w with members := w.members ++ [{ m with process := m.process.fork childPid }] }

/-- A process keeps the transport that a connect gave it, if any. -/
def adopt (w : Tree Salt Iv Key) (i : Nat) :
    Except ClientError (SecureUdpTransport Salt Iv Key) × Nat → Tree Salt Iv Key
  | (.error _, reads) => { w with reads := reads }
  | (.ok t, reads) => { w.add i t with reads := reads }

variable (kdf : Kdf Salt Iv Key) (entropy : Nat → Except Nat Salt)

def step (w : Tree Salt Iv Key) : Action Key → Tree Salt Iv Key
  | .fork parent childPid => w.fork parent childPid
  | .connect i b key =>
    match w.members[i]? with
    | none => w
    | some m => w.adopt i (SecureUdpTransport.connect kdf entropy m.process b key w.reads)
  | .connectWithMaster i b masterKey =>
    match w.members[i]? with
    | none => w
    | some m =>
      w.adopt i (SecureUdpTransport.connectWithMaster kdf entropy m.process b masterKey w.reads)
  | .reconnect i j b =>
    match w.find i j with
    | none => w
    | some (p, t) =>
      match t.reconnect kdf entropy p b w.reads with
      | (.error _, reads) => { w with reads := reads }
      | (.ok t, reads) => { w.put i j t with reads := reads }
  | .send i j a =>
    match w.find i j with
    | none => w
    | some (p, t) =>
      let sent := t.send kdf entropy p a w.reads
      { w.put i j sent.transport with
        reads := sent.reads
        accepted := w.accepted ++ sent.accepted.toList }

/-! ### Looking transports up -/

variable {kdf entropy} {w : Tree Salt Iv Key} {i j : Nat} {p p' : Process}
  {t t' t'' : SecureUdpTransport Salt Iv Key}

theorem find_eq_some : w.find i j = some (p, t) ↔
    ∃ m, w.members[i]? = some m ∧ m.transports[j]? = some t ∧ m.process = p := by
  simp [find, Option.bind_eq_some_iff]

theorem find_put_self (found : w.find i j = some (p, t)) :
    (w.put i j t').find i j = some (p, t') := by
  obtain ⟨m, atI, atJ, rfl⟩ := find_eq_some.mp found
  obtain ⟨inside, _⟩ := List.getElem?_eq_some_iff.mp atJ
  apply find_eq_some.mpr
  refine ⟨{ m with transports := m.transports.set j t' }, ?_, ?_, rfl⟩
  · simp [put, atI]
  · simp [inside]

variable {i' j' reads reads' : Nat}

theorem find_put_of_ne (other : ¬(i' = i ∧ j' = j)) :
    (w.put i j t').find i' j' = w.find i' j' := by
  by_cases same : i' = i
  · subst same
    have differs : j ≠ j' := fun eq => other ⟨rfl, eq.symm⟩
    cases h : w.members[i']? with
    | none => simp [find, put, h]
    | some m => simp [find, put, h, differs]
  · have differs : i ≠ i' := fun eq => same eq.symm
    simp [find, put, differs]

theorem find_add (found : (w.add i t).find i' j' = some (p', t')) :
    w.find i' j' = some (p', t') ∨
      ∃ m, w.members[i]? = some m ∧ i' = i ∧ j' = m.transports.length ∧ p' = m.process ∧ t' = t := by
  obtain ⟨m', atI, atJ, rfl⟩ := find_eq_some.mp found
  by_cases same : i = i'
  · subst same
    cases h : w.members[i]? with
    | none => simp [add, h] at atI
    | some m =>
      simp only [add, List.getElem?_modify_eq, h, Option.map_eq_map, Option.map_some,
        Option.some.injEq] at atI
      subst atI
      by_cases inside : j' < m.transports.length
      · left
        rw [List.getElem?_append_left inside] at atJ
        exact find_eq_some.mpr ⟨m, h, atJ, rfl⟩
      · right
        rw [List.getElem?_append_right (by omega)] at atJ
        obtain ⟨last, rfl⟩ := List.getElem?_eq_some_iff.mp atJ
        refine ⟨m, rfl, rfl, ?_, rfl, ?_⟩
        · simp at last
          omega
        · simp
  · left
    simp only [add, List.getElem?_modify, same, if_false] at atI
    exact find_eq_some.mpr ⟨m', by simpa using atI, atJ, rfl⟩

theorem find_fork {childPid : UInt32} (found : (w.fork i childPid).find i' j' = some (p', t')) :
    w.find i' j' = some (p', t') ∨ ∃ p, w.find i j' = some (p, t') ∧ p' = p.fork childPid := by
  unfold fork at found
  cases h : w.members[i]? with
  | none => simp [h] at found; exact .inl found
  | some m =>
    simp only [h] at found
    obtain ⟨m', atI, atJ, rfl⟩ := find_eq_some.mp found
    by_cases inside : i' < w.members.length
    · left
      rw [List.getElem?_append_left inside] at atI
      exact find_eq_some.mpr ⟨m', atI, atJ, rfl⟩
    · right
      rw [List.getElem?_append_right (by omega)] at atI
      obtain ⟨last, rfl⟩ := List.getElem?_eq_some_iff.mp atI
      refine ⟨m.process, find_eq_some.mpr ⟨m, h, ?_, rfl⟩, ?_⟩
      · simpa using atJ
      · simp

/-! ### Sessions -/

variable (entropy) in
/-- The salt was one of the first reads. -/
def Known (reads : Nat) (salt : Salt) : Prop := ∃ m, m < reads ∧ entropy m = .ok salt

theorem Known.later {salt : Salt} (known : Known entropy reads salt) (later : reads ≤ reads') :
    Known entropy reads' salt := by
  obtain ⟨m, below, read⟩ := known
  exact ⟨m, Nat.lt_of_lt_of_le below later, read⟩

/-- The process may go on in the transport's session without a reconnect. -/
def Owns (p : Process) (t : SecureUdpTransport Salt Iv Key) : Prop :=
  p.forkEpoch = t.connectForkEpoch

variable (kdf entropy) in
/-- A transport in the memory of a process. -/
structure Held (reads : Nat) (p : Process) (t : SecureUdpTransport Salt Iv Key) : Prop where
  derived : t.Derived kdf
  known : Known entropy reads t.ivSessionSalt
  epoch : t.connectForkEpoch.toNat ≤ p.forkEpoch.toNat

theorem Held.later (held : Held kdf entropy reads p t) (later : reads ≤ reads') :
    Held kdf entropy reads' p t :=
  ⟨held.derived, held.known.later later, held.epoch⟩

theorem held_of_renewed (new : Renewed kdf entropy p reads reads' t) :
    Held kdf entropy reads' p t := by
  obtain ⟨m, _, below, read⟩ := new.salt
  exact ⟨new.derived, ⟨m, below, read⟩, by simp [new.epoch]⟩

variable (kdf entropy) in
/-- No two owned transports share a session, and the frames of a session come before the
place of its owner. -/
structure Sound (w : Tree Salt Iv Key) : Prop where
  held : ∀ i j p t, w.find i j = some (p, t) → Held kdf entropy w.reads p t
  exclusive : ∀ i j p t i' j' p' t', w.find i j = some (p, t) → w.find i' j' = some (p', t') →
    Owns p t → Owns p' t' → t.ivSessionSalt = t'.ivSessionSalt → i' = i ∧ j' = j
  spent : ∀ d ∈ w.accepted, ∃ salt n, Known entropy w.reads salt ∧ Stamped kdf salt n d ∧
    ∀ i j p t, w.find i j = some (p, t) → Owns p t → t.ivSessionSalt = salt → n < t.position
  distinct : (w.accepted.map Datagram.sealedUnder).Nodup

variable (entropy) in
/-- Every session salt that is read is a new one. -/
def FreshSalts : Prop := ∀ m n salt, entropy m = .ok salt → entropy n = .ok salt → m = n

variable (kdf entropy) in
/-- Key derivation separates the salts that are read, and the prefixes of each. -/
def SeparatesSessions : Prop := ∀ m n salt salt' index index' iv,
  entropy m = .ok salt → entropy n = .ok salt' → kdf.deriveIvPrefix salt index = some iv →
    kdf.deriveIvPrefix salt' index' = some iv → salt = salt' ∧ index = index'

theorem sound_root (pid : UInt32) : Sound kdf entropy (root pid) := by
  have nothing (i j : Nat) : (root pid : Tree Salt Iv Key).find i j = none := by
    cases i <;> simp [find, root]
  constructor
  · intro i j p t found
    simp [nothing] at found
  · intro i j p t i' j' p' t' found
    simp [nothing] at found
  · simp [root]
  · simp [root]

theorem Sound.later (sound : Sound kdf entropy w) (later : w.reads ≤ reads) :
    Sound kdf entropy { w with reads := reads } := by
  constructor
  · intro i j p t found
    exact (sound.held i j p t found).later later
  · exact sound.exclusive
  · intro d sent
    obtain ⟨salt, n, known, stamped, above⟩ := sound.spent d sent
    exact ⟨salt, n, known.later later, stamped, above⟩
  · exact sound.distinct

theorem renewed_not_known (fresh : FreshSalts entropy)
    (new : Renewed kdf entropy p reads reads' t) :
    ¬Known entropy reads t.ivSessionSalt := by
  rintro ⟨m, below, read⟩
  obtain ⟨m', above, _, read'⟩ := new.salt
  have same := fresh m m' _ read read'
  omega

theorem stamped_unique {m n : Nat} {salt salt' : Salt} {d e : Datagram Iv Key}
    (separates : SeparatesSessions kdf entropy) (known : Known entropy reads salt)
    (known' : Known entropy reads' salt') (stamped : Stamped kdf salt m d)
    (stamped' : Stamped kdf salt' n e) (same : d.sealedUnder = e.sealedUnder) :
    salt = salt' ∧ m = n := by
  obtain ⟨_, _, read⟩ := known
  obtain ⟨_, _, read'⟩ := known'
  obtain ⟨index, derived, rfl⟩ := stamped
  obtain ⟨index', derived', rfl⟩ := stamped'
  simp only [Datagram.sealedUnder, Prod.mk.injEq] at same
  obtain ⟨_, iv, counter⟩ := same
  -- the number of a frame is its prefix index and its counter, and both are in the nonce
  rw [iv] at derived
  obtain ⟨rfl, rfl⟩ := separates _ _ _ _ _ _ _ read read' derived derived'
  simp [counter]

/-! ### One call -/

variable (kdf entropy) in
/-- The session a call works in: the one it found or a new one. -/
def Entered (reads reads' : Nat) (p : Process) (t base : SecureUdpTransport Salt Iv Key) : Prop :=
  base = t ∨ Renewed kdf entropy p reads reads' base

section

variable {reads' : Nat} {base : SecureUdpTransport Salt Iv Key}

theorem Sound.entered_held (sound : Sound kdf entropy w) (found : w.find i j = some (p, t))
    (later : w.reads ≤ reads') (entered : Entered kdf entropy w.reads reads' p t base) :
    Held kdf entropy reads' p base := by
  cases entered with
  | inl old =>
    subst old
    exact (sound.held i j p base found).later later
  | inr new => exact held_of_renewed new

/-- No other process owns the session that a call works in. -/
theorem Sound.entered_exclusive (sound : Sound kdf entropy w) (fresh : FreshSalts entropy)
    (found : w.find i j = some (p, t)) (entered : Entered kdf entropy w.reads reads' p t base)
    (own : Owns p base) {i' j' : Nat} (found' : w.find i' j' = some (p', t')) (owned : Owns p' t')
    (same : base.ivSessionSalt = t'.ivSessionSalt) : i' = i ∧ j' = j := by
  cases entered with
  | inl old =>
    subst old
    exact sound.exclusive i j p base i' j' p' t' found found' own owned same
  | inr new =>
    have known := (sound.held i' j' p' t' found').known
    exact absurd (same ▸ known) (renewed_not_known fresh new)

/-- The frames sent so far in that session come before the call's place in it. -/
theorem entered_spent (fresh : FreshSalts entropy) (found : w.find i j = some (p, t))
    (entered : Entered kdf entropy w.reads reads' p t base)
    (own : Owns p base) {n : Nat} (known : Known entropy w.reads base.ivSessionSalt)
    (above : ∀ i j p t, w.find i j = some (p, t) → Owns p t →
      t.ivSessionSalt = base.ivSessionSalt → n < t.position) : n < base.position := by
  cases entered with
  | inl old =>
    subst old
    exact above i j p base found own rfl
  | inr new => exact absurd known (renewed_not_known fresh new)

end

theorem find_put {i' j' : Nat} (found : w.find i j = some (p, t))
    (found' : (w.put i j t').find i' j' = some (p', t'')) :
    (i' = i ∧ j' = j ∧ p' = p ∧ t'' = t') ∨
      ¬(i' = i ∧ j' = j) ∧ w.find i' j' = some (p', t'') := by
  by_cases here : i' = i ∧ j' = j
  · obtain ⟨rfl, rfl⟩ := here
    rw [find_put_self found] at found'
    simp only [Option.some.injEq, Prod.mk.injEq] at found'
    exact .inl ⟨rfl, rfl, found'.1.symm, found'.2.symm⟩
  · rw [find_put_of_ne here] at found'
    exact .inr ⟨here, found'⟩

/-- A call on one transport. -/
theorem Sound.serve {out : Sent Salt Iv Key} (sound : Sound kdf entropy w)
    (fresh : FreshSalts entropy) (separates : SeparatesSessions kdf entropy)
    (found : w.find i j = some (p, t)) (served : Served kdf entropy p w.reads t out) :
    Sound kdf entropy { w.put i j out.transport with
      reads := out.reads
      accepted := w.accepted ++ out.accepted.toList } := by
  obtain ⟨later, base, opened, continues⟩ := served
  have entered : Entered kdf entropy w.reads out.reads p t base :=
    opened.imp And.left id
  -- what is accepted is accepted in a session that the process owns
  have own (d : Datagram Iv Key) (sent : out.accepted = some d) : Owns p base := by
    rcases opened with ⟨rfl, quiet | own⟩ | new
    · simp [quiet] at sent
    · exact own
    · exact new.epoch.symm
  have owns : Owns p out.transport ↔ Owns p base := by simp [Owns, continues.epoch]
  have old := sound.entered_held found later entered
  constructor
  · intro i' j' p' t'' found'
    rcases find_put found found' with ⟨rfl, rfl, rfl, rfl⟩ | ⟨_, before⟩
    · exact ⟨continues.derived, continues.salt ▸ old.known, continues.epoch ▸ old.epoch⟩
    · exact (sound.held i' j' p' t'' before).later later
  · intro i₁ j₁ p₁ t₁ i₂ j₂ p₂ t₂ found₁ found₂ own₁ own₂ same
    rcases find_put found found₁ with ⟨rfl, rfl, rfl, rfl⟩ | ⟨_, before₁⟩
    · rcases find_put found found₂ with ⟨rfl, rfl, rfl, rfl⟩ | ⟨_, before₂⟩
      · exact ⟨rfl, rfl⟩
      · exact sound.entered_exclusive fresh found entered (owns.mp own₁) before₂ own₂
          (continues.salt ▸ same)
    · rcases find_put found found₂ with ⟨rfl, rfl, rfl, rfl⟩ | ⟨_, before₂⟩
      · have place := sound.entered_exclusive fresh found entered (owns.mp own₂) before₁ own₁
          (continues.salt ▸ same.symm)
        exact ⟨place.1.symm, place.2.symm⟩
      · exact sound.exclusive i₁ j₁ p₁ t₁ i₂ j₂ p₂ t₂ before₁ before₂ own₁ own₂ same
  · intro d sent
    rcases List.mem_append.mp sent with before | now
    · obtain ⟨salt, n, known, stamped, above⟩ := sound.spent d before
      refine ⟨salt, n, known.later later, stamped, ?_⟩
      intro i' j' p' t'' found' own' same
      rcases find_put found found' with ⟨rfl, rfl, rfl, rfl⟩ | ⟨_, before'⟩
      · have same' : base.ivSessionSalt = salt := continues.salt ▸ same
        subst same'
        have below := entered_spent fresh found entered (owns.mp own') known above
        exact Nat.lt_of_lt_of_le below continues.forward
      · exact above i' j' p' t'' before' own' same
    · -- the new frame is in the session of the call, which has no other owner
      have sent : out.accepted = some d := by simpa using now
      obtain ⟨n, stamped, _, below⟩ := continues.stamped d sent
      refine ⟨base.ivSessionSalt, n, old.known, stamped, ?_⟩
      intro i' j' p' t'' found' own' same
      rcases find_put found found' with ⟨rfl, rfl, rfl, rfl⟩ | ⟨elsewhere, before'⟩
      · exact below
      · exact absurd (sound.entered_exclusive fresh found entered (own d sent) before' own'
          same.symm) elsewhere
  · cases sent : out.accepted with
    | none => simpa using sound.distinct
    | some d =>
      obtain ⟨n, stamped, above, _⟩ := continues.stamped d sent
      have new : ∀ e ∈ w.accepted, e.sealedUnder ≠ d.sealedUnder := by
        intro e before same
        -- one nonce means one session and one number, but the old number is behind the call's
        obtain ⟨salt, m, known, stamped', spent⟩ := sound.spent e before
        obtain ⟨rfl, rfl⟩ := stamped_unique separates known old.known stamped' stamped same
        have below := entered_spent fresh found entered (own d sent) known spent
        omega
      simpa [List.nodup_append, sound.distinct] using new

/-- A connect that gave a transport, or none. -/
theorem Sound.adopt {m : Member Salt Iv Key} (sound : Sound kdf entropy w)
    (fresh : FreshSalts entropy) (member : w.members[i]? = some m)
    {out : Except ClientError (SecureUdpTransport Salt Iv Key) × Nat}
    (opens : Opens kdf entropy m.process w.reads out) : Sound kdf entropy (w.adopt i out) := by
  cases opens with
  | failed later => exact sound.later later
  | @renewed t reads' new =>
    have later := new.reads_le
    -- the transports that were there are from sessions of earlier reads
    have unlike {i' j' : Nat} {p' : Process} {t' : SecureUdpTransport Salt Iv Key}
        (before : w.find i' j' = some (p', t')) : t.ivSessionSalt ≠ t'.ivSessionSalt := by
      intro same
      have known := (sound.held i' j' p' t' before).known
      exact renewed_not_known fresh new (same ▸ known)
    constructor
    · intro i' j' p' t' found
      rcases find_add found with before | ⟨m', member', rfl, rfl, rfl, rfl⟩
      · exact (sound.held i' j' p' t' before).later later
      · obtain rfl : m = m' := by simpa [member] using member'
        exact held_of_renewed new
    · intro i₁ j₁ p₁ t₁ i₂ j₂ p₂ t₂ found₁ found₂ own₁ own₂ same
      rcases find_add found₁ with before₁ | ⟨m₁, member₁, rfl, rfl, rfl, rfl⟩
      · rcases find_add found₂ with before₂ | ⟨m₂, member₂, rfl, rfl, rfl, rfl⟩
        · exact sound.exclusive i₁ j₁ p₁ t₁ i₂ j₂ p₂ t₂ before₁ before₂ own₁ own₂ same
        · exact absurd same.symm (unlike before₁)
      · rcases find_add found₂ with before₂ | ⟨m₂, member₂, rfl, rfl, rfl, rfl⟩
        · exact absurd same (unlike before₂)
        · obtain rfl : m₁ = m₂ := by simpa [member₁] using member₂
          exact ⟨rfl, rfl⟩
    · intro d sent
      obtain ⟨salt, n, known, stamped, above⟩ := sound.spent d sent
      refine ⟨salt, n, known.later later, stamped, ?_⟩
      intro i' j' p' t' found own same
      rcases find_add found with before | ⟨m', member', rfl, rfl, rfl, rfl⟩
      · exact above i' j' p' t' before own same
      · exact absurd (same ▸ known) (renewed_not_known fresh new)
    · exact sound.distinct

/-! ### A fork -/

@[simp] theorem fork_reads (w : Tree Salt Iv Key) (i : Nat) (childPid : UInt32) :
    (w.fork i childPid).reads = w.reads := by
  unfold fork
  split <;> rfl

@[simp] theorem fork_accepted (w : Tree Salt Iv Key) (i : Nat) (childPid : UInt32) :
    (w.fork i childPid).accepted = w.accepted := by
  unfold fork
  split <;> rfl

/-- The epoch of the process can be counted up once more. -/
def Countable (p : Process) : Prop := p.forkEpoch.toNat + 1 < 2 ^ 64

theorem fork_epoch {childPid : UInt32} (room : Countable p) :
    (p.fork childPid).forkEpoch.toNat = p.forkEpoch.toNat + 1 := by
  unfold Countable at room
  simp only [Process.fork, UInt64.toNat_add, UInt64.toNat_one]
  omega

/-- The child owns none of the sessions it has copied. -/
theorem Sound.fork {childPid : UInt32} (sound : Sound kdf entropy w)
    (room : ∀ m ∈ w.members[i]?, Countable m.process) :
    Sound kdf entropy (w.fork i childPid) := by
  have copied {j : Nat} {p : Process} {t : SecureUdpTransport Salt Iv Key}
      (found : w.find i j = some (p, t)) :
      Held kdf entropy w.reads (p.fork childPid) t ∧ ¬Owns (p.fork childPid) t := by
    obtain ⟨m, member, _, rfl⟩ := find_eq_some.mp found
    have next : (m.process.fork childPid).forkEpoch.toNat = _ := fork_epoch (room m member)
    have held := sound.held i j m.process t found
    have epoch := held.epoch
    constructor
    · exact ⟨held.derived, held.known, by omega⟩
    · intro own
      have same : (m.process.fork childPid).forkEpoch.toNat = t.connectForkEpoch.toNat :=
        congrArg UInt64.toNat own
      omega
  -- so the owners after the fork are those before it
  have owned {i' j' : Nat} {p' : Process} {t' : SecureUdpTransport Salt Iv Key}
      (found : (w.fork i childPid).find i' j' = some (p', t')) (own : Owns p' t') :
      w.find i' j' = some (p', t') := by
    rcases find_fork found with before | ⟨p, before, rfl⟩
    · exact before
    · exact absurd own (copied before).2
  constructor
  · intro i' j' p' t' found
    rcases find_fork found with before | ⟨p, before, rfl⟩
    · simpa using sound.held i' j' p' t' before
    · simpa using (copied before).1
  · intro i₁ j₁ p₁ t₁ i₂ j₂ p₂ t₂ found₁ found₂ own₁ own₂ same
    exact sound.exclusive i₁ j₁ p₁ t₁ i₂ j₂ p₂ t₂ (owned found₁ own₁) (owned found₂ own₂)
      own₁ own₂ same
  · intro d sent
    obtain ⟨salt, n, known, stamped, above⟩ := sound.spent d (by simpa using sent)
    refine ⟨salt, n, by simpa using known, stamped, ?_⟩
    intro i' j' p' t' found own same
    exact above i' j' p' t' (owned found own) own same
  · simpa using sound.distinct

/-! ### Whole runs -/

/-- A fork counts the epoch up without wrapping it. -/
def CountsUp (w : Tree Salt Iv Key) : Action Key → Prop
  | .fork parent _ => ∀ m ∈ w.members[parent]?, Countable m.process
  | _ => True

instance CountsUp.decidable (w : Tree Salt Iv Key) : (a : Action Key) → Decidable (w.CountsUp a)
  | .fork parent _ =>
    inferInstanceAs (Decidable (∀ m ∈ w.members[parent]?, m.process.forkEpoch.toNat + 1 < 2 ^ 64))
  | .connect .. | .connectWithMaster .. | .reconnect .. | .send .. =>
    inferInstanceAs (Decidable True)

theorem Sound.step {a : Action Key} (sound : Sound kdf entropy w) (fresh : FreshSalts entropy)
    (separates : SeparatesSessions kdf entropy) (counts : w.CountsUp a) :
    Sound kdf entropy (w.step kdf entropy a) := by
  cases a with
  | fork parent childPid => exact sound.fork counts
  | connect i b key =>
    simp only [Tree.step]
    cases member : w.members[i]? with
    | none => exact sound
    | some m => exact sound.adopt fresh member (connect_opens m.process b key w.reads)
  | connectWithMaster i b masterKey =>
    simp only [Tree.step]
    cases member : w.members[i]? with
    | none => exact sound
    | some m =>
      exact sound.adopt fresh member (connectWithMaster_opens m.process b masterKey w.reads)
  | reconnect i j b =>
    simp only [Tree.step]
    cases found : w.find i j with
    | none => exact sound
    | some at_ =>
      obtain ⟨p, t⟩ := at_
      have opens : Opens kdf entropy p w.reads _ := reconnect_opens t p b w.reads
      dsimp only
      generalize t.reconnect kdf entropy p b w.reads = out at opens
      cases opens with
      | failed later => exact sound.later later
      | @renewed t' reads' new =>
        -- a reconnect is a call that sends nothing
        have served : Served kdf entropy p w.reads t ⟨.ok 0, t', reads', none⟩ :=
          ⟨new.reads_le, t', .inr new, .nothing new.derived⟩
        simpa [put] using sound.serve fresh separates found served
  | send i j a =>
    simp only [Tree.step]
    cases found : w.find i j with
    | none => exact sound
    | some at_ =>
      obtain ⟨p, t⟩ := at_
      have held := sound.held i j p t found
      exact sound.serve fresh separates found (send_served held.derived p a w.reads)

/-- No nonce is used twice under a key, and a send that fails in its own session leaves the
transport as it was unless that session is used up. -/
theorem nonces_unique (fresh : FreshSalts entropy) (separates : SeparatesSessions kdf entropy)
    (pid : UInt32) (actions : List (Action Key))
    (counts : Steps.Guarded (step kdf entropy) CountsUp (root pid) actions) :
    let w := Steps.run (step kdf entropy) (root pid) actions
    (w.accepted.map Datagram.sealedUnder).Nodup ∧
      ∀ i j p t a e, w.find i j = some (p, t) → p.forkEpoch = t.connectForkEpoch →
        (t.ivCounter < u32Max ∨ t.ivPrefixIndex < u32Max) →
        (t.send kdf entropy p a w.reads).result = .error e →
        (t.send kdf entropy p a w.reads).transport = t := by
  intro w
  constructor
  · have sound : Sound kdf entropy w :=
      counts.invariant (fun _ _ sound counts => sound.step fresh separates counts) (sound_root pid)
    exact sound.distinct
  · intro i j p t a e _ current room failed
    exact send_error current room failed

/-! ### Wrapping the epoch -/

/-- Salts and prefixes are told apart by their numbers. -/
def numbered : Kdf Nat (Nat × UInt32) Unit where
  deriveIvPrefix salt index := some (salt, index)
  deriveAgentKey _ _ := some ()

theorem numbered_fresh : FreshSalts (Except.ok : Nat → Except Nat Nat) := by
  intro m n salt read read'
  simp_all

theorem numbered_separates : SeparatesSessions numbered (Except.ok : Nat → Except Nat Nat) := by
  intro m n salt salt' index index' iv _ _ derived derived'
  simp only [numbered, Option.some.injEq] at derived derived'
  subst derived'
  simpa using derived

def sendAccepted : SendAnswer := ⟨.granted, .granted, true, .ok 60⟩

theorem nonces_unique_across_fork :
    let actions := [Action.connect 0 .granted (), .send 0 0 sendAccepted, .fork 0 2,
      .send 1 0 sendAccepted, .send 0 0 sendAccepted]
    let w := Steps.run (step numbered .ok) (root 1) actions
    w.accepted.length = 3 ∧ (w.accepted.map Datagram.sealedUnder).Nodup := by
  exact ⟨by decide, (nonces_unique numbered_fresh numbered_separates 1 _ (by decide)).1⟩

/-- Each process forks the next one; a pid is used again two generations later. -/
def forkChain (n : Nat) : List (Action Key) :=
  (List.range n).map fun k => .fork k (UInt32.ofNat (2 + k % 2))

/-- The last process of the chain has the first one's transports, and its epoch is counted
up modulo the word size. -/
theorem run_forkChain {m : Member Salt Iv Key} (alone : w.members = [m]) (n : Nat) :
    let w' := Steps.run (step kdf entropy) w (forkChain n)
    w'.members.length = n + 1 ∧ w'.members[0]? = some m ∧ w'.reads = w.reads ∧
      w'.accepted = w.accepted ∧ ∃ pid, w'.members[n]? =
        some ⟨⟨pid, m.process.forkEpoch + UInt64.ofNat n⟩, m.transports⟩ := by
  induction n with
  | zero => exact ⟨by simp [forkChain, alone], by simp [forkChain, alone], rfl, rfl,
      m.process.pid, by simp [forkChain, alone]⟩
  | succ n ih =>
    obtain ⟨length, first, reads, accepted, pid, last⟩ := ih
    have chain : (forkChain (n + 1) : List (Action Key)) =
        forkChain n ++ [.fork n (UInt32.ofNat (2 + n % 2))] := by
      simp [forkChain, List.range_succ]
    simp only [chain, Steps.run_append, Steps.run_cons, Steps.run_nil, step, fork]
    generalize Steps.run (step kdf entropy) w (forkChain n) = w' at *
    simp only [last]
    have inside : 0 < w'.members.length := by omega
    refine ⟨by simp [length], by rw [List.getElem?_append_left inside, first], reads, accepted,
      UInt32.ofNat (2 + n % 2), ?_⟩
    rw [List.getElem?_append_right (by omega)]
    simp [length, Process.fork, UInt64.add_assoc]

theorem step_send {a : SendAnswer} (found : w.find i j = some (p, t)) :
    w.step kdf entropy (.send i j a) =
      { w.put i j (t.send kdf entropy p a w.reads).transport with
        reads := (t.send kdf entropy p a w.reads).reads
        accepted := w.accepted ++ (t.send kdf entropy p a w.reads).accepted.toList } := by
  simp only [step, found]

/-- Two owners of one transport send under one nonce. -/
theorem reused_of_two_owners {i' j' : Nat} (apart : ¬(i' = i ∧ j' = j))
    (found : w.find i j = some (p, t)) (found' : w.find i' j' = some (p', t)) (own : Owns p t)
    (own' : Owns p' t) (room : t.ivCounter < u32Max) (shared : t.isMasterMode = false) :
    ¬((Steps.run (step kdf entropy) w
      [.send i j sendAccepted, .send i' j' sendAccepted]).accepted.map Datagram.sealedUnder).Nodup := by
  have sends {q : Process} (reads : Nat) (own : Owns q t) :
      (t.send kdf entropy q sendAccepted reads).accepted =
        some ⟨t.key, t.ivPrefix, t.ivCounter, none⟩ := by
    unfold Owns at own
    simp [send, sendFrame, advanceNonce, taken, sendAccepted, own, room, shared, pending,
      expectedSendLen, secureFrameLen, Except.toOption]
  have second : (w.step kdf entropy (.send i j sendAccepted)).find i' j' = some (p', t) := by
    rw [step_send found]
    exact (find_put_of_ne apart).trans found'
  rw [Steps.run_cons, Steps.run_cons, Steps.run_nil, step_send second, step_send found]
  simp [sends, own, own', List.nodup_append]

theorem nonce_reused_after_epoch_wrap :
    let actions := [Action.connect 0 .granted ()] ++ forkChain (2 ^ 64) ++
      [.send 0 0 sendAccepted, .send (2 ^ 64) 0 sendAccepted]
    ¬((Steps.run (step numbered .ok) (root 1) actions).accepted.map Datagram.sealedUnder).Nodup := by
  intro actions
  simp only [actions, Steps.run_append]
  obtain ⟨_, first, _, _, pid, last⟩ := @run_forkChain Nat (Nat × UInt32) Unit numbered .ok
    (Steps.run (step numbered .ok) (root 1) [.connect 0 .granted ()]) _ rfl (2 ^ 64)
  refine reused_of_two_owners ?_ (find_eq_some.mpr ⟨_, first, rfl, rfl⟩)
    (find_eq_some.mpr ⟨_, last, rfl, rfl⟩) ?_ ?_ ?_ ?_
  · decide
  · rfl
  · rfl
  · decide
  · rfl

end Tree

end Varta.Client
