import Mathlib.Data.Set.Card
import Varta.Lib.Steps
import Varta.Watch.ProbeTable

/-!
# The bounded index in memory

The entries of `BoundedIndex` as `probe_table.rs` lays them out: the state of an entry is
encoded in its slot number, and its key is only there while the entry is live. As long as
the stored numbers stay below the two sentinels, this table and the one with explicit cells
do the same, and both are a partial map.
-/
namespace Varta.Watch

open Machine
open Probing (Cell)

/-- The entry was never written, or it was cleared. -/
def SlotIdx.empty : UInt32 := 4294967295

/-- The entry was live and then removed. -/
def SlotIdx.tombstone : UInt32 := 4294967294

@[simp] theorem SlotIdx.tombstone_ne_empty : SlotIdx.tombstone ≠ SlotIdx.empty := by
  decide

/-- `key` is `MaybeUninit` in the source; `none` is an uninitialised key. -/
structure Entry (κ : Type) where
  key : Option κ
  slotIdx : UInt32
  deriving DecidableEq, Repr

def Entry.empty {κ : Type} : Entry κ := ⟨none, SlotIdx.empty⟩

structure SentinelIndex (κ : Type) where
  hash32 : κ → UInt32
  table : List (Entry κ)
  mask : Nat
  occupied : Nat
  probeExhausted : Nat

namespace SentinelIndex

variable {κ : Type} [DecidableEq κ]

def new (hash32 : κ → UInt32) (capacity : Nat) : SentinelIndex κ where
  hash32 := hash32
  table := List.replicate (tableSize capacity) Entry.empty
  mask := tableSize capacity - 1
  occupied := 0
  probeExhausted := 0

def len (t : SentinelIndex κ) : Nat := t.occupied

/-- The loop of `get`, with the probes left and the position. -/
def getFrom (t : SentinelIndex κ) (key : κ) : Nat → Nat → Option Nat
  | 0, _ => none
  | probes + 1, i =>
    match t.table[i]? with
    | none => none
    | some entry =>
      if entry.slotIdx = SlotIdx.empty then none
      else if entry.slotIdx = SlotIdx.tombstone then getFrom t key probes ((i + 1) &&& t.mask)
      else if entry.key = some key then some entry.slotIdx.toNat
      else getFrom t key probes ((i + 1) &&& t.mask)

def start (t : SentinelIndex κ) (key : κ) : Nat := (t.hash32 key).toNat &&& t.mask

def get (t : SentinelIndex κ) (key : κ) : Option Nat := t.getFrom key maxProbe (t.start key)

/-- `Err(ProbeExhausted)`. -/
def exhausted (t : SentinelIndex κ) : SentinelIndex κ × Bool :=
  ({ t with probeExhausted := u64SaturatingAdd t.probeExhausted 1 }, false)

/-- A new live entry at `target`. -/
def write (t : SentinelIndex κ) (key : κ) (slotIdx : Nat) (target : Nat) : SentinelIndex κ × Bool :=
  match t.table[target]? with
  | none => t.exhausted
  | some _ =>
    ({ t with
      table := t.table.set target ⟨some key, UInt32.ofNat slotIdx⟩
      occupied := t.occupied + 1 }, true)

/-- The loop of `insert`, and what comes behind it. -/
def insertFrom (t : SentinelIndex κ) (key : κ) (slotIdx : Nat) :
    Nat → Nat → Option Nat → SentinelIndex κ × Bool
  | 0, _, some target => t.write key slotIdx target
  | 0, _, none => t.exhausted
  | probes + 1, i, firstTombstone =>
    match t.table[i]? with
    | none => t.exhausted
    | some entry =>
      if entry.slotIdx = SlotIdx.empty then t.write key slotIdx (firstTombstone.getD i)
      else if entry.slotIdx = SlotIdx.tombstone then
        insertFrom t key slotIdx probes ((i + 1) &&& t.mask) (firstTombstone.or (some i))
      else if entry.key = some key then
        ({ t with table := t.table.set i { entry with slotIdx := UInt32.ofNat slotIdx } }, true)
      else insertFrom t key slotIdx probes ((i + 1) &&& t.mask) firstTombstone

/-- The slot number is cast to 32 bits. The source asserts, in debug builds only, that the
result is below the sentinels. -/
def insert (t : SentinelIndex κ) (key : κ) (slotIdx : Nat) : SentinelIndex κ × Bool :=
  t.insertFrom key slotIdx maxProbe (t.start key) none

def removeFrom (t : SentinelIndex κ) (key : κ) : Nat → Nat → SentinelIndex κ × Option Nat
  | 0, _ => (t, none)
  | probes + 1, i =>
    match t.table[i]? with
    | none => (t, none)
    | some entry =>
      if entry.slotIdx = SlotIdx.empty then (t, none)
      else if entry.slotIdx = SlotIdx.tombstone then removeFrom t key probes ((i + 1) &&& t.mask)
      else if entry.key = some key then
        -- the key stays where it is, without meaning
        ({ t with
          table := t.table.set i { entry with slotIdx := SlotIdx.tombstone }
          occupied := t.occupied - 1 }, some entry.slotIdx.toNat)
      else removeFrom t key probes ((i + 1) &&& t.mask)

def remove (t : SentinelIndex κ) (key : κ) : SentinelIndex κ × Option Nat :=
  t.removeFrom key maxProbe (t.start key)

def iter (t : SentinelIndex κ) : List (κ × Nat) :=
  t.table.filterMap fun entry =>
    if entry.slotIdx = SlotIdx.empty ∨ entry.slotIdx = SlotIdx.tombstone then none
    else entry.key.map fun key => (key, entry.slotIdx.toNat)

def takeProbeExhausted (t : SentinelIndex κ) : Nat × SentinelIndex κ :=
  (t.probeExhausted, { t with probeExhausted := 0 })

def clear (t : SentinelIndex κ) : SentinelIndex κ :=
  { t with
    table := t.table.map fun entry => { entry with slotIdx := SlotIdx.empty }
    occupied := 0 }

end SentinelIndex

/-! ### Decoding -/

section

variable {κ : Type}

/-- What the entry stands for. -/
def Entry.cell (entry : Entry κ) : Cell κ :=
  if entry.slotIdx = SlotIdx.empty then .empty
  else if entry.slotIdx = SlotIdx.tombstone then .tombstone
  else entry.key.elim .tombstone (.live · entry.slotIdx.toNat)

/-- A live entry has a key. -/
def Entry.Initialised (entry : Entry κ) : Prop :=
  entry.slotIdx = SlotIdx.empty ∨ entry.slotIdx = SlotIdx.tombstone ∨ entry.key.isSome

/-- Below the sentinels. -/
def Storable (slotIdx : Nat) : Prop := slotIdx < SlotIdx.tombstone.toNat

instance (slotIdx : Nat) : Decidable (Storable slotIdx) :=
  inferInstanceAs (Decidable (slotIdx < SlotIdx.tombstone.toNat))

theorem toNat_storable {slotIdx : Nat} (storable : Storable slotIdx) :
    (UInt32.ofNat slotIdx).toNat = slotIdx := by
  have below : slotIdx < 4294967294 := storable
  simp only [UInt32.toNat_ofNat']
  omega

theorem Entry.cell_live {slotIdx : Nat} (storable : Storable slotIdx) (key : κ) :
    (⟨some key, UInt32.ofNat slotIdx⟩ : Entry κ).cell = .live key slotIdx := by
  have below : slotIdx < 4294967294 := storable
  have back := toNat_storable storable
  have nonempty : UInt32.ofNat slotIdx ≠ SlotIdx.empty := by
    intro same
    rw [same] at back
    simp [SlotIdx.empty] at back
    omega
  have nontombstone : UInt32.ofNat slotIdx ≠ SlotIdx.tombstone := by
    intro same
    rw [same] at back
    simp [SlotIdx.tombstone] at back
    omega
  simp [Entry.cell, nonempty, nontombstone, back]

@[simp] theorem Entry.cell_empty (key : Option κ) : (⟨key, SlotIdx.empty⟩ : Entry κ).cell = .empty := by
  simp [Entry.cell]

@[simp] theorem Entry.cell_tombstone (key : Option κ) :
    (⟨key, SlotIdx.tombstone⟩ : Entry κ).cell = .tombstone := by
  simp [Entry.cell]

/-- The three kinds of entries, as the loops tell them apart. -/
theorem Entry.Initialised.cases {entry : Entry κ} (initialised : entry.Initialised) :
    (entry.slotIdx = SlotIdx.empty ∧ entry.cell = .empty) ∨
    (entry.slotIdx = SlotIdx.tombstone ∧ entry.cell = .tombstone) ∨
    ∃ key, entry.slotIdx ≠ SlotIdx.empty ∧ entry.slotIdx ≠ SlotIdx.tombstone ∧
      entry.key = some key ∧ entry.cell = .live key entry.slotIdx.toNat := by
  by_cases empty : entry.slotIdx = SlotIdx.empty
  · exact .inl ⟨empty, by simp [Entry.cell, empty]⟩
  · by_cases tombstone : entry.slotIdx = SlotIdx.tombstone
    · exact .inr (.inl ⟨tombstone, by simp [Entry.cell, tombstone]⟩)
    · obtain ⟨key, present⟩ : ∃ key, entry.key = some key :=
        Option.isSome_iff_exists.mp ((initialised.resolve_left empty).resolve_left tombstone)
      exact .inr (.inr ⟨key, empty, tombstone, present, by
        simp [Entry.cell, empty, tombstone, present]⟩)

end

/-! ### The same table -/

namespace SentinelIndex

variable {κ : Type} [DecidableEq κ]

def cells (t : SentinelIndex κ) : List (Cell κ) := t.table.map Entry.cell

/-- The shape that every operation keeps. -/
structure Shaped (t : SentinelIndex κ) : Prop where
  size : ∃ bits, t.table.length = 2 ^ bits ∧ t.mask = 2 ^ bits - 1
  initialised : ∀ entry ∈ t.table, entry.Initialised

theorem probeFrom_mod (size n x : Nat) :
    probeFrom size n (x % size) = (List.range n).map fun j => (x + j) % size := by
  induction n generalizing x with
  | zero => rfl
  | succ n ih =>
    rw [probeFrom, Nat.mod_add_mod, ih, List.range_succ_eq_map, List.map_cons, List.map_map]
    simp [Function.comp_def, Nat.add_assoc, Nat.add_comm 1]

omit [DecidableEq κ] in
theorem Shaped.and_mask {t : SentinelIndex κ} (shaped : t.Shaped) (i : Nat) :
    i &&& t.mask = i % t.table.length := by
  obtain ⟨bits, length, mask⟩ := shaped.size
  rw [length, mask, Nat.and_two_pow_sub_one_eq_mod]

omit [DecidableEq κ] in
theorem Shaped.nonempty {t : SentinelIndex κ} (shaped : t.Shaped) : 0 < t.table.length := by
  obtain ⟨bits, length, _⟩ := shaped.size
  rw [length]
  exact Nat.two_pow_pos bits

variable {t : SentinelIndex κ}

/-- An insertion at the place of the cell table. -/
def insertAt (t : SentinelIndex κ) (key : κ) (slotIdx : Nat) : Probing.Place → SentinelIndex κ × Bool
  | .vacant target =>
    ({ t with
      table := t.table.set target ⟨some key, UInt32.ofNat slotIdx⟩
      occupied := t.occupied + 1 }, true)
  | .found target =>
    ({ t with table := t.table.set target ⟨some key, UInt32.ofNat slotIdx⟩ }, true)
  | .exhausted => t.exhausted

omit [DecidableEq κ] in
theorem write_eq {t : SentinelIndex κ} {target : Nat} (inside : target < t.table.length) (key : κ)
    (slotIdx : Nat) : t.write key slotIdx target = t.insertAt key slotIdx (.vacant target) := by
  rw [write, List.getElem?_eq_getElem inside, insertAt]

/-- The loop of `insert` goes to the place of the cell table and writes there. -/
theorem insertFrom_eq (shaped : t.Shaped) (key : κ) (slotIdx n i : Nat)
    (inside : i < t.table.length) {first : Option Nat}
    (seen : ∀ target, first = some target → target < t.table.length) :
    t.insertFrom key slotIdx n i first =
      t.insertAt key slotIdx (Probing.place t.cells key (probeFrom t.table.length n i) first) := by
  induction n generalizing i first with
  | zero =>
    cases first with
    | none => rfl
    | some target => exact write_eq (seen target rfl) key slotIdx
  | succ n ih =>
    have inside' := Nat.mod_lt (i + 1) shaped.nonempty
    have next {first : Option Nat} (seen : ∀ target, first = some target → target < t.table.length) :=
      ih ((i + 1) % t.table.length) inside' seen
    rw [insertFrom, probeFrom, Probing.place]
    simp only [cells, List.getElem?_map] at next ⊢
    obtain ⟨entry, held⟩ : ∃ entry, t.table[i]? = some entry :=
      ⟨_, List.getElem?_eq_getElem inside⟩
    simp only [held, Option.map_some, shaped.and_mask]
    rcases (shaped.initialised entry (List.mem_of_getElem? held)).cases with
      ⟨empty, cell⟩ | ⟨tombstone, cell⟩ | ⟨other, nonempty, live, present, cell⟩
    -- an empty entry ends the probing; the first tombstone on the way is used instead
    · simp only [empty, cell, if_true]
      apply write_eq
      cases first with
      | none => exact inside
      | some target => exact seen target rfl
    · simp only [tombstone, SlotIdx.tombstone_ne_empty, if_true, if_false, cell]
      apply next
      intro target remembered
      cases first with
      | none =>
        obtain rfl : i = target := by simpa using remembered
        exact inside
      | some first => exact seen target (by simpa using remembered)
    · simp only [nonempty, live, present, cell, if_false, Option.some.injEq]
      by_cases same : other = key
      · simp [same, insertAt]
      · simp only [same, if_false]
        exact next seen

theorem removeFrom_eq (shaped : t.Shaped) (key : κ) (n i : Nat) :
    t.removeFrom key n i =
      match Probing.locate t.cells key (probeFrom t.table.length n i) with
      | none => (t, none)
      | some target =>
        ({ t with
          table := t.table.set target ⟨some key, SlotIdx.tombstone⟩
          occupied := t.occupied - 1 }, Probing.valueAt t.cells target) := by
  induction n generalizing i with
  | zero => rfl
  | succ n ih =>
    have next := ih ((i + 1) % t.table.length)
    rw [removeFrom, probeFrom, Probing.locate]
    simp only [cells, List.getElem?_map] at next ⊢
    cases held : t.table[i]? with
    | none => rfl
    | some entry =>
      simp only [Option.map_some, shaped.and_mask]
      rcases (shaped.initialised entry (List.mem_of_getElem? held)).cases with
        ⟨empty, cell⟩ | ⟨tombstone, cell⟩ | ⟨other, nonempty, live, present, cell⟩
      · simp [empty, cell]
      · simp only [tombstone, SlotIdx.tombstone_ne_empty, if_true, if_false, cell]
        exact next
      · simp only [nonempty, live, present, cell, if_false, Option.some.injEq]
        by_cases same : other = key
        · simp [same, Probing.valueAt, held, cell]
        · simp only [same, if_false]
          exact next

/-- A lookup is a removal that leaves the entry. -/
theorem getFrom_eq_removeFrom (t : SentinelIndex κ) (key : κ) (n i : Nat) :
    t.getFrom key n i = (t.removeFrom key n i).2 := by
  induction n generalizing i with
  | zero => rfl
  | succ n ih =>
    rw [getFrom, removeFrom]
    split
    · rfl
    · simp only [ih, apply_ite Prod.snd]

/-- Both tables are in the same state. -/
structure Encodes (t : SentinelIndex κ) (index : BoundedIndex κ) : Prop where
  shaped : t.Shaped
  hash32 : index.hash32 = t.hash32
  table : index.table = t.cells
  occupied : index.occupied = t.occupied
  probeExhausted : index.probeExhausted = t.probeExhausted

section

variable {t : SentinelIndex κ} {index : BoundedIndex κ}

omit [DecidableEq κ] in
theorem encodes_new (hash32 : κ → UInt32) (capacity : Nat) :
    Encodes (new hash32 capacity) (BoundedIndex.new hash32 capacity) := by
  -- the mask is a modulus because the size is a power of two
  obtain ⟨bits, size⟩ := Nat.isPowerOfTwo_nextPowerOfTwo (max (capacity * 2) 2)
  refine ⟨⟨⟨bits, ?_, ?_⟩, ?_⟩, rfl, ?_, rfl, rfl⟩
  · simp [new, tableSize, size]
  · simp [new, tableSize, size]
  · intro entry member
    exact .inl (by rw [List.eq_of_mem_replicate member, Entry.empty])
  · simp [new, BoundedIndex.new, cells, Entry.empty]

omit [DecidableEq κ] in
theorem Encodes.length_eq (encodes : Encodes t index) : index.table.length = t.table.length := by
  simp [encodes.table, cells]

omit [DecidableEq κ] in
theorem Encodes.probes_eq (encodes : Encodes t index) (key : κ) :
    probes index.hash32 index.table.length key =
      probeFrom t.table.length maxProbe (t.start key) := by
  rw [probes, encodes.hash32, encodes.length_eq, start, encodes.shaped.and_mask]

theorem Encodes.get (encodes : Encodes t index) (key : κ) : t.get key = index.get key := by
  rw [SentinelIndex.get, getFrom_eq_removeFrom, removeFrom_eq encodes.shaped, BoundedIndex.get,
    Probing.get, encodes.probes_eq key, encodes.table]
  cases Probing.locate t.cells key (probeFrom t.table.length maxProbe (t.start key)) <;> rfl

omit [DecidableEq κ] in
/-- One entry is overwritten. -/
theorem Shaped.set (shaped : t.Shaped) {target : Nat} {entry : Entry κ}
    (initialised : entry.Initialised) (occupied probeExhausted : Nat) :
    Shaped { t with
      table := t.table.set target entry
      occupied := occupied
      probeExhausted := probeExhausted } := by
  obtain ⟨bits, length, mask⟩ := shaped.size
  refine ⟨⟨bits, by simpa using length, mask⟩, ?_⟩
  intro other member
  rcases List.mem_or_eq_of_mem_set member with before | rfl
  · exact shaped.initialised other before
  · exact initialised

section

variable (encodes : Encodes t index) (key : κ)

include encodes

/-- An insertion, by the place that the cell table gives the key. -/
theorem Encodes.insert_eq (slotIdx : Nat) :
    t.insert key slotIdx =
      t.insertAt key slotIdx
        (Probing.place index.table key (probes index.hash32 index.table.length key) none) := by
  have shaped := encodes.shaped
  have inside : t.start key < t.table.length := by
    rw [start, shaped.and_mask]
    exact Nat.mod_lt _ shaped.nonempty
  rw [encodes.probes_eq key, encodes.table]
  exact insertFrom_eq shaped key slotIdx maxProbe _ inside (by simp)

theorem Encodes.insert_answer (slotIdx : Nat) :
    (t.insert key slotIdx).2 = (index.insert key slotIdx).2 := by
  have loop := encodes.insert_eq key slotIdx
  unfold BoundedIndex.insert
  split
  next i placed =>
    rw [placed] at loop
    rw [loop, insertAt]
  next i placed =>
    rw [placed] at loop
    rw [loop, insertAt]
  next placed =>
    rw [placed] at loop
    rw [loop, insertAt, exhausted]

theorem Encodes.insert {slotIdx : Nat} (storable : Storable slotIdx) :
    Encodes (t.insert key slotIdx).1 (index.insert key slotIdx).1 := by
  have shaped := encodes.shaped
  have new : (⟨some key, UInt32.ofNat slotIdx⟩ : Entry κ).Initialised := .inr (.inr rfl)
  have loop := encodes.insert_eq key slotIdx
  unfold BoundedIndex.insert
  split
  next i placed =>
    rw [placed] at loop
    rw [loop, insertAt]
    refine ⟨shaped.set new _ _, encodes.hash32, ?_, ?_, encodes.probeExhausted⟩
    · simp [cells, encodes.table, List.map_set, Entry.cell_live storable]
    · simp [encodes.occupied]
  next i placed =>
    rw [placed] at loop
    rw [loop, insertAt]
    refine ⟨shaped.set new _ _, encodes.hash32, ?_, encodes.occupied, encodes.probeExhausted⟩
    simp [cells, encodes.table, List.map_set, Entry.cell_live storable]
  next placed =>
    rw [placed] at loop
    rw [loop, insertAt]
    refine ⟨⟨shaped.size, shaped.initialised⟩, encodes.hash32, encodes.table, encodes.occupied, ?_⟩
    simp [exhausted, encodes.probeExhausted]

theorem Encodes.remove :
    Encodes (t.remove key).1 (index.remove key).1 ∧ (t.remove key).2 = (index.remove key).2 := by
  have shaped := encodes.shaped
  have loop : t.remove key = _ := removeFrom_eq shaped key maxProbe _
  rw [← encodes.probes_eq key, ← encodes.table] at loop
  rw [loop]
  unfold BoundedIndex.remove
  cases Probing.locate index.table key (probes index.hash32 index.table.length key) with
  | none => exact ⟨encodes, rfl⟩
  | some i =>
    refine ⟨⟨shaped.set (.inr (.inl rfl)) _ _, encodes.hash32, ?_, ?_, encodes.probeExhausted⟩, rfl⟩
    · simp [cells, List.map_set, encodes.table]
    · simp [encodes.occupied]

end

omit [DecidableEq κ] in
theorem Encodes.clear (encodes : Encodes t index) : Encodes t.clear index.clear := by
  obtain ⟨bits, length, mask⟩ := encodes.shaped.size
  refine ⟨⟨⟨bits, by simpa [SentinelIndex.clear] using length, mask⟩, ?_⟩, encodes.hash32, ?_, rfl,
    encodes.probeExhausted⟩
  · intro entry member
    obtain ⟨_, _, rfl⟩ := List.mem_map.mp member
    exact .inl rfl
  · simp [SentinelIndex.clear, BoundedIndex.clear, cells, encodes.length_eq, Function.comp_def,
      List.map_const']

omit [DecidableEq κ] in
theorem Encodes.iter (encodes : Encodes t index) : t.iter = index.iter := by
  rw [SentinelIndex.iter, BoundedIndex.iter, encodes.table, Probing.entries, cells,
    List.filterMap_map]
  apply List.filterMap_congr
  intro entry member
  rcases (encodes.shaped.initialised entry member).cases with
    ⟨empty, cell⟩ | ⟨tombstone, cell⟩ | ⟨key, nonempty, live, present, cell⟩
  · simp [empty, cell, Cell.entry?]
  · simp [tombstone, cell, Cell.entry?]
  · simp [nonempty, live, present, cell, Cell.entry?]

end

/-! ### A partial map -/

inductive IndexOp (κ : Type) where
  | get (key : κ)
  | insert (key : κ) (slotIdx : Nat)
  | remove (key : κ)
  | clear

/-- An operation on the table, and on the map it stands for: an insertion changes the map
unless it is refused. -/
def step (s : SentinelIndex κ × (κ → Option Nat)) :
    IndexOp κ → SentinelIndex κ × (κ → Option Nat)
  | .get _ => s
  | .insert key slotIdx =>
    let (t, inserted) := s.1.insert key slotIdx
    (t, if inserted then Function.update s.2 key (some slotIdx) else s.2)
  | .remove key => ((s.1.remove key).1, Function.update s.2 key none)
  | .clear => (s.1.clear, fun _ => none)

/-- The positions that an operation on the key may look at. -/
def window (t : SentinelIndex κ) (key : κ) : List Nat :=
  (List.range maxProbe).map fun j => ((t.hash32 key).toNat + j) % t.table.length

/-- What the table says is what the map says. -/
structure Refines (t : SentinelIndex κ) (map : κ → Option Nat) : Prop where
  get : ∀ key, t.get key = map key
  remove : ∀ key, (t.remove key).2 = map key
  len : t.len = Set.ncard {key | map key ≠ none}
  iter_nodup : (t.iter.map Prod.fst).Nodup
  mem_iter : ∀ key slotIdx, (key, slotIdx) ∈ t.iter ↔ map key = some slotIdx
  exhausted_iff : ∀ key slotIdx, (t.insert key slotIdx).2 = false ↔ map key = none ∧
    ∀ i ∈ t.window key, ∃ entry, t.table[i]? = some entry ∧ entry.slotIdx ≠ SlotIdx.empty ∧
      entry.slotIdx ≠ SlotIdx.tombstone

/-- The table, the cell table it encodes and the map agree. -/
structure Simulates (t : SentinelIndex κ) (map : κ → Option Nat) (index : BoundedIndex κ) : Prop where
  encodes : Encodes t index
  counted : index.Counted
  get : ∀ key, index.get key = map key

theorem Simulates.step {t : SentinelIndex κ} {map : κ → Option Nat} {index : BoundedIndex κ}
    (simulates : Simulates t map index) {op : IndexOp κ}
    (storable : ∀ key slotIdx, op = .insert key slotIdx → Storable slotIdx) :
    ∃ index', Simulates (SentinelIndex.step (t, map) op).1 (SentinelIndex.step (t, map) op).2
      index' := by
  obtain ⟨encodes, counted, get⟩ := simulates
  cases op with
  | get key => exact ⟨index, encodes, counted, get⟩
  | insert key slotIdx =>
    have encodes' := encodes.insert key (storable key slotIdx rfl)
    have answer := encodes.insert_answer key slotIdx
    refine ⟨(index.insert key slotIdx).1, encodes', counted.insert key slotIdx, ?_⟩
    intro k
    simp only [SentinelIndex.step, answer]
    cases inserted : (index.insert key slotIdx).2 with
    | true =>
      rw [BoundedIndex.get_of_insert (Prod.ext rfl inserted) k]
      simp [Function.update_apply, get]
    | false =>
      rw [BoundedIndex.get_of_insert_refused (Prod.ext rfl inserted) k]
      simp [get]
  | remove key =>
    refine ⟨(index.remove key).1, (encodes.remove key).1, counted.remove key, ?_⟩
    intro k
    rw [(index.get_remove key k).2]
    simp [SentinelIndex.step, Function.update_apply, get]
  | clear => exact ⟨index.clear, encodes.clear, index.counted_clear, by simp [SentinelIndex.step]⟩

omit [DecidableEq κ] in
theorem probeFrom_eq_window {t : SentinelIndex κ} (shaped : t.Shaped) (key : κ) :
    probeFrom t.table.length maxProbe (t.start key) = t.window key := by
  rw [start, shaped.and_mask, probeFrom_mod, window]

theorem Simulates.refines {map : κ → Option Nat} {index : BoundedIndex κ}
    (simulates : Simulates t map index) : Refines t map := by
  obtain ⟨encodes, counted, get⟩ := simulates
  have mem (key : κ) (slotIdx : Nat) : (key, slotIdx) ∈ t.iter ↔ map key = some slotIdx := by
    rw [encodes.iter, index.mem_iter, get]
  have nodup : (t.iter.map Prod.fst).Nodup := by
    rw [encodes.iter]
    exact index.nodup_iter
  constructor
  · intro key
    rw [encodes.get, get]
  · intro key
    rw [(encodes.remove key).2, (index.get_remove key key).1, get]
  · -- the keys that the iteration yields are those with a value
    have keys : {key | map key ≠ none} = ((t.iter.map Prod.fst).toFinset : Set κ) := by
      ext key
      simp [mem, Option.ne_none_iff_exists']
    rw [keys, Set.ncard_coe_finset, List.toFinset_card_of_nodup nodup, List.length_map,
      encodes.iter, len, ← encodes.occupied, counted]
  · exact nodup
  · exact mem
  · intro key slotIdx
    rw [encodes.insert_answer, index.insert_eq_false_iff, get, encodes.probes_eq,
      probeFrom_eq_window encodes.shaped]
    -- no entry in the window is free, in either table
    have live (i : Nat) : (∃ other value, index.table[i]? = some (.live other value)) ↔
        ∃ entry, t.table[i]? = some entry ∧ entry.slotIdx ≠ SlotIdx.empty ∧
          entry.slotIdx ≠ SlotIdx.tombstone := by
      rw [encodes.table, cells, List.getElem?_map]
      cases held : t.table[i]? with
      | none => simp
      | some entry =>
        rcases (encodes.shaped.initialised entry (List.mem_of_getElem? held)).cases with
          ⟨empty, cell⟩ | ⟨tombstone, cell⟩ | ⟨key, nonempty, live, present, cell⟩
        · simp [empty, cell]
        · simp [tombstone, cell]
        · simp [nonempty, live, cell]
    simp only [live]

theorem simulates_new (hash32 : κ → UInt32) (capacity : Nat) :
    Simulates (new hash32 capacity) (fun _ => none) (BoundedIndex.new hash32 capacity) :=
  ⟨encodes_new hash32 capacity, BoundedIndex.counted_new hash32 capacity, by simp⟩

/-- Every slot number that is inserted is below the sentinels. -/
def AllStorable (ops : List (IndexOp κ)) : Prop :=
  ∀ op ∈ ops, ∀ key slotIdx, op = .insert key slotIdx → Storable slotIdx

/-- After every sequence of operations the table is the map that these operations make. -/
theorem index_refines_map (hash32 : κ → UInt32) (capacity : Nat) (ops : List (IndexOp κ))
    (storable : AllStorable ops) :
    let s := Steps.run step (new hash32 capacity, fun _ => none) ops
    Refines s.1 s.2 := by
  intro s
  have guarded : Steps.Guarded step (fun _ op => ∀ key slotIdx, op = .insert key slotIdx →
      Storable slotIdx) (new hash32 capacity, fun _ => none) ops :=
    Steps.guarded_of_forall _ storable
  have keeps (s : SentinelIndex κ × (κ → Option Nat)) (op : IndexOp κ)
      (simulates : ∃ index, Simulates s.1 s.2 index)
      (storable : ∀ key slotIdx, op = .insert key slotIdx → Storable slotIdx) :
      ∃ index, Simulates (step s op).1 (step s op).2 index := by
    obtain ⟨index, simulates⟩ := simulates
    exact simulates.step storable
  obtain ⟨index, simulates⟩ : ∃ index, Simulates s.1 s.2 index :=
    guarded.invariant keeps ⟨_, simulates_new hash32 capacity⟩
  exact simulates.refines

theorem index_refines_map_colliding :
    let ops : List (IndexOp UInt32) := [.insert 1 10, .insert 2 20, .remove 1, .insert 3 30]
    let s := Steps.run step (new (fun _ => 0) 1, fun _ => none) ops
    s.1.len = 2 ∧ Refines s.1 s.2 := by
  refine ⟨by decide +kernel, index_refines_map (fun _ => 0) 1 _ ?_⟩
  intro op member key slotIdx same
  simp only [List.mem_cons, List.not_mem_nil, or_false] at member
  rcases member with rfl | rfl | rfl | rfl <;> cases same <;> decide

/-- The slot number is cut to 32 bits: what was inserted is not what is found. -/
theorem index_truncates_slotIdx :
    let s := step (new mix32 4, fun _ => none) (.insert 7 (2 ^ 32))
    ¬Refines s.1 s.2 := by
  intro s refines
  have get := refines.get 7
  revert get
  decide +kernel

end SentinelIndex

end Varta.Watch
