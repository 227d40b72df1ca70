import Varta.Exporter.SlotTable

/-!
# The table of source addresses

`ip_state_table.rs`: one state for each source address, a sweep of the stale ones, and the
address that was seen longest ago.
-/
namespace Varta.Exporter

open Watch (mix32)

/-- An address by the big-endian words of its octets. -/
inductive IpAddr where
  | v4 (word : UInt32)
  | v6 (c0 c1 c2 c3 : UInt32)
  deriving DecidableEq, Repr

def rotateLeft (word n : UInt32) : UInt32 := (word <<< n) ||| (word >>> (32 - n))

def IpAddr.hash32 : IpAddr → UInt32
  | .v4 word => mix32 word
  | .v6 c0 c1 c2 c3 =>
    mix32 (c0 ^^^ rotateLeft c1 7 ^^^ rotateLeft c2 13 ^^^ rotateLeft c3 19)

abbrev IpStateTable (V : Type) := SlotTable IpAddr V

namespace IpStateTable

variable {V : Type}

def withCapacity (capacity : Nat) : IpStateTable V := SlotTable.withCapacity IpAddr.hash32 capacity

/-- The first component is `false` for `Err(Full)`. -/
def insert (t : IpStateTable V) (ip : IpAddr) (state : V) : Bool × IpStateTable V :=
  match t.index.get ip with
  | some idx =>
    match t.slab[idx]? with
    | some _ => (true, { t with slab := t.slab.set idx (some (ip, state)) })
    | none => t.claim ip state
  | none => t.claim ip state

section

variable (lastSeen : V → Nat) (t : IpStateTable V) (now ttl : Nat)

/-- `evict_scratch` after the scan. -/
def stale : List IpAddr :=
  ((t.slab.filterMap id).filter fun slot => ttl ≤ now - lastSeen slot.2).map Prod.fst

/-- The scratch list is emptied from its end. -/
def evictOlderThan : IpStateTable V :=
  (stale lastSeen t now ttl).reverse.foldl (fun t ip => (t.remove ip).2) t

/-- One round of the loop of `oldest_ip`. -/
def older (best : Option (IpAddr × Nat)) (slot : IpAddr × V) : Option (IpAddr × Nat) :=
  match best with
  | none => some (slot.1, lastSeen slot.2)
  | some (ip, seen) =>
    if lastSeen slot.2 < seen then some (slot.1, lastSeen slot.2) else some (ip, seen)

def oldestIp : Option IpAddr := ((t.slab.filterMap id).foldl (older lastSeen) none).map Prod.fst

end

/-! ### The map -/

variable {lastSeen : V → Nat} {t t' : IpStateTable V} {ip : IpAddr} {state : V} {now ttl : Nat}

theorem insert_of_absent (wf : t.Wf) (absent : t.get ip = none) :
    t.insert ip state = t.claim ip state := by
  rw [insert, wf.get_eq_none.mp absent]

theorem removeAll (wf : t.Wf) (ips : List IpAddr) :
    (ips.foldl (fun t ip => (t.remove ip).2) t).Wf ∧
      ∀ k, (ips.foldl (fun t ip => (t.remove ip).2) t).get k = if k ∈ ips then none else t.get k := by
  induction ips generalizing t with
  | nil => exact ⟨wf, fun k => by simp⟩
  | cons ip ips ih =>
    obtain ⟨-, removed, get⟩ := wf.remove ip
    obtain ⟨kept, gone⟩ := ih removed
    refine ⟨kept, fun k => (gone k).trans ?_⟩
    rw [get k]
    by_cases first : k = ip
    · simp [first]
    · simp [first]

theorem mem_stale (wf : t.Wf) :
    ip ∈ stale lastSeen t now ttl ↔ ∃ state, t.get ip = some state ∧ ttl ≤ now - lastSeen state := by
  simp only [stale, List.mem_map, List.mem_filter, List.mem_filterMap, id_eq,
    exists_eq_right, decide_eq_true_eq, Prod.exists, exists_and_right]
  constructor
  · rintro ⟨state, held, old⟩
    exact ⟨state, wf.get_of_mem held, old⟩
  · rintro ⟨state, found, old⟩
    obtain ⟨idx, -, held⟩ := wf.held found
    exact ⟨state, List.mem_of_getElem? held, old⟩

/-- A sweep takes out what is stale, and nothing else. -/
theorem evictOlderThan_get (wf : t.Wf) : (evictOlderThan lastSeen t now ttl).Wf ∧
    ∀ k, (evictOlderThan lastSeen t now ttl).get k =
      (t.get k).filter fun state => ¬ ttl ≤ now - lastSeen state := by
  obtain ⟨kept, gone⟩ := removeAll wf (stale lastSeen t now ttl).reverse
  refine ⟨kept, fun k => (gone k).trans ?_⟩
  simp only [List.mem_reverse, mem_stale wf]
  cases found : t.get k with
  | none => simp
  | some state =>
    by_cases old : ttl ≤ now - lastSeen state
    · simp [Option.filter_some, old]
    · simp [Option.filter_some, Nat.lt_of_not_le old]

end IpStateTable

end Varta.Exporter
