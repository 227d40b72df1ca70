import Varta.Exporter.IpStateTable
import Varta.Lib.Steps

/-!
# The limit of each source address

`allow_ip` of `exporter/http.rs`: a token bucket for each source address of a connection, in
milli-tokens. An instant is its nanosecond.
-/
namespace Varta.Exporter

open Machine

def maxPromIpStates : Nat := 1024

def promIpStateTtl : Nat := 60 * 1000000000

def promIpStateSweepInterval : Nat := 10 * 1000000000

structure PromIpState where
  tokensMilli : Nat
  lastRefill : Nat
  lastSeen : Nat
  deriving DecidableEq, Repr

inductive DropReason where
  | drain
  | rateLimit
  | ipTableFull
  deriving DecidableEq, Repr

/-- What `allow_ip` reads of a `PromExporter`. -/
structure IpLimiter where
  ipState : IpStateTable PromIpState
  ratePerSec : UInt32
  rateBurst : UInt32
  lastIpSweep : Nat
  connectionsDroppedTotal : DropReason → Nat

/-- The part of `allow_ip` in front of `last_seen`. -/
def PromIpState.refill (capMilli refillPerMs now : Nat) (st : PromIpState) : PromIpState :=
  let elapsedMs := min ((now - st.lastRefill) / 1000000) (u64Bound - 1)
  if elapsedMs > 0 then
    let addMilli := min (elapsedMs * refillPerMs) capMilli
    { st with
      tokensMilli := min (u64SaturatingAdd st.tokensMilli addMilli) capMilli
      lastRefill := now }
  else st

namespace IpLimiter

def new (ratePerSec rateBurst : UInt32) (now : Nat) : IpLimiter :=
  ⟨.withCapacity maxPromIpStates, ratePerSec, rateBurst, now, fun _ => 0⟩

variable (l : IpLimiter) (ip : IpAddr) (now : Nat)

def disabled : Bool := l.rateBurst = 0 ∨ l.ratePerSec = 0

def capMilli : Nat := u64SaturatingMul l.rateBurst.toNat 1000

/-- 1000 milli-tokens per 1000 ms. -/
def refillPerMs : Nat := l.ratePerSec.toNat

def countDrop (reason : DropReason) : IpLimiter :=
  let total := u64SaturatingAdd (l.connectionsDroppedTotal reason) 1
  { l with connectionsDroppedTotal := Function.update l.connectionsDroppedTotal reason total }

def evictStale : IpLimiter :=
  { l with ipState := l.ipState.evictOlderThan PromIpState.lastSeen now promIpStateTtl }

def sweep : IpLimiter :=
  if now - l.lastIpSweep ≥ promIpStateSweepInterval then
    { l with lastIpSweep := now }.evictStale now
  else l

/-- The source has a bucket. -/
def allowKnown (st : PromIpState) : Bool × IpLimiter :=
  let st := { st.refill l.capMilli l.refillPerMs now with lastSeen := now }
  if st.tokensMilli ≥ 1000 then
    (true, { l with ipState := l.ipState.put ip { st with tokensMilli := st.tokensMilli - 1000 } })
  else (false, { l with ipState := l.ipState.put ip st }.countDrop .rateLimit)

/-- Stale entries go first. -/
def relieve : IpLimiter := if l.ipState.len ≥ maxPromIpStates then l.evictStale now else l

/-- The address that is forced out of a table that is still full. -/
def oldest : Option IpAddr :=
  if l.ipState.len ≥ maxPromIpStates then l.ipState.oldestIp PromIpState.lastSeen else none

/-- Whether the pressure was recorded, and the table with room for one more. -/
def forceRoom : Bool × IpLimiter :=
  if l.ipState.len ≥ maxPromIpStates then
    let l := match l.oldest with
      | some oldestIp => { l with ipState := (l.ipState.remove oldestIp).2 }
      | none => l
    (true, l.countDrop .ipTableFull)
  else (false, l)

/-- A source without a bucket gets a full one, less this connection. -/
def allowNew : Bool × IpLimiter :=
  match (l.relieve now).forceRoom with
  | (recordedTablePressure, l) =>
    match l.ipState.insert ip ⟨l.capMilli - 1000, now, now⟩ with
    | (true, table) => (true, { l with ipState := table })
    | (false, table) =>
      let l := { l with ipState := table }
      (false, if recordedTablePressure then l else l.countDrop .ipTableFull)

def allowIp : Bool × IpLimiter :=
  if l.disabled then (true, l)
  else
    let l := l.sweep now
    match l.ipState.get ip with
    | some st => l.allowKnown ip now st
    | none => l.allowNew ip now

/-! ### What a call takes away -/

/-- The address that a call forces out of a full table. -/
def forcedOut : Option IpAddr :=
  if l.disabled then none
  else
    match (l.sweep now).ipState.get ip with
    | some _ => none
    | none => ((l.sweep now).relieve now).oldest

/-- The table once a call has evicted what it evicts. -/
def afterEvictions : IpStateTable PromIpState :=
  match (l.sweep now).ipState.get ip with
  | some _ => (l.sweep now).ipState
  | none => ((l.sweep now).relieve now).forceRoom.2.ipState

/-- The call evicts the entry of `source`. -/
def evicts (source : IpAddr) : Bool :=
  (l.ipState.get source).isSome && ((l.afterEvictions ip now).get source).isNone

/-- The call finds the bucket of its source empty. -/
def rateLimited : Bool :=
  ((l.sweep now).ipState.get ip).isSome && !(l.allowIp ip now).1

/-! ### Runs -/

/-- One connection. -/
def connect (call : IpAddr × Nat) : IpLimiter := (l.allowIp call.1 call.2).2

/-- A connection of `source` is allowed from `s` to `t`. -/
def allowsWithin (source : IpAddr) (s t : Nat) (call : IpAddr × Nat) : Bool :=
  call.1 = source && (l.allowIp call.1 call.2).1 && decide (s ≤ call.2 ∧ call.2 ≤ t)

end IpLimiter

/-! ### What a call does to one source -/

/-- A call of any source, as the entry of one source sees it: whether it is the source's own
call, whether it was allowed and whether it evicted the entry. -/
inductive Effect (capMilli refillPerMs now : Nat) (forced : Prop) :
    (own allowed evicted : Bool) → Option PromIpState → Option PromIpState → Prop
  | kept (allowed : Bool) (entry : Option PromIpState) :
    Effect capMilli refillPerMs now forced false allowed false entry entry
  | expired (allowed : Bool) {st : PromIpState} (idle : promIpStateTtl ≤ now - st.lastSeen) :
    Effect capMilli refillPerMs now forced false allowed true (some st) none
  | forcedOut (allowed : Bool) {st : PromIpState} (out : forced) :
    Effect capMilli refillPerMs now forced false allowed true (some st) none
  | spent {st : PromIpState} (enough : 1000 ≤ (st.refill capMilli refillPerMs now).tokensMilli) :
    Effect capMilli refillPerMs now forced true true false (some st)
      (some ⟨(st.refill capMilli refillPerMs now).tokensMilli - 1000,
        (st.refill capMilli refillPerMs now).lastRefill, now⟩)
  | refused {st : PromIpState} (short : (st.refill capMilli refillPerMs now).tokensMilli < 1000) :
    Effect capMilli refillPerMs now forced true false false (some st)
      (some ⟨(st.refill capMilli refillPerMs now).tokensMilli,
        (st.refill capMilli refillPerMs now).lastRefill, now⟩)
  | created {entry : Option PromIpState}
    (gone : ∀ st, entry = some st → promIpStateTtl ≤ now - st.lastSeen) :
    Effect capMilli refillPerMs now forced true true entry.isSome entry
      (some ⟨capMilli - 1000, now, now⟩)
  | crowded {entry : Option PromIpState}
    (gone : ∀ st, entry = some st → promIpStateTtl ≤ now - st.lastSeen) :
    Effect capMilli refillPerMs now forced true false entry.isSome entry none

/-- An entry survives, or it was stale. -/
def Faded (now : Nat) (before after : Option PromIpState) : Prop :=
  after = before ∨ after = none ∧ ∀ st, before = some st → promIpStateTtl ≤ now - st.lastSeen

theorem Faded.trans {now : Nat} {before between after : Option PromIpState}
    (first : Faded now before between) (second : Faded now between after) : Faded now before after := by
  rcases first with rfl | ⟨rfl, stale⟩
  · exact second
  · -- what is gone stays away
    refine .inr ⟨?_, stale⟩
    rcases second with rfl | ⟨rfl, -⟩ <;> rfl

/-- A call of another source keeps an entry or lets it expire. -/
theorem Effect.of_faded {capMilli refillPerMs now : Nat} {forced : Prop}
    {before after : Option PromIpState} (faded : Faded now before after) (allowed : Bool) :
    Effect capMilli refillPerMs now forced false allowed (before.isSome && after.isNone)
      before after := by
  rcases faded with rfl | ⟨rfl, stale⟩
  · cases after <;> exact .kept ..
  · cases before with
    | none => exact .kept ..
    | some st => exact .expired allowed (stale st rfl)

namespace IpLimiter

variable {l : IpLimiter} {ip source : IpAddr} {now : Nat}

theorem evictStale_get (wf : l.ipState.Wf) (k : IpAddr) :
    (l.evictStale now).ipState.Wf ∧
      Faded now (l.ipState.get k) ((l.evictStale now).ipState.get k) := by
  obtain ⟨kept, get⟩ := @IpStateTable.evictOlderThan_get _ PromIpState.lastSeen l.ipState now
    promIpStateTtl wf
  refine ⟨kept, ?_⟩
  have swept : (l.evictStale now).ipState.get k = _ := get k
  rw [Faded, swept]
  cases l.ipState.get k with
  | none => exact .inl rfl
  | some st =>
    by_cases idle : promIpStateTtl ≤ now - st.lastSeen
    · exact .inr ⟨by simp [Option.filter_some, idle], by rintro _ ⟨⟩; exact idle⟩
    · exact .inl (by simp [Option.filter_some, Nat.lt_of_not_le idle])

theorem sweep_get (wf : l.ipState.Wf) (k : IpAddr) : (l.sweep now).ipState.Wf ∧
    Faded now (l.ipState.get k) ((l.sweep now).ipState.get k) := by
  unfold sweep
  split
  · exact evictStale_get wf k
  · exact ⟨wf, .inl rfl⟩

theorem relieve_get (wf : l.ipState.Wf) (k : IpAddr) : (l.relieve now).ipState.Wf ∧
    Faded now (l.ipState.get k) ((l.relieve now).ipState.get k) := by
  unfold relieve
  split
  · exact evictStale_get wf k
  · exact ⟨wf, .inl rfl⟩

/-- Only the oldest entry is forced out. -/
theorem forceRoom_get (wf : l.ipState.Wf) (k : IpAddr) : l.forceRoom.2.ipState.Wf ∧
    l.forceRoom.2.ipState.get k = if l.oldest = some k then none else l.ipState.get k := by
  unfold forceRoom
  by_cases full : l.ipState.len ≥ maxPromIpStates
  · simp only [full, ↓reduceIte]
    cases l.oldest with
    | none => exact ⟨wf, rfl⟩
    | some oldestIp =>
      obtain ⟨-, kept, get⟩ := wf.remove oldestIp
      refine ⟨kept, (get k).trans ?_⟩
      simp only [Option.some.injEq, @eq_comm _ k]
  · simp only [full, ↓reduceIte, oldest]
    exact ⟨wf, by simp⟩

/-- The settings stay. -/
def Same (l l' : IpLimiter) : Prop := l'.ratePerSec = l.ratePerSec ∧ l'.rateBurst = l.rateBurst

theorem Same.cap {l' : IpLimiter} (same : Same l l') : l'.capMilli = l.capMilli := by
  rw [capMilli, capMilli, same.2]

theorem Same.rate {l' : IpLimiter} (same : Same l l') : l'.refillPerMs = l.refillPerMs := by
  rw [refillPerMs, refillPerMs, same.1]

theorem sweep_same : Same l (l.sweep now) := by
  unfold sweep
  split <;> exact ⟨rfl, rfl⟩

theorem relieve_same : Same l (l.relieve now) := by
  unfold relieve
  split <;> exact ⟨rfl, rfl⟩

theorem forceRoom_same : Same l l.forceRoom.2 := by
  unfold forceRoom
  split
  · cases l.oldest <;> exact ⟨rfl, rfl⟩
  · exact ⟨rfl, rfl⟩

/-- A call of a source whose bucket is there. -/
theorem allowKnown_get {st : PromIpState} (wf : l.ipState.Wf) (known : l.ipState.get ip = some st) :
    (l.allowKnown ip now st).2.ipState.Wf ∧ Same l (l.allowKnown ip now st).2 ∧
      (∀ k, k ≠ ip → (l.allowKnown ip now st).2.ipState.get k = l.ipState.get k) ∧
      ∀ forced, Effect l.capMilli l.refillPerMs now forced true (l.allowKnown ip now st).1 false
        (some st) ((l.allowKnown ip now st).2.ipState.get ip) := by
  unfold allowKnown
  by_cases enough : 1000 ≤ (st.refill l.capMilli l.refillPerMs now).tokensMilli
  · simp only [ge_iff_le, enough, ↓reduceIte]
    obtain ⟨kept, get⟩ := wf.put known
      ⟨(st.refill l.capMilli l.refillPerMs now).tokensMilli - 1000,
        (st.refill l.capMilli l.refillPerMs now).lastRefill, now⟩
    refine ⟨kept, ⟨rfl, rfl⟩, fun k other => (get k).trans (if_neg other), fun forced => ?_⟩
    rw [get ip, if_pos rfl]
    exact .spent enough
  · simp only [ge_iff_le, enough, ↓reduceIte]
    obtain ⟨kept, get⟩ := wf.put known { st.refill l.capMilli l.refillPerMs now with lastSeen := now }
    refine ⟨kept, ⟨rfl, rfl⟩, fun k other => (get k).trans (if_neg other), fun forced => ?_⟩
    simp only [countDrop]
    rw [get ip, if_pos rfl]
    exact .refused (Nat.lt_of_not_le enough)

/-- A call of a source that has no bucket. -/
theorem allowNew_get (wf : l.ipState.Wf) (absent : l.ipState.get ip = none) :
    (l.allowNew ip now).2.ipState.Wf ∧ Same l (l.allowNew ip now).2 ∧
      (∀ k, k ≠ ip →
        (l.allowNew ip now).2.ipState.get k = (l.relieve now).forceRoom.2.ipState.get k) ∧
      ((l.allowNew ip now).1 = true ∧
          (l.allowNew ip now).2.ipState.get ip = some ⟨l.capMilli - 1000, now, now⟩ ∨
        (l.allowNew ip now).1 = false ∧ (l.allowNew ip now).2.ipState.get ip = none) := by
  obtain ⟨relieved, faded⟩ := @relieve_get l now wf ip
  obtain ⟨roomy, get⟩ := forceRoom_get relieved ip
  have same : Same l (l.relieve now).forceRoom.2 :=
    ⟨forceRoom_same.1.trans relieve_same.1, forceRoom_same.2.trans relieve_same.2⟩
  -- evictions bring nothing back
  have missing : (l.relieve now).forceRoom.2.ipState.get ip = none := by
    rw [get]
    rcases faded with kept | ⟨gone, -⟩
    · rw [kept, absent, ite_self]
    · rw [gone, ite_self]
  unfold allowNew
  generalize (l.relieve now).forceRoom = room at roomy same missing ⊢
  obtain ⟨recordedTablePressure, m⟩ := room
  dsimp only at roomy same missing ⊢
  rw [IpStateTable.insert_of_absent roomy missing, same.cap]
  generalize claimed : SlotTable.claim m.ipState ip ⟨l.capMilli - 1000, now, now⟩ = answer
  obtain ⟨_ | _, table⟩ := answer
  · obtain ⟨kept, get⟩ := roomy.claim_refused claimed
    have counted : (if recordedTablePressure then { m with ipState := table }
        else { m with ipState := table }.countDrop .ipTableFull).ipState = table := by
      split <;> rfl
    have settings : Same m (if recordedTablePressure then { m with ipState := table }
        else { m with ipState := table }.countDrop .ipTableFull) := by
      split <;> exact ⟨rfl, rfl⟩
    dsimp only
    rw [counted]
    exact ⟨kept, ⟨settings.1.trans same.1, settings.2.trans same.2⟩, fun k _ => get k,
      .inr ⟨rfl, (get ip).trans missing⟩⟩
  · obtain ⟨kept, get⟩ := roomy.claim missing claimed
    exact ⟨kept, same, fun k other => (get k).trans (if_neg other),
      .inl ⟨rfl, (get ip).trans (if_pos rfl)⟩⟩

/-- What a call does to the entry of `source`. -/
theorem allowIp_effect (wf : l.ipState.Wf) (enabled : l.disabled = false) (ip source : IpAddr)
    (now : Nat) : (l.allowIp ip now).2.ipState.Wf ∧ Same l (l.allowIp ip now).2 ∧
      Effect l.capMilli l.refillPerMs now (l.forcedOut ip now = some source) (ip = source)
        (l.allowIp ip now).1 (l.evicts ip now source) (l.ipState.get source)
        ((l.allowIp ip now).2.ipState.get source) := by
  obtain ⟨swept, faded⟩ := @sweep_get l now wf source
  have settings := @sweep_same l now
  unfold allowIp evicts afterEvictions forcedOut
  simp only [enabled, Bool.false_eq_true, ↓reduceIte]
  cases known : (l.sweep now).ipState.get ip with
  | some st =>
    obtain ⟨kept, same, others, own⟩ := @allowKnown_get _ ip now st swept known
    refine ⟨kept, ⟨same.1.trans settings.1, same.2.trans settings.2⟩, ?_⟩
    by_cases mine : ip = source
    · -- its bucket was there before the sweep as well
      subst mine
      rw [known] at faded
      obtain present | ⟨absurd, -⟩ := faded
      · have effect := own (none = some ip)
        rw [settings.cap, settings.rate] at effect
        simpa [← present, known] using effect
      · cases absurd
    · rw [decide_eq_false mine, others source (Ne.symm mine)]
      exact Effect.of_faded faded _
  | none =>
    obtain ⟨kept, same, others, own⟩ := @allowNew_get _ ip now swept known
    refine ⟨kept, ⟨same.1.trans settings.1, same.2.trans settings.2⟩, ?_⟩
    obtain ⟨relieved, faded_again⟩ := @relieve_get _ now swept source
    have forced := (forceRoom_get relieved source).2
    by_cases mine : ip = source
    · subst mine
      have gone : ∀ st, l.ipState.get ip = some st → promIpStateTtl ≤ now - st.lastSeen := by
        intro st present
        rcases faded with same | ⟨-, stale⟩
        · rw [known, present] at same
          cases same
        · exact stale st present
      have missing : ((l.sweep now).relieve now).forceRoom.2.ipState.get ip = none := by
        rw [forced]
        rw [known] at faded_again
        rcases faded_again with absent | ⟨absent, -⟩ <;> rw [absent, ite_self]
      rw [settings.cap] at own
      simp only [missing, Option.isNone_none, Bool.and_true, decide_true]
      rcases own with ⟨allowed, entry⟩ | ⟨dropped, entry⟩
      · rw [allowed, entry]
        exact .created gone
      · rw [dropped, entry]
        exact .crowded gone
    · rw [decide_eq_false mine, others source (Ne.symm mine), forced]
      by_cases out : ((l.sweep now).relieve now).oldest = some source
      · simp only [out, ↓reduceIte]
        cases present : l.ipState.get source with
        | none => exact .kept ..
        | some st => exact .forcedOut _ trivial
      · simp only [out, ↓reduceIte]
        exact Effect.of_faded (faded.trans faded_again) _

end IpLimiter

end Varta.Exporter
