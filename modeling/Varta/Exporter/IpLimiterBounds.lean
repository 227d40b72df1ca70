import Varta.Exporter.IpLimiter
import Varta.Watch.RateLimit

/-!
# What a source address is allowed

Two bounds for `allow_ip`. From above: what a source is allowed in a window, as long as the
limits leave no room for a bucket that comes back full too early, or for one that is refilled
for time in which it was full. From below: a source that keeps to its rate is not dropped, as
long as no refill rounds.
-/
namespace Varta.Exporter

open Machine
open TokenBucket (Bucket Level)

section

variable {capMilli refillPerMs now since t : Nat} {st : PromIpState}

/-- A refill moves the bucket to `now`, or less than a millisecond has passed. -/
theorem PromIpState.refill_cases (capMilli refillPerMs now : Nat) (st : PromIpState) :
    (st.refill capMilli refillPerMs now = st ∧ now < st.lastRefill + 1000000) ∨
      st.lastRefill ≤ now ∧ (st.refill capMilli refillPerMs now).lastRefill = now ∧
        (st.refill capMilli refillPerMs now).tokensMilli ≤ capMilli ∧
        ∃ elapsedMs, 1000000 * elapsedMs ≤ now - st.lastRefill ∧
          (st.refill capMilli refillPerMs now).tokensMilli ≤
            st.tokensMilli + elapsedMs * refillPerMs := by
  unfold refill
  by_cases elapsed : min ((now - st.lastRefill) / 1000000) (u64Bound - 1) > 0
  · simp only [elapsed, ↓reduceIte]
    refine .inr ⟨by omega, trivial, Nat.min_le_right .., _, ?_,
      (Nat.min_le_left ..).trans ((Nat.min_le_left ..).trans (Nat.add_le_add_left
        (Nat.min_le_left ..) _))⟩
    omega
  · simp only [elapsed, ↓reduceIte, true_and]
    unfold u64Bound at elapsed
    omega

-- from here on a refill is what the lemma above says
attribute [local irreducible] PromIpState.refill

theorem span_mul {a b c rate : Nat} (first : a ≤ b) (second : b ≤ c) :
    (c - a) * rate = (b - a) * rate + (c - b) * rate := by
  rw [← Nat.add_mul]
  congr 1
  omega

/-- Of what a bucket may still give until `t`, a refill takes nothing. -/
theorem PromIpState.refill_credit (until_t : now ≤ t) :
    1000000 * (st.refill capMilli refillPerMs now).tokensMilli +
        (t - (st.refill capMilli refillPerMs now).lastRefill) * refillPerMs ≤
      1000000 * st.tokensMilli + (t - st.lastRefill) * refillPerMs := by
  rcases refill_cases capMilli refillPerMs now st with
    ⟨same, -⟩ | ⟨earlier, moved, -, elapsedMs, whole, added⟩
  · rw [same]
  · rw [moved]
    have flow : 1000000 * (elapsedMs * refillPerMs) ≤ (now - st.lastRefill) * refillPerMs :=
      calc 1000000 * (elapsedMs * refillPerMs)
          = 1000000 * elapsedMs * refillPerMs := (Nat.mul_assoc ..).symm
        _ ≤ (now - st.lastRefill) * refillPerMs := Nat.mul_le_mul_right _ whole
    have spans := @span_mul st.lastRefill now t refillPerMs earlier until_t
    omega

/-- An entry between two calls. -/
structure Sane (capMilli since : Nat) (st : PromIpState) : Prop where
  refilled : st.lastRefill ≤ st.lastSeen
  seen : st.lastSeen ≤ since
  /-- The last call has taken a token, or it found too little. -/
  tapped : st.tokensMilli + 1000 ≤ capMilli ∨ st.tokensMilli < 1000

/-- An entry between two calls, if there is one. -/
def SaneEntry (capMilli since : Nat) (entry : Option PromIpState) : Prop :=
  ∀ st, entry = some st → Sane capMilli since st

theorem Sane.refill_lastRefill (sane : Sane capMilli since st) (later : since ≤ now) :
    (st.refill capMilli refillPerMs now).lastRefill ≤ now := by
  have refilled := sane.refilled
  have seen := sane.seen
  rcases st.refill_cases capMilli refillPerMs now with ⟨same, -⟩ | ⟨-, moved, -⟩
  · rw [same]
    omega
  · exact Nat.le_of_eq moved

theorem Sane.refill_le (sane : Sane capMilli since st) (positive : 1000 ≤ capMilli) :
    (st.refill capMilli refillPerMs now).tokensMilli ≤ capMilli := by
  have tapped := sane.tapped
  rcases st.refill_cases capMilli refillPerMs now with ⟨same, -⟩ | ⟨-, -, bounded, -⟩
  · rw [same]
    omega
  · exact bounded

variable {forced : Prop} {own allowed evicted : Bool} {before after : Option PromIpState}

theorem Effect.sane (positive : 1000 ≤ capMilli) (later : since ≤ now)
    (sane : SaneEntry capMilli since before)
    (effect : Effect capMilli refillPerMs now forced own allowed evicted before after) :
    SaneEntry capMilli now after := by
  cases effect with
  | kept =>
    intro st present
    have held := sane st present
    exact ⟨held.refilled, held.seen.trans later, held.tapped⟩
  | expired => rintro _ ⟨⟩
  | forcedOut => rintro _ ⟨⟩
  | @spent old enough =>
    intro st present
    obtain rfl := Option.some.inj present
    have full := @Sane.refill_le capMilli refillPerMs now since old (sane old rfl) positive
    have moved := @Sane.refill_lastRefill capMilli refillPerMs now since old (sane old rfl) later
    constructor
    · dsimp only
      exact moved
    · exact Nat.le_refl _
    · exact .inl ((Nat.sub_add_cancel enough).trans_le full)
  | @refused old short =>
    rintro _ ⟨⟩
    exact ⟨(sane old rfl).refill_lastRefill later, Nat.le_refl _, .inr short⟩
  | created =>
    intro st present
    obtain rfl := Option.some.inj present
    exact ⟨Nat.le_refl _, Nat.le_refl _, .inl (Nat.sub_add_cancel positive).le⟩
  | crowded => rintro _ ⟨⟩

/-! ### From above -/

/-- What a source may still be allowed until `t`, in millionths of a milli-token, if no call
came before `since`. -/
def credit (capMilli refillPerMs since t : Nat) : Option PromIpState → Nat
  | some st => 1000000 * st.tokensMilli + (t - st.lastRefill) * refillPerMs
  | none => 1000000 * capMilli + (t - since) * refillPerMs

/-- A stale entry was as good as a full bucket. -/
theorem credit_of_stale (slow : 1000000 * capMilli ≤ promIpStateTtl * refillPerMs)
    (sane : SaneEntry capMilli since before) (later : since ≤ now) (until_t : now ≤ t)
    (gone : ∀ st, before = some st → promIpStateTtl ≤ now - st.lastSeen) :
    1000000 * capMilli + (t - now) * refillPerMs ≤ credit capMilli refillPerMs since t before := by
  cases before with
  | none =>
    have shorter : (t - now) * refillPerMs ≤ (t - since) * refillPerMs :=
      Nat.mul_le_mul_right _ (by omega)
    exact Nat.add_le_add_left shorter _
  | some st =>
    have idle := gone st rfl
    have refilled := (sane st rfl).refilled
    have flow : (promIpStateTtl + (t - now)) * refillPerMs ≤ (t - st.lastRefill) * refillPerMs :=
      Nat.mul_le_mul_right _ (by unfold promIpStateTtl at *; omega)
    rw [Nat.add_mul] at flow
    simp only [credit]
    omega

/-- A call is paid from the credit of its source. -/
theorem Effect.credit_le (positive : 1000 ≤ capMilli)
    (slow : 1000000 * capMilli ≤ promIpStateTtl * refillPerMs)
    (sane : SaneEntry capMilli since before) (later : since ≤ now) (until_t : now ≤ t)
    (effect : Effect capMilli refillPerMs now False own allowed evicted before after) :
    1000000000 * (own && allowed).toNat + credit capMilli refillPerMs now t after ≤
      credit capMilli refillPerMs since t before := by
  cases effect with
  | kept =>
    rw [Bool.false_and, Bool.toNat_false, Nat.mul_zero, Nat.zero_add]
    cases before with
    | none => exact credit_of_stale slow sane later until_t (by rintro _ ⟨⟩)
    | some st => exact Nat.le_refl _
  | expired _ idle =>
    rw [Bool.false_and, Bool.toNat_false, Nat.mul_zero, Nat.zero_add]
    refine credit_of_stale slow sane later until_t ?_
    rintro _ ⟨⟩
    exact idle
  | forcedOut _ out => exact out.elim
  | @spent old enough =>
    have paid := @PromIpState.refill_credit capMilli refillPerMs now t old until_t
    simp only [credit, Bool.and_self, Bool.toNat_true]
    omega
  | @refused old short =>
    have paid := @PromIpState.refill_credit capMilli refillPerMs now t old until_t
    simp only [credit, Bool.and_false, Bool.toNat_false]
    omega
  | created gone =>
    have full := credit_of_stale slow sane later until_t gone
    simp only [credit, Bool.and_self, Bool.toNat_true] at full ⊢
    omega
  | crowded gone =>
    rw [Bool.and_false, Bool.toNat_false, Nat.mul_zero, Nat.zero_add]
    exact credit_of_stale slow sane later until_t gone

/-- An allowed connection leaves no more than a bucket that was full when it came. A bucket that
was not refilled has given a token since its last refill, and that is more than flows in within
a millisecond. -/
theorem Effect.credit_le_full (positive : 1000 ≤ capMilli)
    (flat : refillPerMs ≤ 1000 ∨ capMilli = 1000) (sane : SaneEntry capMilli since before)
    (later : since ≤ now) (until_t : now ≤ t)
    (effect : Effect capMilli refillPerMs now forced true true evicted before after) :
    1000000000 + credit capMilli refillPerMs now t after ≤
      1000000 * capMilli + (t - now) * refillPerMs := by
  cases effect with
  | @spent old enough =>
    simp only [credit]
    rcases old.refill_cases capMilli refillPerMs now with ⟨same, recent⟩ | ⟨-, moved, bounded, -⟩
    · rw [same] at enough ⊢
      have tapped := (sane old rfl).tapped
      have refilled := (sane old rfl).refilled
      have seen := (sane old rfl).seen
      have spans := @span_mul old.lastRefill now t refillPerMs (by omega) until_t
      have slow : refillPerMs ≤ 1000 := by omega
      have flow : (now - old.lastRefill) * refillPerMs ≤ 1000000 * 1000 :=
        Nat.mul_le_mul (by omega) slow
      omega
    · rw [moved]
      omega
  | created =>
    simp only [credit]
    omega

end

namespace IpLimiter

/-- How many connections of `source` are allowed from `s` to `t`. -/
def allowedWithin (l : IpLimiter) (source : IpAddr) (s t : Nat) (calls : List (IpAddr × Nat)) :
    Nat :=
  Steps.count connect (fun l call => l.allowsWithin source s t call) l calls

/-- The limiter between two calls, as the source sees it. -/
structure Ready (ratePerSec rateBurst : UInt32) (source : IpAddr) (since : Nat) (l : IpLimiter) :
    Prop where
  wf : l.ipState.Wf
  rate : l.ratePerSec = ratePerSec
  burst : l.rateBurst = rateBurst
  entry : SaneEntry (rateBurst.toNat * 1000) since (l.ipState.get source)

variable {ratePerSec rateBurst : UInt32} {source ip : IpAddr} {since now s t : Nat} {l : IpLimiter}
  {calls : List (IpAddr × Nat)}

theorem Ready.cap (ready : Ready ratePerSec rateBurst source since l) :
    l.capMilli = rateBurst.toNat * 1000 := by
  have small := rateBurst.toNat_lt
  rw [capMilli, ready.burst]
  unfold u64SaturatingMul u64Bound
  omega

theorem ready_new (start : Nat) :
    Ready ratePerSec rateBurst source 0 (new ratePerSec rateBurst start) where
  wf := SlotTable.wf_withCapacity ..
  rate := rfl
  burst := rfl
  entry := by
    have empty : (new ratePerSec rateBurst start).ipState.get source = none :=
      SlotTable.get_withCapacity ..
    rw [empty]
    rintro _ ⟨⟩

variable (positive_rate : 1 ≤ ratePerSec.toNat) (positive_burst : 1 ≤ rateBurst.toNat)

include positive_rate positive_burst in
theorem Ready.enabled (ready : Ready ratePerSec rateBurst source since l) : l.disabled = false := by
  rw [disabled, ready.rate, ready.burst, decide_eq_false_iff_not, ← UInt32.toNat_inj,
    ← UInt32.toNat_inj, UInt32.toNat_zero]
  omega

include positive_rate positive_burst in
/-- A call, as the source sees it. -/
theorem Ready.connect (ready : Ready ratePerSec rateBurst source since l) (later : since ≤ now) :
    Ready ratePerSec rateBurst source now (l.connect (ip, now)) ∧
      Effect (rateBurst.toNat * 1000) ratePerSec.toNat now (l.forcedOut ip now = some source)
        (ip = source) (l.allowIp ip now).1 (l.evicts ip now source) (l.ipState.get source)
        ((l.connect (ip, now)).ipState.get source) := by
  obtain ⟨wf, same, effect⟩ := allowIp_effect ready.wf
    (ready.enabled positive_rate positive_burst) ip source now
  rw [ready.cap, refillPerMs, ready.rate] at effect
  refine ⟨⟨wf, same.1.trans ready.rate, same.2.trans ready.burst, ?_⟩, effect⟩
  exact effect.sane (by omega) later ready.entry

theorem allowsWithin_false_of_late (late : t < now) :
    l.allowsWithin source s t (ip, now) = false := by
  have outside : ¬ (s ≤ now ∧ now ≤ t) := by omega
  simp [allowsWithin, outside]

/-- Nothing is allowed in a window that has ended. -/
theorem allowedWithin_eq_zero (late : ∀ call ∈ calls, t < call.2) :
    l.allowedWithin source s t calls = 0 := by
  induction calls generalizing l with
  | nil => rfl
  | cons call calls ih =>
    rw [allowedWithin, Steps.count, allowsWithin_false_of_late (late call (List.mem_cons_self ..))]
    rw [Bool.toNat_false, Nat.zero_add]
    exact ih fun later member => late later (List.mem_cons_of_mem _ member)

theorem allowedWithin_cons :
    l.allowedWithin source s t ((ip, now) :: calls) =
      (l.allowsWithin source s t (ip, now)).toNat +
        (l.connect (ip, now)).allowedWithin source s t calls := rfl

theorem allowsWithin_le :
    (l.allowsWithin source s t (ip, now)).toNat ≤
      (decide (ip = source) && (l.allowIp ip now).1).toNat := by
  unfold allowsWithin
  cases decide (ip = source) && (l.allowIp ip now).1 with
  | false => simp
  | true => exact Bool.toNat_le _

/-- No call forces the source out of a full table. -/
def NeverForcedOut (source : IpAddr) (l : IpLimiter) (calls : List (IpAddr × Nat)) : Prop :=
  Steps.Guarded IpLimiter.connect (fun l call => l.forcedOut call.1 call.2 ≠ some source) l calls

instance (source : IpAddr) (l : IpLimiter) (calls : List (IpAddr × Nat)) :
    Decidable (NeverForcedOut source l calls) :=
  inferInstanceAs (Decidable (Steps.Guarded ..))

section Above

variable (slow : rateBurst.toNat ≤ 60 * ratePerSec.toNat)

include positive_rate positive_burst slow

/-- The connections of a source are paid from its credit. -/
theorem Ready.allowed_le_credit (ready : Ready ratePerSec rateBurst source since l)
    (ordered : (since :: calls.map Prod.snd).Pairwise (· ≤ ·))
    (kept : NeverForcedOut source l calls) :
    1000000000 * l.allowedWithin source s t calls ≤
      credit (rateBurst.toNat * 1000) ratePerSec.toNat since t (l.ipState.get source) := by
  induction calls generalizing l since with
  | nil => exact Nat.zero_le _
  | cons call calls ih =>
    obtain ⟨ip, now⟩ := call
    obtain ⟨forward, rest_ordered⟩ := List.pairwise_cons.mp ordered
    have later : since ≤ now := forward now (List.mem_cons_self ..)
    by_cases ended : t < now
    · have late : ∀ call ∈ (ip, now) :: calls, t < call.2 := by
        intro call member
        rcases List.mem_cons.mp member with rfl | member
        · exact ended
        · exact ended.trans_le ((List.pairwise_cons.mp rest_ordered).1 call.2
            (List.mem_map_of_mem member))
      rw [allowedWithin_eq_zero late]
      exact Nat.zero_le _
    · obtain ⟨next, effect⟩ := ready.connect positive_rate positive_burst later
      have stays : (l.forcedOut ip now = some source) = False := eq_false kept.1
      rw [stays] at effect
      have paid := effect.credit_le (by omega) (by unfold promIpStateTtl; omega) ready.entry later
        (Nat.le_of_not_lt ended)
      have rest := ih next rest_ordered kept.2
      have first := @allowsWithin_le source ip now s t l
      rw [allowedWithin_cons]
      omega

/-- No window sees more connections of a source than a full bucket and what flows in while it
lasts. -/
theorem Ready.allowed_le_window (flat : ratePerSec.toNat ≤ 1000 ∨ rateBurst.toNat = 1)
    (ready : Ready ratePerSec rateBurst source since l)
    (ordered : (since :: calls.map Prod.snd).Pairwise (· ≤ ·))
    (kept : NeverForcedOut source l calls) :
    1000000000 * l.allowedWithin source s t calls ≤
      1000000 * (rateBurst.toNat * 1000) + (t - s) * ratePerSec.toNat := by
  induction calls generalizing l since with
  | nil => exact Nat.zero_le _
  | cons call calls ih =>
    obtain ⟨ip, now⟩ := call
    obtain ⟨forward, rest_ordered⟩ := List.pairwise_cons.mp ordered
    have later : since ≤ now := forward now (List.mem_cons_self ..)
    obtain ⟨next, effect⟩ := ready.connect positive_rate positive_burst later
    rw [allowedWithin_cons]
    cases counted : l.allowsWithin source s t (ip, now) with
    | false =>
      rw [Bool.toNat_false, Nat.zero_add]
      exact ih next rest_ordered kept.2
    -- the first connection of the window finds at most a full bucket
    | true =>
      simp only [allowsWithin, Bool.and_eq_true, decide_eq_true_eq] at counted
      obtain ⟨⟨rfl, allowed⟩, from_s, until_t⟩ := counted
      rw [decide_eq_true rfl, allowed] at effect
      have full := effect.credit_le_full (by omega) (by omega) ready.entry later until_t
      have rest := @Ready.allowed_le_credit ratePerSec rateBurst ip now s t _ calls positive_rate
        positive_burst slow next rest_ordered kept.2
      have spans : (t - now) * ratePerSec.toNat ≤ (t - s) * ratePerSec.toNat :=
        Nat.mul_le_mul_right _ (by omega)
      rw [Bool.toNat_true]
      omega

end Above

/-- A source that no full table forces out: if its bucket fills within the time that its entry
is kept, and if a millisecond brings at most one token or the bucket has no room for two, then
no window of its connections is larger than the burst and what the rate allows while it lasts. -/
theorem ip_allowed_within_bound (ratePerSec rateBurst : UInt32) (positive_rate : 1 ≤ ratePerSec)
    (positive_burst : 1 ≤ rateBurst) (slow : rateBurst.toNat ≤ 60 * ratePerSec.toNat)
    (flat : ratePerSec ≤ 1000 ∨ rateBurst = 1) (start : Nat) (calls : List (IpAddr × Nat))
    (ordered : (calls.map Prod.snd).Pairwise (· ≤ ·)) (source : IpAddr)
    (kept : NeverForcedOut source (new ratePerSec rateBurst start) calls) (s t : Nat) :
    1000000000 * (new ratePerSec rateBurst start).allowedWithin source s t calls ≤
      1000000000 * rateBurst.toNat + ratePerSec.toNat * (t - s) := by
  have flat : ratePerSec.toNat ≤ 1000 ∨ rateBurst.toNat = 1 :=
    flat.imp UInt32.le_iff_toNat_le.mp (congrArg UInt32.toNat)
  have bound := @Ready.allowed_le_window ratePerSec rateBurst source 0 s t _ calls
    (UInt32.le_iff_toNat_le.mp positive_rate) (UInt32.le_iff_toNat_le.mp positive_burst) slow flat
    (ready_new start)
    (List.pairwise_cons.mpr ⟨fun _ _ => Nat.zero_le _, ordered⟩) kept
  rw [Nat.mul_comm ratePerSec.toNat]
  omega

/-- The default limits: ten at once, then one every 200 ms. -/
theorem ip_allowed_within_bound_default :
    1000000000 * (new 5 10 0).allowedWithin (.v4 0x7F000001) 0 200000000
        (List.replicate 12 (.v4 0x7F000001, 0) ++ [(.v4 0x7F000001, 200000000)]) ≤
      1000000000 * 10 + 5 * (200000000 - 0) :=
  ip_allowed_within_bound 5 10 (by decide) (by decide) (by decide) (by decide) 0 _ (by decide) _
    (by decide +kernel) 0 200000000

/-- One connection a second, 61 at once: the entry of a source that was silent for a minute is
swept, and this minute sees 122 connections. And 2000 a second, three at once: a bucket that was
full is refilled for the millisecond in which it was full. -/
theorem ip_allowed_over_bound :
    (NeverForcedOut (.v4 0x7F000001) (new 1 61 0)
        (List.replicate 61 (.v4 0x7F000001, 0) ++ List.replicate 61 (.v4 0x7F000001, 60000000000)) ∧
      1000000000 * 61 + 1 * (60000000000 - 0) < 1000000000 *
        (new 1 61 0).allowedWithin (.v4 0x7F000001) 0 60000000000 (List.replicate 61
          (.v4 0x7F000001, 0) ++ List.replicate 61 (.v4 0x7F000001, 60000000000))) ∧
    (NeverForcedOut (.v4 0x7F000001) (new 2000 3 0) [(.v4 0x7F000001, 0), (.v4 0x7F000001, 999999),
        (.v4 0x7F000001, 999999), (.v4 0x7F000001, 1000000), (.v4 0x7F000001, 1000000)] ∧
      1000000000 * 3 + 2000 * (1000000 - 999999) < 1000000000 *
        (new 2000 3 0).allowedWithin (.v4 0x7F000001) 999999 1000000 [(.v4 0x7F000001, 0),
          (.v4 0x7F000001, 999999), (.v4 0x7F000001, 999999), (.v4 0x7F000001, 1000000),
          (.v4 0x7F000001, 1000000)]) := by
  decide +kernel

/-! ### From below -/

/-- The times at which `source` connects. -/
def arrivals (source : IpAddr) (calls : List (IpAddr × Nat)) : List Nat :=
  (calls.filter fun call => call.1 = source).map Prod.snd

/-- No call evicts the entry of the source. -/
def NeverEvicted (source : IpAddr) (l : IpLimiter) (calls : List (IpAddr × Nat)) : Prop :=
  Steps.Guarded IpLimiter.connect (fun l call => l.evicts call.1 call.2 source = false) l calls

/-- No connection of the source is dropped for its rate. -/
def NeverRateLimited (source : IpAddr) (l : IpLimiter) (calls : List (IpAddr × Nat)) : Prop :=
  Steps.Guarded IpLimiter.connect
    (fun l call => call.1 = source → l.rateLimited call.1 call.2 = false) l calls

instance (source : IpAddr) (l : IpLimiter) (calls : List (IpAddr × Nat)) :
    Decidable (NeverEvicted source l calls) :=
  inferInstanceAs (Decidable (Steps.Guarded ..))

instance (source : IpAddr) (l : IpLimiter) (calls : List (IpAddr × Nat)) :
    Decidable (NeverRateLimited source l calls) :=
  inferInstanceAs (Decidable (Steps.Guarded ..))

end IpLimiter

open Watch (exactBucket)

/-- A refill after whole milliseconds rounds nothing. -/
theorem PromIpState.refill_whole {ratePerSec burst now since : Nat} {st : PromIpState}
    (positive_rate : 1 ≤ ratePerSec) (burst_u32 : burst < 2 ^ 32)
    (sane : Sane (burst * 1000) since st) (later : since ≤ now) (positive_burst : 1 ≤ burst)
    (whole : (now - st.lastRefill) % 1000000 = 0) :
    (st.refill (burst * 1000) ratePerSec now).lastRefill = now ∧
      min (st.tokensMilli + (now - st.lastRefill) / 1000000 * ratePerSec) (burst * 1000) ≤
        (st.refill (burst * 1000) ratePerSec now).tokensMilli := by
  have refilled := sane.refilled
  have seen := sane.seen
  have tapped := sane.tapped
  unfold refill
  by_cases elapsed : min ((now - st.lastRefill) / 1000000) (u64Bound - 1) > 0
  · simp only [elapsed, ↓reduceIte, true_and]
    generalize (now - st.lastRefill) / 1000000 = ms at elapsed
    -- a span that does not fit fills the bucket
    have enough : min (ms * ratePerSec) (burst * 1000) ≤
        min (min ms (u64Bound - 1) * ratePerSec) (burst * 1000) := by
      by_cases fits : ms ≤ u64Bound - 1
      · rw [Nat.min_eq_left fits]
      · rw [Nat.min_eq_right (Nat.le_of_not_le fits)]
        have large : u64Bound - 1 ≤ (u64Bound - 1) * ratePerSec :=
          Nat.le_mul_of_pos_right _ positive_rate
        unfold u64Bound at large ⊢
        omega
    unfold u64SaturatingAdd
    generalize min (min ms (u64Bound - 1) * ratePerSec) (burst * 1000) = added at enough
    generalize ms * ratePerSec = flow at enough
    unfold u64Bound
    omega
  · simp only [elapsed, ↓reduceIte]
    unfold u64Bound at elapsed
    have still : (now - st.lastRefill) / 1000000 = 0 := by omega
    rw [still, Nat.zero_mul]
    omega

/-- The entry of a source holds at least what the exact bucket holds. -/
def Follows (phase : Nat) (level : Level) (entry : Option PromIpState) : Prop :=
  ∀ st, entry = some st → st.lastRefill = level.time ∧ st.lastRefill % 1000000 = phase ∧
    level.held ≤ 1000000000 * st.tokensMilli

section

variable {ratePerSec burst now since phase : Nat} {level : Level} {st : PromIpState}
  {forced : Prop} {own allowed evicted : Bool} {before after : Option PromIpState}

/-- At an arrival, too. -/
theorem Follows.filled_le (follows : Follows phase level (some st)) (positive_rate : 1 ≤ ratePerSec)
    (positive_burst : 1 ≤ burst) (burst_u32 : burst < 2 ^ 32) (sane : Sane (burst * 1000) since st)
    (later : since ≤ now) (in_phase : now % 1000000 = phase) :
    (st.refill (burst * 1000) ratePerSec now).lastRefill = now ∧
      (exactBucket ratePerSec burst).filled level now ≤
        1000000000 * (st.refill (burst * 1000) ratePerSec now).tokensMilli := by
  obtain ⟨stamped, same_phase, held⟩ := follows st rfl
  have refilled := sane.refilled
  have seen := sane.seen
  have whole : (now - st.lastRefill) % 1000000 = 0 := by omega
  obtain ⟨moved, filled⟩ :=
    PromIpState.refill_whole positive_rate burst_u32 sane later positive_burst whole
  refine ⟨moved, ?_⟩
  have flow : (now - level.time) * (ratePerSec * 1000) =
      1000000000 * ((now - st.lastRefill) / 1000000 * ratePerSec) := by
    rw [← stamped]
    obtain ⟨ms, span⟩ := Nat.dvd_of_mod_eq_zero whole
    rw [span, Nat.mul_div_cancel_left _ (by decide)]
    ring
  simp only [Bucket.filled, exactBucket, flow]
  generalize (now - st.lastRefill) / 1000000 * ratePerSec = added at filled ⊢
  omega

/-- A call of another source that evicts nothing. -/
theorem Effect.unchanged {capMilli refillPerMs : Nat}
    (effect : Effect capMilli refillPerMs now forced false allowed false before after) :
    after = before := by
  cases effect
  rfl

/-- A conforming connection finds its token, and the bucket still holds enough. -/
theorem Effect.follows (positive_rate : 1 ≤ ratePerSec) (positive_burst : 1 ≤ burst)
    (burst_u32 : burst < 2 ^ 32) (sane : SaneEntry (burst * 1000) since before)
    (later : since ≤ now) (follows : Follows phase level before) (in_phase : now % 1000000 = phase)
    (admitted : (exactBucket ratePerSec burst).admits level now)
    (effect : Effect (burst * 1000) ratePerSec now forced true allowed evicted before after)
    (kept : evicted = false) :
    Follows phase ((exactBucket ratePerSec burst).request level now) after ∧
      (allowed = false → before = none) := by
  have request : (exactBucket ratePerSec burst).request level now =
      ⟨(exactBucket ratePerSec burst).filled level now - 1000 * 1000000000, now⟩ := by
    rw [Bucket.request, if_pos admitted]
    rfl
  have cost : 1000 * 1000000000 ≤ (exactBucket ratePerSec burst).filled level now :=
    of_decide_eq_true admitted
  have full : (exactBucket ratePerSec burst).filled level now ≤ burst * 1000 * 1000000000 :=
    Bucket.filled_le_capacity ..
  rw [request]
  cases effect with
  | @spent old enough =>
    obtain ⟨moved, filled⟩ := follows.filled_le positive_rate positive_burst burst_u32
      (sane old rfl) later in_phase
    refine ⟨?_, fun absurd => by cases absurd⟩
    intro st present
    obtain rfl := Option.some.inj present
    refine ⟨moved, ?_, ?_⟩
    · dsimp only
      rw [moved, in_phase]
    · dsimp only
      omega
  | @refused old short =>
    obtain ⟨moved, filled⟩ := follows.filled_le positive_rate positive_burst burst_u32
      (sane old rfl) later in_phase
    omega
  | created =>
    refine ⟨?_, fun absurd => by cases absurd⟩
    intro st present
    obtain rfl := Option.some.inj present
    refine ⟨rfl, in_phase, ?_⟩
    dsimp only
    omega
  | crowded =>
    refine ⟨by rintro _ ⟨⟩, fun _ => ?_⟩
    exact Option.isNone_iff_eq_none.mp (Option.isSome_eq_false_iff.mp kept)

end

namespace IpLimiter

variable {ratePerSec rateBurst : UInt32} {source ip : IpAddr} {since now phase : Nat} {l : IpLimiter}
  {calls : List (IpAddr × Nat)} {level : Level}

/-- Only a source that has an entry is dropped for its rate. -/
theorem rateLimited_eq_false (wf : l.ipState.Wf)
    (dropped : (l.allowIp ip now).1 = false → l.ipState.get ip = none) :
    l.rateLimited ip now = false := by
  unfold rateLimited
  cases allowed : (l.allowIp ip now).1 with
  | true => rw [Bool.not_true, Bool.and_false]
  | false =>
    -- a sweep brings nothing back
    have swept := (@sweep_get l now wf ip).2
    rw [dropped allowed] at swept
    rcases swept with absent | ⟨absent, -⟩ <;> rw [absent] <;> rfl

theorem arrivals_own : arrivals source ((source, now) :: calls) = now :: arrivals source calls := by
  simp [arrivals]

theorem arrivals_other (other : ip ≠ source) :
    arrivals source ((ip, now) :: calls) = arrivals source calls := by
  simp [arrivals, other]

/-- As long as the source keeps to its rate in whole milliseconds. -/
theorem Ready.never_rateLimited (positive_rate : 1 ≤ ratePerSec.toNat)
    (positive_burst : 1 ≤ rateBurst.toNat)
    (ready : Ready ratePerSec rateBurst source since l)
    (ordered : (since :: calls.map Prod.snd).Pairwise (· ≤ ·))
    (follows : Follows phase level (l.ipState.get source))
    (in_phase : ∀ now ∈ arrivals source calls, now % 1000000 = phase)
    (conforms : (exactBucket ratePerSec.toNat rateBurst.toNat).Conforms level
      (arrivals source calls))
    (kept : NeverEvicted source l calls) : NeverRateLimited source l calls := by
  induction calls generalizing l since level with
  | nil => trivial
  | cons call calls ih =>
    obtain ⟨ip, now⟩ := call
    obtain ⟨forward, rest_ordered⟩ := List.pairwise_cons.mp ordered
    have later : since ≤ now := forward now (List.mem_cons_self ..)
    obtain ⟨next, effect⟩ := @Ready.connect ratePerSec rateBurst source ip since now l positive_rate
      positive_burst ready later
    by_cases mine : ip = source
    · subst mine
      rw [arrivals_own] at in_phase conforms
      rw [decide_eq_true rfl] at effect
      obtain ⟨still, found⟩ := effect.follows positive_rate positive_burst rateBurst.toNat_lt
        ready.entry later follows (in_phase now (List.mem_cons_self ..)) conforms.1 kept.1
      exact ⟨fun _ => rateLimited_eq_false ready.wf found, ih next rest_ordered still
        (fun n member => in_phase n (List.mem_cons_of_mem _ member)) conforms.2 kept.2⟩
    · rw [arrivals_other mine] at in_phase conforms
      have unevicted : l.evicts ip now source = false := kept.1
      rw [decide_eq_false mine, unevicted] at effect
      rw [← effect.unchanged] at follows
      exact ⟨fun same => absurd same mine, ih next rest_ordered follows in_phase conforms kept.2⟩

/-- A source whose entry is never evicted and whose connections conform to the exact bucket of
its limits is not dropped for its rate, if whole milliseconds lie between them. -/
theorem conforming_source_not_rateLimited (ratePerSec rateBurst : UInt32)
    (positive_rate : 1 ≤ ratePerSec) (positive_burst : 1 ≤ rateBurst) (start : Nat)
    (calls : List (IpAddr × Nat)) (ordered : (calls.map Prod.snd).Pairwise (· ≤ ·))
    (source : IpAddr)
    (whole : (arrivals source calls).Pairwise fun a b => a % 1000000 = b % 1000000)
    (conforms : (exactBucket ratePerSec.toNat rateBurst.toNat).Conforms
      ⟨(exactBucket ratePerSec.toNat rateBurst.toNat).capacity, 0⟩ (arrivals source calls))
    (kept : NeverEvicted source (new ratePerSec rateBurst start) calls) :
    NeverRateLimited source (new ratePerSec rateBurst start) calls := by
  obtain ⟨phase, in_phase⟩ : ∃ phase, ∀ now ∈ arrivals source calls, now % 1000000 = phase := by
    cases times : arrivals source calls with
    | nil => exact ⟨0, by rintro _ ⟨⟩⟩
    | cons first rest =>
      rw [times] at whole
      refine ⟨first % 1000000, fun now member => ?_⟩
      rcases List.mem_cons.mp member with rfl | member
      · rfl
      · exact ((List.pairwise_cons.mp whole).1 now member).symm
  refine Ready.never_rateLimited (UInt32.le_iff_toNat_le.mp positive_rate)
    (UInt32.le_iff_toNat_le.mp positive_burst) (ready_new start)
    (List.pairwise_cons.mpr ⟨fun _ _ => Nat.zero_le _, ordered⟩) ?_ in_phase conforms kept
  have empty : (new ratePerSec rateBurst start).ipState.get source = none :=
    SlotTable.get_withCapacity ..
  rw [empty]
  rintro _ ⟨⟩

/-- Two at once and one more each second. -/
theorem conforming_source_not_rateLimited_steady :
    NeverRateLimited (.v4 0x7F000001) (new 1 2 0)
      [(.v4 0x7F000001, 0), (.v4 0x7F000001, 0), (.v4 0x7F000001, 1000000000),
        (.v4 0x7F000001, 2000000000)] :=
  conforming_source_not_rateLimited 1 2 (by decide) (by decide) 0 _ (by decide) _ (by decide)
    (by decide) (by decide +kernel)

/-- Half a millisecond is lost at each of two refills, and with it the third connection. -/
theorem conforming_source_rateLimited :
    (exactBucket 1 2).Conforms ⟨(exactBucket 1 2).capacity, 0⟩ (arrivals (.v4 0x7F000001)
      [(.v4 0x7F000001, 0), (.v4 0x7F000001, 500500000), (.v4 0x7F000001, 1000000000)]) ∧
    NeverEvicted (.v4 0x7F000001) (new 1 2 0)
      [(.v4 0x7F000001, 0), (.v4 0x7F000001, 500500000), (.v4 0x7F000001, 1000000000)] ∧
    ¬ NeverRateLimited (.v4 0x7F000001) (new 1 2 0)
      [(.v4 0x7F000001, 0), (.v4 0x7F000001, 500500000), (.v4 0x7F000001, 1000000000)] := by
  decide +kernel

end IpLimiter

end Varta.Exporter
