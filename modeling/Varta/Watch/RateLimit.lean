import Varta.Lib.TokenBucket
import Varta.Watch.Observer
import Mathlib.Tactic.Ring

/-!
# The global limiter is an exact token bucket

`GlobalRateLimit::try_consume` counts milli-tokens and carries the rest of each refill. In
units of a milli-token nanosecond it is the token bucket that rounds nothing.
-/
namespace Varta.Watch

open Machine
open TokenBucket (Bucket Level)

/-- The bucket of `burst` frames that fills by `ratePerSec` frames a second, in milli-token
nanoseconds. -/
def exactBucket (ratePerSec burst : Nat) : Bucket :=
  ⟨burst * 1000 * 1000000000, ratePerSec * 1000, 1000 * 1000000000⟩

namespace GlobalRateLimit

/-- What the limiter holds, in milli-token nanoseconds. -/
def held (limit : GlobalRateLimit) : Nat := limit.tokensMilli * 1000000000 + limit.refillRemainder

def level (limit : GlobalRateLimit) : Level := ⟨limit.held, limit.lastRefillNs⟩

/-- One call, without its answer. -/
def consume (limit : GlobalRateLimit) (nowNs : Nat) : GlobalRateLimit := (limit.tryConsume nowNs).2

/-- The times at which a frame was allowed. -/
def admitted : GlobalRateLimit → List Nat → List Nat
  | _, [] => []
  | limit, nowNs :: rest =>
    if (limit.tryConsume nowNs).1 then nowNs :: admitted (limit.consume nowNs) rest
    else admitted (limit.consume nowNs) rest

/-- What a call computes fits the integers it is computed in, and its saturating sum does not
saturate. -/
structure Fits (limit : GlobalRateLimit) (nowNs : Nat) : Prop where
  refillUnits : (nowNs - limit.lastRefillNs) * limit.refillMilliPerSec + limit.refillRemainder < 2 ^ 128
  tokens : limit.tokensMilli + min (((nowNs - limit.lastRefillNs) * limit.refillMilliPerSec +
    limit.refillRemainder) / 1000000000) limit.capacityMilli < u64Bound
  result : (limit.consume nowNs).tokensMilli < u64Bound ∧
    (limit.consume nowNs).refillRemainder < u64Bound

/-! ### One call -/

/-- A limiter between two calls. -/
structure Exact (ratePerSec burst : Nat) (limit : GlobalRateLimit) : Prop where
  capacity : limit.capacityMilli = burst * 1000
  rate : limit.refillMilliPerSec = ratePerSec * 1000
  tokens_le : limit.tokensMilli ≤ limit.capacityMilli
  remainder_lt : limit.refillRemainder < 1000000000
  /-- A full bucket carries nothing. -/
  full : limit.tokensMilli = limit.capacityMilli → limit.refillRemainder = 0

variable {ratePerSec burst nowNs : Nat} {limit : GlobalRateLimit}

theorem new_exact (positive_rate : 1 ≤ ratePerSec) (positive_burst : 1 ≤ burst)
    (rate_u32 : ratePerSec < 2 ^ 32) (burst_u32 : burst < 2 ^ 32) :
    Exact ratePerSec burst (new ratePerSec burst) ∧
      (new ratePerSec burst).level = ⟨(exactBucket ratePerSec burst).capacity, 0⟩ := by
  have enabled : ¬ (ratePerSec = 0 ∨ burst = 0) := by omega
  have capacity : u64SaturatingMul burst 1000 = burst * 1000 := by
    unfold u64SaturatingMul u64Bound
    omega
  have rate : u64SaturatingMul ratePerSec 1000 = ratePerSec * 1000 := by
    unfold u64SaturatingMul u64Bound
    omega
  simp only [new, enabled, ↓reduceIte, capacity, rate]
  refine ⟨⟨rfl, rfl, Nat.le_refl _, by simp, fun _ => rfl⟩, ?_⟩
  simp [level, held, exactBucket]

theorem Exact.held_le (exact : Exact ratePerSec burst limit) :
    limit.held ≤ limit.capacityMilli * 1000000000 := by
  have bound := exact.tokens_le
  have carried := exact.remainder_lt
  have full := exact.full
  unfold held
  omega

theorem refill_of_elapsed (elapsed : limit.lastRefillNs < nowNs) :
    limit.refill nowNs =
      { limit with
        tokensMilli := min (u64SaturatingAdd limit.tokensMilli
          (min (((nowNs - limit.lastRefillNs) * limit.refillMilliPerSec +
            limit.refillRemainder) / 1000000000) limit.capacityMilli)) limit.capacityMilli
        refillRemainder :=
          if min (u64SaturatingAdd limit.tokensMilli
            (min (((nowNs - limit.lastRefillNs) * limit.refillMilliPerSec +
              limit.refillRemainder) / 1000000000) limit.capacityMilli)) limit.capacityMilli =
              limit.capacityMilli then 0
          else ((nowNs - limit.lastRefillNs) * limit.refillMilliPerSec +
            limit.refillRemainder) % 1000000000
        lastRefillNs := nowNs } := by
  have positive : nowNs - limit.lastRefillNs > 0 := by omega
  simp only [refill, positive, ↓reduceIte]

/-- A refill loses nothing but what does not fit the bucket. -/
theorem refill_exact (exact : Exact ratePerSec burst limit) (burst_u32 : burst < 2 ^ 32)
    (forward : limit.lastRefillNs ≤ nowNs) :
    Exact ratePerSec burst (limit.refill nowNs) ∧ (limit.refill nowNs).lastRefillNs = nowNs ∧
      (limit.refill nowNs).held = (exactBucket ratePerSec burst).filled limit.level nowNs := by
  have bound := exact.tokens_le
  have carried := exact.remainder_lt
  have capacity := exact.capacity
  have filled : (exactBucket ratePerSec burst).filled limit.level nowNs =
      min (limit.tokensMilli * 1000000000 + ((nowNs - limit.lastRefillNs) * limit.refillMilliPerSec +
        limit.refillRemainder)) (limit.capacityMilli * 1000000000) := by
    simp only [Bucket.filled, exactBucket, level, held, exact.capacity, exact.rate]
    rw [Nat.add_assoc, Nat.add_comm limit.refillRemainder]
  rcases Nat.eq_or_lt_of_le forward with rfl | elapsed
  · have still : limit.refill limit.lastRefillNs = limit := by simp [refill]
    rw [still]
    refine ⟨exact, rfl, ?_⟩
    have fits := exact.held_le
    rw [filled, Nat.sub_self, Nat.zero_mul, Nat.zero_add]
    exact (Nat.min_eq_left fits).symm
  · rw [filled, refill_of_elapsed elapsed]
    generalize (nowNs - limit.lastRefillNs) * limit.refillMilliPerSec + limit.refillRemainder = units
    have room : limit.tokensMilli + min (units / 1000000000) limit.capacityMilli < u64Bound := by
      unfold u64Bound
      omega
    have sum : u64SaturatingAdd limit.tokensMilli (min (units / 1000000000) limit.capacityMilli) =
        limit.tokensMilli + min (units / 1000000000) limit.capacityMilli := by
      unfold u64SaturatingAdd
      omega
    rw [sum]
    by_cases overflows : limit.capacityMilli ≤ limit.tokensMilli + units / 1000000000
    -- the bucket is full again: the carried rest is dropped with what does not fit
    · have top : min (limit.tokensMilli + min (units / 1000000000) limit.capacityMilli)
          limit.capacityMilli = limit.capacityMilli := by omega
      simp only [top, ↓reduceIte]
      refine ⟨⟨exact.capacity, exact.rate, Nat.le_refl _, by simp, fun _ => rfl⟩, trivial, ?_⟩
      rw [Nat.min_eq_right (by omega)]
      simp only [held, Nat.add_zero]
    · have short : min (limit.tokensMilli + min (units / 1000000000) limit.capacityMilli)
          limit.capacityMilli = limit.tokensMilli + units / 1000000000 := by omega
      have below : limit.tokensMilli + units / 1000000000 ≠ limit.capacityMilli := by omega
      simp only [short, below, ↓reduceIte]
      refine ⟨⟨exact.capacity, exact.rate, by simp only; omega, by simp only; omega,
        fun full => absurd full below⟩, trivial, ?_⟩
      rw [Nat.min_eq_left (by omega)]
      simp only [held]
      omega

theorem tryConsume_eq (enabled : limit.capacityMilli ≠ 0) :
    limit.tryConsume nowNs =
      if (limit.refill nowNs).tokensMilli ≥ 1000 then
        (true, { limit.refill nowNs with tokensMilli := (limit.refill nowNs).tokensMilli - 1000 })
      else (false, limit.refill nowNs) := by
  simp [tryConsume, isDisabled, enabled]

/-- A call is a request to the exact bucket. -/
theorem consume_exact (exact : Exact ratePerSec burst limit) (positive_burst : 1 ≤ burst)
    (burst_u32 : burst < 2 ^ 32) (forward : limit.lastRefillNs ≤ nowNs) :
    Exact ratePerSec burst (limit.consume nowNs) ∧
      (limit.tryConsume nowNs).1 = (exactBucket ratePerSec burst).admits limit.level nowNs ∧
      (limit.consume nowNs).level = (exactBucket ratePerSec burst).request limit.level nowNs := by
  obtain ⟨refilled, stamped, holds⟩ := refill_exact exact burst_u32 forward
  have enabled : limit.capacityMilli ≠ 0 := by
    have := exact.capacity
    omega
  have carried := refilled.remainder_lt
  have bound := refilled.tokens_le
  have admits : (exactBucket ratePerSec burst).admits limit.level nowNs =
      decide ((limit.refill nowNs).tokensMilli ≥ 1000) := by
    simp only [Bucket.admits, ← holds, held]
    apply decide_eq_decide.mpr
    simp only [exactBucket]
    omega
  rw [consume, tryConsume_eq enabled, Bucket.request, admits, ← holds]
  by_cases enough : (limit.refill nowNs).tokensMilli ≥ 1000
  · simp only [enough, ↓reduceIte, decide_true]
    refine ⟨⟨refilled.capacity, refilled.rate, by simp only; omega, carried, ?_⟩, trivial, ?_⟩
    · intro full
      simp only at full
      omega
    · simp only [level, stamped, Level.mk.injEq, and_true, held, exactBucket]
      omega
  · simp only [enough, ↓reduceIte, decide_false, Bool.false_eq_true]
    exact ⟨refilled, trivial, by rw [level, stamped]⟩

theorem Exact.fits (exact : Exact ratePerSec burst limit) (positive_burst : 1 ≤ burst)
    (rate_u32 : ratePerSec < 2 ^ 32) (burst_u32 : burst < 2 ^ 32)
    (forward : limit.lastRefillNs ≤ nowNs) (now_u64 : nowNs < u64Bound) : limit.Fits nowNs := by
  have after := (consume_exact exact positive_burst burst_u32 forward).1
  have capacity := exact.capacity
  have bound := exact.tokens_le
  have carried := exact.remainder_lt
  have after_bound := after.tokens_le
  have after_capacity := after.capacity
  have after_carried := after.remainder_lt
  have flow : (nowNs - limit.lastRefillNs) * limit.refillMilliPerSec ≤ u64Bound * (2 ^ 32 * 1000) :=
    Nat.mul_le_mul (by omega) (by rw [exact.rate]; omega)
  have wide : u64Bound = 2 ^ 64 := rfl
  constructor
  · omega
  · have := Nat.min_le_right (((nowNs - limit.lastRefillNs) * limit.refillMilliPerSec +
      limit.refillRemainder) / 1000000000) limit.capacityMilli
    omega
  · omega

/-! ### Any number of calls -/

theorem consume_lastRefillNs (exact : Exact ratePerSec burst limit) (positive_burst : 1 ≤ burst)
    (burst_u32 : burst < 2 ^ 32) (forward : limit.lastRefillNs ≤ nowNs) :
    (limit.consume nowNs).lastRefillNs = nowNs := by
  have asked := (consume_exact exact positive_burst burst_u32 forward).2.2
  exact (congrArg Level.time asked).trans (Bucket.request_time ..)

/-- Calls at times that never step back are requests to the exact bucket. -/
theorem run_exact (positive_burst : 1 ≤ burst) (rate_u32 : ratePerSec < 2 ^ 32)
    (burst_u32 : burst < 2 ^ 32) {limit : GlobalRateLimit} (exact : Exact ratePerSec burst limit)
    {nows : List Nat} (ordered : (limit.lastRefillNs :: nows).Pairwise (· ≤ ·))
    (nows_u64 : ∀ nowNs ∈ nows, nowNs < u64Bound) :
    (Steps.run consume limit nows).level =
        Steps.run (exactBucket ratePerSec burst).request limit.level nows ∧
      limit.admitted nows = (exactBucket ratePerSec burst).admitted limit.level nows ∧
      Steps.Guarded consume Fits limit nows := by
  induction nows generalizing limit with
  | nil => exact ⟨rfl, rfl, trivial⟩
  | cons nowNs rest ih =>
    obtain ⟨first, rest_ordered⟩ := List.pairwise_cons.mp ordered
    have forward : limit.lastRefillNs ≤ nowNs := first nowNs (List.mem_cons_self ..)
    have now_u64 := nows_u64 nowNs (List.mem_cons_self ..)
    obtain ⟨after, answered, asked⟩ := consume_exact exact positive_burst burst_u32 forward
    have stamped := consume_lastRefillNs exact positive_burst burst_u32 forward
    obtain ⟨levels, allowed, fit⟩ := ih after (by rwa [stamped]) fun later member =>
      nows_u64 later (List.mem_cons_of_mem _ member)
    refine ⟨?_, ?_, exact.fits positive_burst rate_u32 burst_u32 forward now_u64, fit⟩
    · rw [Steps.run_cons, Steps.run_cons, levels, asked]
    · rw [admitted, Bucket.admitted, answered, allowed, asked]

end GlobalRateLimit

open GlobalRateLimit

/-- For every rate and burst and all calls at times that never step back: the limiter holds
what the exact bucket holds and allows what it admits, nothing it computes overflows, and no
window sees more frames than the burst and what the rate allows while it lasts. -/
theorem globalRateLimit_exact (ratePerSec burst : UInt32) (positive_rate : 1 ≤ ratePerSec)
    (positive_burst : 1 ≤ burst) (nows : List UInt64) (ordered : nows.Pairwise (· ≤ ·)) :
    (Steps.run consume (GlobalRateLimit.new ratePerSec.toNat burst.toNat)
        (nows.map UInt64.toNat)).held =
      (Steps.run (exactBucket ratePerSec.toNat burst.toNat).request
        ⟨(exactBucket ratePerSec.toNat burst.toNat).capacity, 0⟩ (nows.map UInt64.toNat)).held ∧
    (GlobalRateLimit.new ratePerSec.toNat burst.toNat).admitted (nows.map UInt64.toNat) =
      (exactBucket ratePerSec.toNat burst.toNat).admitted
        ⟨(exactBucket ratePerSec.toNat burst.toNat).capacity, 0⟩ (nows.map UInt64.toNat) ∧
    Steps.Guarded consume Fits (GlobalRateLimit.new ratePerSec.toNat burst.toNat)
      (nows.map UInt64.toNat) ∧
    ∀ s t, ((GlobalRateLimit.new ratePerSec.toNat burst.toNat).admitted
        (nows.map UInt64.toNat)).countP (fun nowNs => s ≤ nowNs ∧ nowNs ≤ t) ≤
      burst.toNat + ratePerSec.toNat * (t - s) / 1000000000 := by
  set limit := GlobalRateLimit.new ratePerSec.toNat burst.toNat
  set bucket := exactBucket ratePerSec.toNat burst.toNat
  set times := nows.map UInt64.toNat
  have burst_one : 1 ≤ burst.toNat := UInt32.le_iff_toNat_le.mp positive_burst
  obtain ⟨exact, start⟩ := new_exact (UInt32.le_iff_toNat_le.mp positive_rate) burst_one
    ratePerSec.toNat_lt burst.toNat_lt
  have times_ordered : (limit.lastRefillNs :: times).Pairwise (· ≤ ·) := by
    have zero : limit.lastRefillNs = 0 := congrArg Level.time start
    refine List.pairwise_cons.mpr ⟨fun nowNs _ => by omega, ?_⟩
    exact List.pairwise_map.mpr (ordered.imp UInt64.le_iff_toNat_le.mp)
  have times_u64 : ∀ nowNs ∈ times, nowNs < u64Bound := by
    intro nowNs member
    obtain ⟨now, -, rfl⟩ := List.mem_map.mp member
    exact now.toNat_lt
  obtain ⟨levels, allowed, fit⟩ := run_exact burst_one ratePerSec.toNat_lt burst.toNat_lt exact
    times_ordered times_u64
  rw [start] at levels allowed
  refine ⟨congrArg Level.held levels, allowed, fit, fun s t => ?_⟩
  rw [allowed]
  have bound : bucket.admittedWithin ⟨bucket.capacity, 0⟩ times s t * bucket.cost ≤
      bucket.capacity + (t - s) * bucket.rate :=
    Bucket.admittedWithin_le (List.pairwise_cons.mpr
      ⟨fun nowNs _ => Nat.zero_le nowNs, (List.pairwise_cons.mp times_ordered).2⟩)
  change bucket.admittedWithin ⟨bucket.capacity, 0⟩ times s t ≤ _
  generalize bucket.admittedWithin ⟨bucket.capacity, 0⟩ times s t = count at bound ⊢
  have flows : (t - s) * bucket.rate = ratePerSec.toNat * (t - s) * 1000 := by
    simp only [bucket, exactBucket]
    ring
  rw [flows] at bound
  simp only [bucket, exactBucket] at bound
  omega

/-- Two frames a second, three at once: four frames in the first half second. -/
theorem globalRateLimit_exact_burst :
    (GlobalRateLimit.new 2 3).admitted [0, 0, 0, 0, 499999999, 500000000] = [0, 0, 0, 500000000] ∧
      ((GlobalRateLimit.new 2 3).admitted [0, 0, 0, 0, 499999999, 500000000]).countP
        (fun nowNs => 0 ≤ nowNs ∧ nowNs ≤ 500000000) ≤ 3 + 2 * (500000000 - 0) / 1000000000 :=
  ⟨by decide, (globalRateLimit_exact 2 3 (by decide) (by decide)
    [0, 0, 0, 0, 499999999, 500000000] (by decide)).2.2.2 0 500000000⟩

end Varta.Watch
