import Varta.Lib.Steps
import Mathlib.Tactic.Linarith

/-!
# Token buckets

A bucket of `capacity` fills by `rate` for each unit of time and gives `cost` to each request
it can serve. The level is exact: nothing is rounded.
-/
namespace TokenBucket

structure Bucket where
  capacity : Nat
  rate : Nat
  cost : Nat

/-- What a bucket holds, and when it was looked at last. -/
structure Level where
  held : Nat
  time : Nat
  deriving DecidableEq, Repr

namespace Bucket

variable (bucket : Bucket)

/-- The level at `now`, before a request is served. -/
def filled (level : Level) (now : Nat) : Nat :=
  min (level.held + (now - level.time) * bucket.rate) bucket.capacity

def admits (level : Level) (now : Nat) : Bool := bucket.cost ≤ bucket.filled level now

/-- One request. -/
def request (level : Level) (now : Nat) : Level :=
  if bucket.admits level now then ⟨bucket.filled level now - bucket.cost, now⟩
  else ⟨bucket.filled level now, now⟩

/-- The times of the admitted requests. -/
def admitted : Level → List Nat → List Nat
  | _, [] => []
  | level, now :: rest =>
    if bucket.admits level now then now :: admitted (bucket.request level now) rest
    else admitted (bucket.request level now) rest

/-- All requests are admitted. -/
def Conforms (level : Level) (nows : List Nat) : Prop :=
  Steps.Guarded bucket.request (fun level now => bucket.admits level now) level nows

instance (level : Level) (nows : List Nat) : Decidable (bucket.Conforms level nows) :=
  inferInstanceAs (Decidable (Steps.Guarded ..))

def within (s t now : Nat) : Bool := s ≤ now ∧ now ≤ t

/-- What is admitted from `s` to `t`. -/
def admittedWithin (level : Level) (nows : List Nat) (s t : Nat) : Nat :=
  (bucket.admitted level nows).countP (within s t)

variable (level : Level) (now : Nat)

@[simp] theorem request_time : (bucket.request level now).time = now := by
  unfold request
  split <;> rfl

theorem filled_le_capacity : bucket.filled level now ≤ bucket.capacity := Nat.min_le_right ..

theorem filled_le : bucket.filled level now ≤ level.held + (now - level.time) * bucket.rate :=
  Nat.min_le_left ..

/-- What a request takes and what it leaves were there before. -/
theorem request_pays :
    (bucket.admits level now).toNat * bucket.cost + (bucket.request level now).held =
      bucket.filled level now := by
  unfold request
  cases served : bucket.admits level now with
  | false => simp
  | true =>
    have enough : bucket.cost ≤ bucket.filled level now := of_decide_eq_true served
    simp only [Bool.toNat_true, ↓reduceIte]
    omega

theorem admittedWithin_cons (rest : List Nat) (s t : Nat) :
    bucket.admittedWithin level (now :: rest) s t =
      (bucket.admits level now && within s t now).toNat +
        bucket.admittedWithin (bucket.request level now) rest s t := by
  unfold admittedWithin
  rw [admitted]
  cases bucket.admits level now with
  | false => simp
  | true =>
    simp only [↓reduceIte, List.countP_cons, Bool.true_and]
    cases within s t now <;> simp [Nat.add_comm]

/-- The first request of a list is paid from the filled bucket, and so are the others. -/
theorem admittedWithin_cons_le (rest : List Nat) (s t : Nat) :
    bucket.admittedWithin level (now :: rest) s t * bucket.cost + (bucket.request level now).held ≤
      bucket.filled level now +
        bucket.admittedWithin (bucket.request level now) rest s t * bucket.cost := by
  have pays := request_pays bucket level now
  have served : (bucket.admits level now && within s t now).toNat * bucket.cost ≤
      (bucket.admits level now).toNat * bucket.cost :=
    Nat.mul_le_mul_right _ (by cases bucket.admits level now <;> simp [Bool.toNat_le])
  rw [admittedWithin_cons, Nat.add_mul]
  omega

variable {bucket level now}

theorem mem_of_mem_admitted {nows : List Nat} (held : now ∈ bucket.admitted level nows) :
    now ∈ nows := by
  induction nows generalizing level with
  | nil => exact held
  | cons first rest ih =>
    rw [admitted] at held
    split at held
    · rcases List.mem_cons.mp held with rfl | later
      · exact List.mem_cons_self ..
      · exact List.mem_cons_of_mem _ (ih later)
    · exact List.mem_cons_of_mem _ (ih held)

variable {nows rest : List Nat} {s t : Nat}

/-- Nothing is admitted in a window that ended before the first request. -/
theorem admittedWithin_eq_zero (ordered : (now :: rest).Pairwise (· ≤ ·)) (ended : t < now) :
    bucket.admittedWithin level (now :: rest) s t = 0 := by
  apply List.countP_eq_zero.mpr
  intro later held inside
  have before : later ≤ t := (of_decide_eq_true inside).2
  rcases List.mem_cons.mp (mem_of_mem_admitted held) with rfl | member
  · omega
  · have := (List.pairwise_cons.mp ordered).1 later member
    omega

/-- From a look at the bucket on, the requests share what was held and what flows in. -/
theorem admittedWithin_le_held (ordered : (level.time :: nows).Pairwise (· ≤ ·)) :
    bucket.admittedWithin level nows s t * bucket.cost ≤
      level.held + (t - level.time) * bucket.rate := by
  induction nows generalizing level with
  | nil => simp [admittedWithin, admitted]
  | cons now rest ih =>
    obtain ⟨forward, rest_ordered⟩ := List.pairwise_cons.mp ordered
    have forward : level.time ≤ now := forward now (List.mem_cons_self ..)
    by_cases ended : t < now
    · rw [admittedWithin_eq_zero rest_ordered ended, Nat.zero_mul]
      exact Nat.zero_le _
    · have first := admittedWithin_cons_le bucket level now rest s t
      have flows := filled_le bucket level now
      have later : bucket.admittedWithin (bucket.request level now) rest s t * bucket.cost ≤ _ :=
        ih (by rwa [request_time])
      have spans : (t - level.time) * bucket.rate =
          (now - level.time) * bucket.rate + (t - now) * bucket.rate := by
        rw [← Nat.add_mul]
        congr 1
        omega
      rw [request_time] at later
      omega

/-- In no window is more admitted than a full bucket and what flows in while it lasts. -/
theorem admittedWithin_le (ordered : (level.time :: nows).Pairwise (· ≤ ·)) :
    bucket.admittedWithin level nows s t * bucket.cost ≤
      bucket.capacity + (t - s) * bucket.rate := by
  induction nows generalizing level with
  | nil => simp [admittedWithin, admitted]
  | cons now rest ih =>
    have rest_ordered := (List.pairwise_cons.mp ordered).2
    have next_ordered : ((bucket.request level now).time :: rest).Pairwise (· ≤ ·) := by
      rwa [request_time]
    by_cases early : now < s
    -- the window has not begun: this request does not count
    · have outside : within s t now = false := by simp [within, early]
      rw [admittedWithin_cons, outside, Bool.and_false, Bool.toNat_false, Nat.zero_add]
      exact ih next_ordered
    by_cases ended : t < now
    · rw [admittedWithin_eq_zero rest_ordered ended, Nat.zero_mul]
      exact Nat.zero_le _
    -- the first request of the window finds at most a full bucket
    · have first := admittedWithin_cons_le bucket level now rest s t
      have full := filled_le_capacity bucket level now
      have later : bucket.admittedWithin (bucket.request level now) rest s t * bucket.cost ≤ _ :=
        admittedWithin_le_held next_ordered
      have spans : (t - now) * bucket.rate ≤ (t - s) * bucket.rate :=
        Nat.mul_le_mul_right _ (by omega)
      rw [request_time] at later
      omega

end Bucket

end TokenBucket
