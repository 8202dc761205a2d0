import Mathlib.Tactic.Ring
import Skattr.Mailbox.Policy

/-!
# How many tokens a bucket grants

A bucket is refilled for the time that has passed since the last attempt, and every attempt becomes
the new anchor, also one whose clock is behind. A clock that goes back and comes forward again
therefore refills the same interval twice.

`granted_le` bounds the grants of every sequence of attempts by the capacity, the refill up to the
latest time and the refill of the intervals that the clock walks again. `interval_refilled_twice` is
a sequence that exceeds the bound without the last part.
-/

namespace Skattr.Mailbox

/-- A bucket with the number of tokens that it has granted. -/
structure Meter where
  bucket : TokenBucket
  granted : Nat

def Meter.attempt (meter : Meter) (nowSecs : ℚ) : Meter :=
  match meter.bucket.tryAcquire nowSecs with
  | (.ok (), bucket) => ⟨bucket, meter.granted + 1⟩
  | (.error _, bucket) => ⟨bucket, meter.granted⟩

/-- The tokens that a bucket grants to attempts at these times, in this order. -/
def TokenBucket.granted (bucket : TokenBucket) (times : List ℚ) : Nat :=
  (times.foldl Meter.attempt ⟨bucket, 0⟩).granted

def latest (start : ℚ) (times : List ℚ) : ℚ := times.foldl max start

/-- How far the clock moves forward below the latest time that it has shown, `high`; the reading
before is `last`. -/
def rewalked (last high : ℚ) : List ℚ → ℚ
  | [] => 0
  | now :: times => max (min now high - last) 0 + rewalked now (max high now) times

def NeverRewalks (last high : ℚ) : List ℚ → Prop
  | [] => True
  | now :: times => (now ≤ last ∨ last = high) ∧ NeverRewalks now (max high now) times

/-! ### One attempt -/

theorem TokenBucket.refill_available_le (bucket : TokenBucket) (now : ℚ) :
    (bucket.refill now).available ≤
      bucket.available + max (now - bucket.lastRefill) 0 * bucket.fillPerSec :=
  min_le_left _ _

theorem Meter.attempt_eq (meter : Meter) (now : ℚ) :
    meter.attempt now =
      if (meter.bucket.refill now).available ≥ 1 then
        ⟨{ meter.bucket.refill now with available := (meter.bucket.refill now).available - 1 },
          meter.granted + 1⟩
      else ⟨meter.bucket.refill now, meter.granted⟩ := by
  unfold Meter.attempt TokenBucket.tryAcquire
  by_cases hone : (meter.bucket.refill now).available ≥ 1
  · simp only [if_pos hone]
  · simp only [if_neg hone]

/-- An attempt refills the bucket and then moves at most one whole token to the grants. -/
structure Meter.Attempted (meter next : Meter) (now : ℚ) : Prop where
  fillPerSec : next.bucket.fillPerSec = meter.bucket.fillPerSec
  capacity : next.bucket.capacity = meter.bucket.capacity
  lastRefill : next.bucket.lastRefill = now
  moved : (next.granted : ℚ) + next.bucket.available =
    meter.granted + (meter.bucket.refill now).available
  nonneg : 0 ≤ (meter.bucket.refill now).available → 0 ≤ next.bucket.available

theorem Meter.attempted (meter : Meter) (now : ℚ) : meter.Attempted (meter.attempt now) now := by
  rw [Meter.attempt_eq]
  split
  · next hone =>
    refine ⟨rfl, rfl, rfl, ?_, fun _ => sub_nonneg.mpr hone⟩
    push_cast
    ring
  · exact ⟨rfl, rfl, rfl, rfl, id⟩

variable {high : ℚ}

theorem elapsed_eq {last : ℚ} (h : last ≤ high) (now : ℚ) :
    max (now - last) 0 = max (min now high - last) 0 + (max high now - high) := by
  rcases le_total now high with hnow | hnow
  · rw [min_eq_left hnow, max_eq_left hnow, sub_self, add_zero]
  · rw [min_eq_right hnow, max_eq_right hnow, max_eq_left (by linarith), max_eq_left (by linarith)]
    ring

theorem latest_cons (start now : ℚ) (times : List ℚ) :
    latest start (now :: times) = latest (max start now) times := rfl

/-! ### Every sequence of attempts -/

/-- Grants and tokens together grow only by the refill, which is that of the time up to the latest
reading and of the time that is walked again. -/
theorem granted_add_available_le (times : List ℚ) (meter : Meter)
    (hfill : 0 ≤ meter.bucket.fillPerSec) (hcap : 0 ≤ meter.bucket.capacity)
    (havailable : 0 ≤ meter.bucket.available) (hlast : meter.bucket.lastRefill ≤ high) :
    ((times.foldl Meter.attempt meter).granted : ℚ) ≤ meter.granted + meter.bucket.available +
      meter.bucket.fillPerSec *
        (latest high times - high + rewalked meter.bucket.lastRefill high times) := by
  induction times generalizing meter high with
  | nil =>
    show (meter.granted : ℚ) ≤ _ + meter.bucket.fillPerSec * (high - high + 0)
    linarith
  | cons now times ih =>
    have hattempt := meter.attempted now
    have hrefill := meter.bucket.refill_available_le now
    have helapsed := elapsed_eq hlast now
    have hrefilled : 0 ≤ (meter.bucket.refill now).available :=
      le_min (add_nonneg havailable (mul_nonneg (le_max_right _ _) hfill)) hcap
    have hanchor : (meter.attempt now).bucket.lastRefill ≤ max high now := by
      rw [hattempt.lastRefill]
      exact le_max_right _ _
    have hnext := ih (meter.attempt now) (hattempt.fillPerSec ▸ hfill)
      (hattempt.capacity ▸ hcap) (hattempt.nonneg hrefilled) hanchor
    rw [hattempt.fillPerSec, hattempt.lastRefill, hattempt.moved] at hnext
    rw [helapsed] at hrefill
    rw [List.foldl_cons, latest_cons, rewalked]
    linarith

theorem rewalked_eq_zero {times : List ℚ} {last : ℚ} (hlast : last ≤ high)
    (h : NeverRewalks last high times) : rewalked last high times = 0 := by
  induction times generalizing last high with
  | nil => rfl
  | cons now times ih =>
    rw [rewalked, ih (le_max_right _ _) h.2, add_zero, max_eq_right]
    rcases h.1 with hback | htop
    · linarith [min_le_left now high]
    · linarith [min_le_right now high]

/-- A bucket that is full at its start grants no more than its capacity, the refill up to the latest
time, and the refill of the time that the clock walks again. There is none of the last part when the
clock comes forward only from its latest time. -/
theorem granted_le (tokensPerMin : Nat) (start : ℚ) (times : List ℚ) :
    ((TokenBucket.new tokensPerMin start).granted times : ℚ) ≤
        tokensPerMin + (tokensPerMin : ℚ) / 60 *
          (latest start times - start + rewalked start start times) ∧
      (NeverRewalks start start times →
        ((TokenBucket.new tokensPerMin start).granted times : ℚ) ≤
          tokensPerMin + (tokensPerMin : ℚ) / 60 * (latest start times - start)) := by
  have hpos : (0 : ℚ) ≤ tokensPerMin := Nat.cast_nonneg _
  have hbound := granted_add_available_le times ⟨TokenBucket.new tokensPerMin start, 0⟩
    (div_nonneg hpos (by norm_num)) hpos hpos (le_refl start)
  have hgeneral : ((TokenBucket.new tokensPerMin start).granted times : ℚ) ≤
      tokensPerMin + (tokensPerMin : ℚ) / 60 *
        (latest start times - start + rewalked start start times) := by
    simpa [TokenBucket.new, TokenBucket.granted] using hbound
  refine ⟨hgeneral, fun hclock => ?_⟩
  rwa [rewalked_eq_zero le_rfl hclock, add_zero] at hgeneral

/-- The clock goes back by a minute and comes forward again: one token a minute is granted twice at
the time the bucket was started at. -/
theorem interval_refilled_twice :
    (TokenBucket.new 1 60).granted [60, 0, 60] = 2 ∧
      ¬((TokenBucket.new 1 60).granted [60, 0, 60] : ℚ) ≤
        (1 : Nat) + ((1 : Nat) : ℚ) / 60 * (latest 60 [60, 0, 60] - 60) := by
  have hgranted : (TokenBucket.new 1 60).granted [60, 0, 60] = 2 := by decide +kernel
  have hlatest : latest 60 [60, 0, 60] = 60 := by decide +kernel
  refine ⟨hgranted, ?_⟩
  rw [hgranted, hlatest]
  norm_num

/-- A clock that only goes forward, and one that goes back for good. -/
theorem steady_clock_granted :
    NeverRewalks 0 0 [0, 30, 90, 45] ∧
      ((TokenBucket.new 2 0).granted [0, 30, 90, 45] : ℚ) ≤
        (2 : Nat) + ((2 : Nat) : ℚ) / 60 * (latest 0 [0, 30, 90, 45] - 0) := by
  have hclock : NeverRewalks 0 0 [0, 30, 90, 45] := by
    simp only [NeverRewalks]
    norm_num
  exact ⟨hclock, (granted_le 2 0 [0, 30, 90, 45]).2 hclock⟩

end Skattr.Mailbox
