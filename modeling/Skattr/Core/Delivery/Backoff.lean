import Mathlib.Algebra.Order.Floor.Semiring
import Mathlib.Data.Rat.Floor
import Mathlib.Tactic.Linarith
import Mathlib.Tactic.Positivity
import Skattr.Core.Delivery.Outbox

/-!
# Exponential backoff

The delay before a failed delivery is tried again doubles from one second up to a cap of five
minutes and is perturbed by a random factor. The doubling is a shift of a 128-bit word that is
checked against the word size only, so that the bits of one second are shifted out unnoticed.

`backoff_sound_iff` says that the delay is what it should be, and no smaller than that of fewer
attempts, for every number of attempts other than 125, 126 and 127. `backoff_vanishes` shows the
delay of 125 attempts, which is zero.
-/

namespace Skattr.Core.Delivery

open Lib

def BASE : Nat := 1000

def CAP : Nat := 300000

/-- `u128::checked_shl`. Only a shift by the word size or more is an overflow; bits that leave the
word in a smaller shift are lost. -/
def checkedShl (value : Nat) (bits : UInt32) : Option Nat :=
  if bits.toNat < 128 then some (value * 2 ^ bits.toNat % 2 ^ 128) else none

def cappedMs (attempts : UInt32) : Nat :=
  min ((checkedShl BASE attempts).getD (2 ^ 128 - 1)) CAP

def backoff (attempts : UInt32) (factor : ℚ) : Nat := ⌊(cappedMs attempts : ℚ) * factor⌋₊

def Outbox.rescheduleAfter (outbox : Outbox) (id : Nat) (attemptsNow : UInt32) (factor : ℚ)
    (now : Int) : Outbox :=
  outbox.reschedule id (saturate (now + backoff attemptsNow factor))

/-! ### The delay before the jitter -/

theorem capped_shift {n : Nat} (h : n < 128) :
    min (BASE * 2 ^ n % 2 ^ 128) CAP =
      if n ≤ 8 then 1000 * 2 ^ n else if n < 125 then 300000 else 0 := by
  revert n
  decide

def Vanishes (attempts : UInt32) : Prop := 125 ≤ attempts ∧ attempts ≤ 127

variable {attempts : UInt32} {factor : ℚ}

theorem vanishes_iff : Vanishes attempts ↔ 125 ≤ attempts.toNat ∧ attempts.toNat ≤ 127 := by
  rw [Vanishes, UInt32.le_iff_toNat_le, UInt32.le_iff_toNat_le]
  rfl

theorem cappedMs_eq (attempts : UInt32) :
    cappedMs attempts =
      if attempts.toNat ≤ 8 then 1000 * 2 ^ attempts.toNat
      else if 125 ≤ attempts.toNat ∧ attempts.toNat ≤ 127 then 0 else 300000 := by
  unfold cappedMs checkedShl
  by_cases hword : attempts.toNat < 128
  · rw [if_pos hword, Option.getD_some, capped_shift hword]
    split
    · rfl
    · split <;> split <;> omega
  · rw [if_neg hword, if_neg (by omega), if_neg (by omega), Option.getD_none]
    rfl

theorem cappedMs_le (attempts : UInt32) : cappedMs attempts ≤ CAP := Nat.min_le_right _ _

theorem doubled_bounds {n : Nat} (h : n ≤ 8) : 1000 ≤ 1000 * 2 ^ n ∧ 1000 * 2 ^ n ≤ 300000 := by
  revert n
  decide

theorem cappedMs_eq_zero (h : Vanishes attempts) : cappedMs attempts = 0 := by
  obtain ⟨hlow, hhigh⟩ := vanishes_iff.mp h
  rw [cappedMs_eq, if_neg (by omega), if_pos ⟨hlow, hhigh⟩]

theorem base_le_cappedMs (h : ¬Vanishes attempts) : BASE ≤ cappedMs attempts := by
  rw [vanishes_iff] at h
  rw [cappedMs_eq, if_neg h]
  split
  · next hsmall => exact (doubled_bounds hsmall).1
  · decide

theorem cappedMs_mono {earlier : UInt32} (hle : earlier ≤ attempts) (h : ¬Vanishes attempts) :
    cappedMs earlier ≤ cappedMs attempts := by
  rw [UInt32.le_iff_toNat_le] at hle
  rw [vanishes_iff] at h
  by_cases hsmall : attempts.toNat ≤ 8
  · rw [cappedMs_eq, cappedMs_eq, if_pos hsmall, if_pos (by omega)]
    exact Nat.mul_le_mul_left _ (Nat.pow_le_pow_right (by decide) hle)
  · -- from the ninth attempt on the delay is the cap
    rw [cappedMs_eq attempts, if_neg hsmall, if_neg h]
    exact cappedMs_le earlier

theorem four_dvd_cappedMs (attempts : UInt32) : 4 ∣ cappedMs attempts := by
  rw [cappedMs_eq]
  split
  · exact Dvd.dvd.mul_right (by decide) _
  · split <;> decide

/-! ### The delay with the jitter -/

theorem backoff_bounds (attempts : UInt32) (hlow : 3 / 4 ≤ factor) (hhigh : factor ≤ 5 / 4) :
    3 * cappedMs attempts ≤ 4 * backoff attempts factor ∧
      4 * backoff attempts factor ≤ 5 * cappedMs attempts := by
  obtain ⟨quarter, hquarter⟩ := four_dvd_cappedMs attempts
  have hcast : (cappedMs attempts : ℚ) = 4 * quarter := by
    rw [hquarter]
    push_cast
    ring
  have hpos : (0 : ℚ) ≤ quarter := Nat.cast_nonneg _
  have hlower : 3 * quarter ≤ backoff attempts factor := by
    refine Nat.le_floor ?_
    rw [hcast]
    push_cast
    nlinarith
  have hupper : backoff attempts factor ≤ 5 * quarter := by
    refine Nat.floor_le_of_le ?_
    rw [hcast]
    push_cast
    nlinarith
  omega

/-- What the delay after a number of attempts promises. -/
structure Sound (attempts : UInt32) : Prop where
  base : BASE ≤ cappedMs attempts
  cap : cappedMs attempts ≤ CAP
  monotone : ∀ earlier, earlier ≤ attempts → cappedMs earlier ≤ cappedMs attempts
  jitter : ∀ factor : ℚ, 3 / 4 ≤ factor → factor ≤ 5 / 4 →
    3 * cappedMs attempts ≤ 4 * backoff attempts factor ∧
      4 * backoff attempts factor ≤ 5 * cappedMs attempts
  rescheduled : ∀ factor : ℚ, 3 / 4 ≤ factor → factor ≤ 5 / 4 →
    ∀ (outbox : Outbox) (id : Nat) (now : Int) (row : OutboxRow), -(2 ^ 63) ≤ now →
      now + 750 < 2 ^ 63 →
      (outbox.rescheduleAfter id attempts factor now).rows.get id = some row →
        now + 750 ≤ row.nextRetryAt

theorem rescheduleAfter_le {outbox : Outbox} {id : Nat} {now : Int} {row : OutboxRow}
    (hdelay : 750 ≤ backoff attempts factor) (hnow : -(2 ^ 63) ≤ now) (hend : now + 750 < 2 ^ 63)
    (hrow : (outbox.rescheduleAfter id attempts factor now).rows.get id = some row) :
    now + 750 ≤ row.nextRetryAt := by
  rw [Outbox.rescheduleAfter, Outbox.get_reschedule, if_pos rfl] at hrow
  obtain ⟨before, -, rfl⟩ := Option.map_eq_some_iff.mp hrow
  show now + 750 ≤ max _ (min _ _)
  refine le_max_of_le_right (le_min ?_ ?_) <;> omega

/-- The delay is sound exactly for the numbers of attempts at which the shift keeps a bit. -/
theorem backoff_sound_iff (attempts : UInt32) :
    Sound attempts ↔ ¬(125 ≤ attempts ∧ attempts ≤ 127) := by
  constructor
  · intro h hvanishes
    have hbase := h.base
    rw [cappedMs_eq_zero hvanishes] at hbase
    exact absurd hbase (by decide)
  · intro h
    refine ⟨base_le_cappedMs h, cappedMs_le attempts, fun earlier hle => cappedMs_mono hle h,
      fun factor hlow hhigh => backoff_bounds attempts hlow hhigh,
      fun factor hlow hhigh outbox id now row hnow hend hrow => ?_⟩
    have hbase : 1000 ≤ cappedMs attempts := base_le_cappedMs h
    have hdelay := (backoff_bounds attempts hlow hhigh).1
    exact rescheduleAfter_le (by omega) hnow hend hrow

/-- After 125 attempts there is no delay, whatever factor is drawn, although there was one of five
minutes after 124: a row is due again at once. -/
theorem backoff_vanishes :
    cappedMs 124 = CAP ∧ cappedMs 125 = 0 ∧ (∀ factor : ℚ, backoff 125 factor = 0) ∧
      ¬Sound 125 := by
  have hzero : cappedMs 125 = 0 := by decide
  refine ⟨by decide, hzero, fun factor => ?_, fun h => ?_⟩
  · rw [backoff, hzero, Nat.cast_zero, zero_mul, Nat.floor_zero]
  · exact absurd h.base (by rw [hzero]; decide)

end Skattr.Core.Delivery
