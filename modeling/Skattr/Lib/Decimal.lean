import Mathlib.Algebra.Group.Int.Defs

/-!
# Decimal numbers

Signed 64-bit numbers as decimal text. The reader takes one sign and at least one digit, and
refuses a number out of range.
-/

namespace Skattr.Lib.Decimal

def I64 (n : Int) : Prop := -2 ^ 63 ≤ n ∧ n < 2 ^ 63

instance (n : Int) : Decidable (I64 n) := inferInstanceAs (Decidable (_ ∧ _))

def showI64 (n : Int) : List Char :=
  if n < 0 then '-' :: Nat.toDigits 10 n.natAbs else Nat.toDigits 10 n.natAbs

def parseDigits (digits : List Char) : Option Nat :=
  if digits ≠ [] ∧ digits.all Char.isDigit then some (Nat.ofDigitChars 10 digits 0) else none

def parseI64 (text : List Char) : Option Int :=
  let digits := if text.head? = some '-' ∨ text.head? = some '+' then text.tail else text
  let value := (parseDigits digits).map fun n : Nat =>
    if text.head? = some '-' then -(n : Int) else n
  value.filter fun n => I64 n

theorem isDigit_of_mem {n : Nat} {c : Char} (h : c ∈ Nat.toDigits 10 n) : c.isDigit :=
  Nat.isDigit_of_mem_toDigits (by decide) (by decide) h

theorem parseDigits_toDigits (n : Nat) : parseDigits (Nat.toDigits 10 n) = some n := by
  have hdigits : (Nat.toDigits 10 n).all Char.isDigit = true :=
    List.all_eq_true.mpr fun _ => isDigit_of_mem
  rw [parseDigits, if_pos ⟨Nat.toDigits_ne_nil, hdigits⟩,
    Nat.ofDigitChars_toDigits (by decide) (by decide)]

theorem head?_toDigits_ne (n : Nat) {c : Char} (hc : ¬c.isDigit) :
    (Nat.toDigits 10 n).head? ≠ some c :=
  fun h => hc (isDigit_of_mem (List.mem_of_head? h))

/-- A number in range is read back; any other one is refused. -/
theorem parseI64_showI64 (n : Int) : parseI64 (showI64 n) = if I64 n then some n else none := by
  have hvalue : parseI64 (showI64 n) = (some n).filter fun n => I64 n := by
    unfold showI64 parseI64
    by_cases hn : n < 0
    · simp only [if_pos hn, List.head?_cons, true_or, if_true, List.tail_cons,
        parseDigits_toDigits, Option.map_some]
      rw [Int.ofNat_natAbs_of_nonpos (by omega), Int.neg_neg]
    · have hminus := head?_toDigits_ne n.natAbs (c := '-') (by decide)
      have hplus := head?_toDigits_ne n.natAbs (c := '+') (by decide)
      simp only [if_neg hn, hminus, hplus, or_self, if_false, parseDigits_toDigits,
        Option.map_some]
      rw [Int.natAbs_of_nonneg (by omega)]
  rw [hvalue, Option.filter_some]
  simp

theorem I64.of_parse {text : List Char} {n : Int} (h : parseI64 text = some n) : I64 n := by
  simpa using (Option.filter_eq_some_iff.mp h).2

theorem showI64_chars {n : Int} {c : Char} (h : c ∈ showI64 n) : c = '-' ∨ c.isDigit := by
  unfold showI64 at h
  split at h
  · exact (List.mem_cons.mp h).imp_right isDigit_of_mem
  · exact .inr (isDigit_of_mem h)

end Skattr.Lib.Decimal
