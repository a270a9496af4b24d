import Reckoner.Proofs.Calculator.Display
import Reckoner.Proofs.Decimal.Numeral

namespace Reckoner.Decimal

/-!
# Printed numbers are canonical

* `canonical_toString`: the text of an integer is its canonical text.
* `denotes_fixed`: a number printed with some places denotes the nearest one with so many places.
* `dropTrailingZeros_fixed`: dropping the zeros at its end is all there is to reduce.
-/

/-! ### Integers -/

/-- Digits without places behind the point. -/
theorem decimalValue_nil (ds : List Char) : decimalValue ds [] = digitsValue ds := by
  unfold decimalValue
  rw [List.append_nil, List.length_nil, Nat.pow_zero, Nat.cast_one, div_one]

/-- The digits of a natural number. -/
theorem canonical_toDigits (n : Nat) : Canonical (Nat.toDigits 10 n) n := by
  have hempty : IsFraction [] := ⟨by simp [Digits], by simp⟩
  have hvalue : decimalValue (Nat.toDigits 10 n) [] = n := by
    rw [decimalValue_nil, digitsValue, Nat.ofDigitChars_ten_toDigits]
  rw [← hvalue]
  exact Canonical.unsigned (isWhole_toDigits n) hempty

/-- **The text of an integer is canonical.** -/
theorem canonical_toString (n : Int) : Canonical (toString n).toList n := by
  rw [Int.toString_eq_repr]
  cases n with
  | ofNat n =>
    show Canonical (Nat.repr n).toList n
    rw [Nat.toList_repr]
    exact canonical_toDigits n
  | negSucc n =>
    have htext : (Int.repr (Int.negSucc n)).toList = '-' :: Nat.toDigits 10 (n + 1) := by
      show ("-" ++ Nat.repr (n + 1)).toList = _
      rw [String.toList_append, Nat.toList_repr]
      rfl
    have hvalue : ((Int.negSucc n : Int) : Rat) = -((n + 1 : Nat) : Rat) := by
      rw [Int.cast_negSucc]
    rw [htext, hvalue]
    exact Canonical.negative (by positivity) (canonical_toDigits (n + 1))

/-! ### Places behind the point -/

/-- Zeros at the end of a number with a point are zeros at the end of its fraction. -/
theorem rdropWhile_append_point (ds fs : List Char) :
    (ds ++ '.' :: fs).rdropWhile (· = '0') = ds ++ '.' :: fs.rdropWhile (· = '0') := by
  induction fs using List.reverseRecOn with
  | nil => exact List.rdropWhile_concat_neg _ ds '.' (by simp)
  | append_singleton fs c ih =>
    have hassoc : ds ++ '.' :: (fs ++ [c]) = (ds ++ '.' :: fs) ++ [c] := by simp
    rw [hassoc, List.rdropWhile_concat, List.rdropWhile_concat]
    by_cases hc : decide (c = '0') = true
    · rw [if_pos hc, if_pos hc, ih]
    · rw [if_neg hc, if_neg hc, hassoc]

/-- **Dropping zeros and the point from the end** of a number reduces it, if there are no zeros in
    front; a sign before the number makes no difference. -/
theorem dropTrailingZeros_append {ds fs : List Char} (sign : List Char) (hds : IsWhole ds)
    (hfs : Digits fs) :
    dropTrailingZeros (sign ++ (ds ++ '.' :: fs)) = sign ++ reduced (ds ++ '.' :: fs) := by
  rw [dropTrailingZeros_eq, ← List.append_assoc, rdropWhile_append_point, reduced_point hds.digits,
    hds.withoutLeading]
  have hplaces : Digits (fs.rdropWhile (· = '0')) :=
    hfs.subset (List.rdropWhile_prefix _ fs).subset
  generalize fs.rdropWhile (· = '0') = places at hplaces
  unfold withPoint
  by_cases hnone : places = []
  · -- The point is the last character, and before it is a digit.
    subst hnone
    rw [if_pos rfl, List.rdropWhile_concat_pos _ _ '.' (by simp), List.rdropWhile_eq_self_iff]
    intro hne
    rw [List.getLast_append_of_ne_nil hne hds.ne_nil]
    simpa using hds.digits.ne_point _ (List.getLast_mem hds.ne_nil)
  · rw [if_neg hnone, ← List.append_assoc, List.rdropWhile_eq_self_iff]
    intro hne
    rw [List.getLast_append_of_ne_nil hne (by simp), List.getLast_cons hnone]
    simpa using hplaces.ne_point _ (List.getLast_mem hnone)

variable {places : Nat}

/-- A number printed with some places: its digits, the last of them behind the point. -/
theorem fixed_eq (hplaces : places ≠ 0) (n d : Nat) :
    fixed places n d =
      Nat.toDigits 10 (nearestEven (n * 10 ^ places) d / 10 ^ places) ++
        '.' :: lastDigits places (nearestEven (n * 10 ^ places) d) := by
  unfold fixed
  rw [if_neg hplaces]

/-- The last digits of a number are digits. -/
theorem digits_lastDigits (places n : Nat) : Digits (lastDigits places n) :=
  fun _ => isDigit_of_mem_lastDigits

/-- **A number printed with some places** denotes the nearest number with so many places. -/
theorem denotes_fixed (hplaces : places ≠ 0) (n d : Nat) :
    Denotes (fixed places n d) (nearestEven (n * 10 ^ places) d / (10 ^ places : Nat)) := by
  rw [fixed_eq hplaces]
  generalize nearestEven (n * 10 ^ places) d = scaled
  have hwhole : IsWhole (Nat.toDigits 10 (scaled / 10 ^ places)) := isWhole_toDigits _
  have hvalue : decimalValue (Nat.toDigits 10 (scaled / 10 ^ places)) (lastDigits places scaled) =
      scaled / (10 ^ places : Nat) := by
    have htens : digitsValue (Nat.toDigits 10 (scaled / 10 ^ places)) = scaled / 10 ^ places :=
      Nat.ofDigitChars_ten_toDigits
    unfold decimalValue
    rw [digitsValue_append, htens, digitsValue_lastDigits, length_lastDigits, Nat.div_add_mod']
  rw [← hvalue]
  exact Denotes.point hwhole.digits (digits_lastDigits _ _) (by simp [hwhole.ne_nil])

/-- What is printed is reduced by dropping the zeros at its end. -/
theorem dropTrailingZeros_fixed (sign : List Char) (hplaces : places ≠ 0) (n d : Nat) :
    dropTrailingZeros (sign ++ fixed places n d) = sign ++ reduced (fixed places n d) := by
  rw [fixed_eq hplaces]
  exact dropTrailingZeros_append sign (isWhole_toDigits _) (digits_lastDigits _ _)

end Reckoner.Decimal
