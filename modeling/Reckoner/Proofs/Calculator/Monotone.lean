import Reckoner.Proofs.Binary64.Error
import Reckoner.Proofs.Calculator.Printed

namespace Reckoner

/-!
# Display keeps the order

Each step on the way to the text of a number that is not integral keeps the order, so two such
numbers are shown in order.  Integral numbers go another way, without rounding.  The two ways agree
because no step crosses an integer, although the product with the scale may be off by more than one:
a number that is not an integer is a step of its grid away from it, and the error of the product is
less than that step times the scale.

* `Decimal.numberOf cs`: the number that a text stands for.
* `Display.scaledFloor_mono`, `Display.mul_scale_le_scaledFloor`,
  `Display.scaledFloor_le_mul_scale`: the floor keeps the order and stays between integers.
* `Display.shownPlaces_mono`: so does what is shown.
* `Display.format_mono`: the numbers that are written are in the order of the doubles.
-/

namespace Decimal

/-- The number that digits with at most one point stand for. -/
def unsignedNumberOf (cs : List Char) : Rat :=
  decimalValue (cs.takeWhile (· ≠ '.')) ((cs.dropWhile (· ≠ '.')).drop 1)

/-- The number that a text stands for: digits with at most one point, with a minus or without. -/
def numberOf : List Char → Rat
  | '-' :: cs => -unsignedNumberOf cs
  | cs => unsignedNumberOf cs

/-- Without a minus the digits are all there is. -/
theorem numberOf_of_head?_ne {cs : List Char} (h : cs.head? ≠ some '-') :
    numberOf cs = unsignedNumberOf cs := by
  unfold numberOf
  split
  · exact absurd rfl h
  · rfl

/-- Digits with a point are read as they are put together. -/
theorem unsignedNumberOf_withPoint {ds : List Char} (h : Digits ds) (fs : List Char) :
    unsignedNumberOf (withPoint ds fs) = decimalValue ds fs := by
  unfold unsignedNumberOf withPoint
  by_cases hnone : fs = []
  · rw [if_pos hnone, List.takeWhile_eq_self_iff.2 h.ne_point,
      List.dropWhile_eq_nil_iff.2 h.ne_point, hnone]
    rfl
  · rw [if_neg hnone, List.takeWhile_append_of_pos h.ne_point,
      List.dropWhile_append_of_pos h.ne_point]
    simp

/-- **A canonical text stands for its number.** -/
theorem Canonical.numberOf_eq {cs : List Char} {q : Rat} (h : Canonical cs q) :
    numberOf cs = q := by
  have hunsigned {ds fs : List Char} (hds : IsWhole ds) :
      (withPoint ds fs).head? ≠ some '-' := by
    obtain ⟨first, rest, rfl⟩ := List.exists_cons_of_ne_nil hds.ne_nil
    have hfirst : (withPoint (first :: rest) fs).head? = some first := by
      unfold withPoint
      split <;> rfl
    rw [hfirst]
    intro hminus
    rw [Option.some.inj hminus] at hds
    exact absurd (hds.digits '-' List.mem_cons_self) (by decide)
  cases h with
  | unsigned hds _ =>
    rw [numberOf_of_head?_ne (hunsigned hds), unsignedNumberOf_withPoint hds.digits]
  | negative hpos hcanonical =>
    cases hcanonical with
    | unsigned hds _ =>
      show -unsignedNumberOf (withPoint _ _) = _
      rw [unsignedNumberOf_withPoint hds.digits]
    | negative hpos' _ => linarith

/-- The zeros of a fraction count as places. -/
example : numberOf "-0.05".toList = -1 / 20 := by decide +kernel

end Decimal

namespace Display

open Binary64

variable {p : Precision} {m n k : Int}

/-! ### The product and the floor -/

/-- **The product keeps the order.** -/
theorem scaledUnits_mono (p : Precision) (h : m ≤ n) : scaledUnits p m ≤ scaledUnits p n := by
  have hone : (0 : Int) ≤ perOne := Int.natCast_nonneg _
  have hscaled : m * (10 ^ p.val : Nat) ≤ n * (10 ^ p.val : Nat) :=
    Int.mul_le_mul_of_nonneg_right h (Int.natCast_nonneg _)
  apply roundedUnits_mono perOne_pos perOne_pos
  exact Int.mul_le_mul_of_nonneg_right (Int.mul_le_mul_of_nonneg_right hscaled hone) hone

/-- **The floor keeps the order.** -/
theorem scaledFloor_mono (p : Precision) (h : m ≤ n) : scaledFloor p m ≤ scaledFloor p n := by
  have hsum : scaledUnits p m + (perOne / 2 : Nat) ≤ scaledUnits p n + (perOne / 2 : Nat) :=
    Int.add_le_add_right (scaledUnits_mono p h) _
  exact Int.ediv_le_ediv perOne_pos_int
    (roundedUnits_mono Nat.one_pos Nat.one_pos (Int.mul_le_mul_of_nonneg_right hsum (by decide)))

/-- The sum with one half is not below the product and not more than one above it. -/
theorem scaledUnits_le_sum (p : Precision) (m : Int) :
    scaledUnits p m ≤ roundedUnits (scaledUnits p m + (perOne / 2 : Nat)) 1 ∧
      roundedUnits (scaledUnits p m + (perOne / 2 : Nat)) 1 ≤ scaledUnits p m + perOne := by
  obtain ⟨hlower, hupper⟩ := roundedUnits_add_half (w := scaledUnits p m)
    (h := (perOne / 2 : Nat)) (Int.natCast_nonneg _) (roundedUnits_dvd _ _)
  exact ⟨hlower, by omega⟩

/-! ### Between integers -/

section Fraction

-- The number is on the grid and is not an integer.
variable (hm : 2 ^ spacing m.natAbs ∣ m.natAbs) (hfraction : ¬ (perOne : Int) ∣ m)

include hm hfraction

/-- The number is a step of the grid away from every integer, as these are on the same grid. -/
theorem step_le_of_not_dvd (k : Int) : 2 ^ spacing m.natAbs ≤ (m - k * perOne).natAbs := by
  have hone : 2 ^ spacing m.natAbs ∣ perOne :=
    two_pow_dvd_perOne hm (fun h => hfraction (Int.natCast_dvd.2 h))
  have hdvd : ((2 ^ spacing m.natAbs : Nat) : Int) ∣ m - k * perOne :=
    Int.dvd_sub (Int.natCast_dvd.2 hm)
      (Int.dvd_trans (Int.natCast_dvd_natCast.2 hone) (Int.dvd_mul_left k _))
  have hne : m - k * perOne ≠ 0 := by
    intro hzero
    exact hfraction ⟨k, by rw [Int.mul_comm]; omega⟩
  exact Nat.le_of_dvd (Int.natAbs_pos.2 hne) (Int.natCast_dvd.1 hdvd)

/-- **The product does not cross integers**: its error is less than a step of the grid at the number
    times the scale. -/
theorem mul_scale_lt_scaledUnits (h : k * perOne ≤ m) :
    k * (10 ^ p.val : Nat) * perOne < scaledUnits p m := by
  have hscale : 0 < 10 ^ p.val := Nat.pow_pos (by decide)
  have hstep := step_le_of_not_dvd hm hfraction k
  have hnear := roundedUnits_mul_near m hscale perOne_pos
  have haway : (k * perOne + (2 ^ spacing m.natAbs : Nat)) * (10 ^ p.val : Nat) ≤
      m * (10 ^ p.val : Nat) :=
    Int.mul_le_mul_of_nonneg_right (by omega) (Int.natCast_nonneg _)
  rw [Int.add_mul, ← Int.natCast_mul, Int.mul_right_comm] at haway
  unfold scaledUnits
  omega

/-- The same from above. -/
theorem scaledUnits_lt_mul_scale (h : m ≤ k * perOne) :
    scaledUnits p m < k * (10 ^ p.val : Nat) * perOne := by
  have hscale : 0 < 10 ^ p.val := Nat.pow_pos (by decide)
  have hstep := step_le_of_not_dvd hm hfraction k
  have hnear := roundedUnits_mul_near m hscale perOne_pos
  have haway : (m + (2 ^ spacing m.natAbs : Nat)) * (10 ^ p.val : Nat) ≤
      k * perOne * (10 ^ p.val : Nat) :=
    Int.mul_le_mul_of_nonneg_right (by omega) (Int.natCast_nonneg _)
  rw [Int.add_mul, ← Int.natCast_mul, Int.mul_right_comm] at haway
  unfold scaledUnits
  omega

/-- **The floor does not fall below an integer** below the number. -/
theorem mul_scale_le_scaledFloor (h : k * perOne ≤ m) :
    k * (10 ^ p.val : Nat) ≤ scaledFloor p m := by
  have hproduct := mul_scale_lt_scaledUnits (p := p) hm hfraction h
  have hsum := (scaledUnits_le_sum p m).1
  exact (Int.le_ediv_iff_mul_le perOne_pos_int).2 (by omega)

/-- **The floor does not rise above an integer** above the number. -/
theorem scaledFloor_le_mul_scale (h : m ≤ k * perOne) :
    scaledFloor p m ≤ k * (10 ^ p.val : Nat) := by
  have hproduct := scaledUnits_lt_mul_scale (p := p) hm hfraction h
  have hsum := (scaledUnits_le_sum p m).2
  apply Int.le_of_lt_add_one
  apply (Int.ediv_lt_iff_lt_mul perOne_pos_int).2
  rw [Int.add_mul, Int.one_mul]
  omega

end Fraction

/-! ### What is shown -/

/-- The integer below a number with a fractional part. -/
theorem floor_bounds (hm : Representable m.natAbs) (hfraction : ¬ (perOne : Int) ∣ m) :
    -2 ^ 52 ≤ m / perOne ∧ m / perOne < 2 ^ 52 := by
  have hsize : m.natAbs < 2 ^ 52 * perOne :=
    units_lt_of_not_dvd hm (fun h => hfraction (Int.natCast_dvd.2 h))
  constructor
  · exact (Int.le_ediv_iff_mul_le perOne_pos_int).2 (by omega)
  · exact (Int.ediv_lt_iff_lt_mul perOne_pos_int).2 (by omega)

/-- **An integer below a number** is not above what is shown of it. -/
theorem mul_scale_le_shownPlaces (p : Precision) (hm : Representable m.natAbs)
    (h : k * perOne ≤ m) : k * (10 ^ p.val : Nat) ≤ shownPlaces p m := by
  have hinteger : k ≤ m / perOne := (Int.le_ediv_iff_mul_le perOne_pos_int).2 h
  have hfloor : k * (10 ^ p.val : Nat) ≤ m / perOne * (10 ^ p.val : Nat) :=
    Int.mul_le_mul_of_nonneg_right hinteger (Int.natCast_nonneg _)
  unfold shownPlaces
  by_cases hdvd : (perOne : Int) ∣ m
  · rw [if_pos hdvd]
    exact hfloor
  · -- The greatest such integer is small enough to be printed as it is.
    obtain ⟨hge, hlt⟩ := floor_bounds hm hdvd
    rw [if_neg hdvd]
    calc k * (10 ^ p.val : Nat) ≤ m / perOne * (10 ^ p.val : Nat) := hfloor
      _ = printed p (m / perOne * (10 ^ p.val : Nat)) := (printed_mul_scale p (by omega)).symm
      _ ≤ printed p (scaledFloor p m) :=
          printed_mono p (mul_scale_le_scaledFloor hm.2 hdvd (Int.ediv_mul_le m perOne_pos_int.ne'))

/-- **An integer above a number** is not below what is shown of it. -/
theorem shownPlaces_le_mul_scale (p : Precision) (hm : Representable m.natAbs)
    (h : m ≤ k * perOne) : shownPlaces p m ≤ k * (10 ^ p.val : Nat) := by
  unfold shownPlaces
  by_cases hdvd : (perOne : Int) ∣ m
  · rw [if_pos hdvd]
    have hinteger : m / perOne ≤ k := Int.ediv_le_of_le_mul perOne_pos_int h
    exact Int.mul_le_mul_of_nonneg_right hinteger (Int.natCast_nonneg _)
  · obtain ⟨hge, hlt⟩ := floor_bounds hm hdvd
    have hne : m ≠ k * perOne := by
      intro heq
      exact hdvd (heq ▸ Int.dvd_mul_left k _)
    have hfloor : m / perOne < k := (Int.ediv_lt_iff_lt_mul perOne_pos_int).2 (by omega)
    have hnext : m ≤ (m / perOne + 1) * perOne :=
      Int.le_of_lt (Int.lt_ediv_add_one_mul_self m perOne_pos_int)
    rw [if_neg hdvd]
    calc printed p (scaledFloor p m) ≤ printed p ((m / perOne + 1) * (10 ^ p.val : Nat)) :=
          printed_mono p (scaledFloor_le_mul_scale hm.2 hdvd hnext)
      _ = (m / perOne + 1) * (10 ^ p.val : Nat) := printed_mul_scale p (by omega)
      _ ≤ k * (10 ^ p.val : Nat) :=
          Int.mul_le_mul_of_nonneg_right (by omega) (Int.natCast_nonneg _)

/-- **What is shown keeps the order**, whichever way the two numbers go. -/
theorem shownPlaces_mono (p : Precision) (hm : Representable m.natAbs)
    (hn : Representable n.natAbs) (h : m ≤ n) : shownPlaces p m ≤ shownPlaces p n := by
  by_cases hmdvd : (perOne : Int) ∣ m
  · obtain ⟨k, hk⟩ := hmdvd
    rw [Int.mul_comm] at hk
    calc shownPlaces p m ≤ k * (10 ^ p.val : Nat) :=
          shownPlaces_le_mul_scale p hm (Int.le_of_eq hk)
      _ ≤ shownPlaces p n := mul_scale_le_shownPlaces p hn (by omega)
  · by_cases hndvd : (perOne : Int) ∣ n
    · obtain ⟨k, hk⟩ := hndvd
      rw [Int.mul_comm] at hk
      calc shownPlaces p m ≤ k * (10 ^ p.val : Nat) := shownPlaces_le_mul_scale p hm (by omega)
        _ ≤ shownPlaces p n := mul_scale_le_shownPlaces p hn (Int.le_of_eq hk.symm)
    · -- Both are rounded, step by step.
      rw [shownPlaces, shownPlaces, if_neg hmdvd, if_neg hndvd]
      exact printed_mono p (scaledFloor_mono p h)

/-- **Display keeps the order.**  Of finite doubles with `a ≤ b` the number that is written for `a`
    is not above the number that is written for `b`.  An integer below or above a double is below or
    above what is written for it, so integral doubles are exact and no other one crosses them. -/
theorem format_mono (p : Precision) {x y : Binary64} {a b : Rat} (hx : x.value? = some a)
    (hy : y.value? = some b) (h : a ≤ b) :
    ∃ s t, format p x = .ok s ∧ format p y = .ok t ∧
      Decimal.numberOf s.toList ≤ Decimal.numberOf t.toList ∧
      ∀ n : Int, (n ≤ a → n ≤ Decimal.numberOf s.toList) ∧
        (a ≤ n → Decimal.numberOf s.toList ≤ n) := by
  obtain ⟨m, hm, hma⟩ := value?_eq_some_iff.1 hx
  obtain ⟨n, hn, hnb⟩ := value?_eq_some_iff.1 hy
  obtain ⟨s, hs, hstext⟩ := format_eq_shown p hm
  obtain ⟨t, ht, httext⟩ := format_eq_shown p hn
  have hmrep := representable_of_signedUnits? hm
  have hnrep := representable_of_signedUnits? hn
  have hone := perOne_pos_rat
  have hscale : (0 : Rat) < (10 ^ p.val : Nat) := by positivity
  rw [div_eq_iff hone.ne'] at hma hnb
  refine ⟨s, t, hs, ht, ?_, ?_⟩
  · rw [hstext.numberOf_eq, httext.numberOf_eq, div_le_div_iff_of_pos_right hscale]
    have hunits : m ≤ n := by
      rw [← @Int.cast_le Rat, hma, hnb]
      exact mul_le_mul_of_nonneg_right h hone.le
    exact_mod_cast shownPlaces_mono p hmrep hnrep hunits
  · intro k
    rw [hstext.numberOf_eq, le_div_iff₀ hscale, div_le_iff₀ hscale]
    constructor
    · intro hk
      have hunits : k * perOne ≤ m := by
        rw [← @Int.cast_le Rat, hma, Int.cast_mul, Int.cast_natCast]
        exact mul_le_mul_of_nonneg_right hk hone.le
      exact_mod_cast mul_scale_le_shownPlaces p hmrep hunits
    · intro hk
      have hunits : m ≤ k * perOne := by
        rw [← @Int.cast_le Rat, hma, Int.cast_mul, Int.cast_natCast]
        exact mul_le_mul_of_nonneg_right hk hone.le
      exact_mod_cast shownPlaces_le_mul_scale p hmrep hunits

/-- Where the scaled number has no fractional part left, the integer above is not crossed. -/
theorem format_mono_large : (ofRatio (2 ^ 53 - 1) 2).value? = some (2 ^ 52 - 1 / 2) ∧
    (ofInt (2 ^ 52)).value? = some (2 ^ 52) ∧
    ∃ s t, format 15 (ofRatio (2 ^ 53 - 1) 2) = .ok s ∧ format 15 (ofInt (2 ^ 52)) = .ok t ∧
      Decimal.numberOf s.toList ≤ Decimal.numberOf t.toList := by
  have hx : (ofRatio (2 ^ 53 - 1) 2).value? = some (2 ^ 52 - 1 / 2) := by decide +kernel
  have hy : (ofInt (2 ^ 52)).value? = some (2 ^ 52) := by decide +kernel
  obtain ⟨s, t, hs, ht, hle, -⟩ := format_mono 15 hx hy (by norm_num)
  exact ⟨hx, hy, s, t, hs, ht, hle⟩

end Display

end Reckoner
