import Reckoner.Proofs.Binary64.Error
import Reckoner.Proofs.Binary64.Half
import Reckoner.Proofs.Calculator.Printed

namespace Reckoner.Display

open Binary64

/-!
# How far display rounds half up

A number `q` should be shown as `⌊q * 10 ^ p + 1 / 2⌋ / 10 ^ p`.  The product with the scale, the
sum with one half, the quotient by the scale and its printed places are rounded in between.

* `format_of_floor?`: what is shown for the floor of the sum.
* `halfUp p q`: the number of last places that should be shown.
* `Overshoots p x e`: the product is rounded to where one half leads to `e + 1`.
* `format_halfUp`: the number that is shown.
* `overshoots_zero_iff`: with no places one double overshoots.
-/

/-- **What is shown once the floor is taken** is off from as many last places by a part of `2 ^ 52` at
    most, so it is exact below `2 ^ 52`. -/
theorem format_of_floor? {p : Precision} {x : Binary64} {m n : Int}
    (hx : x.signedUnits? = some m) (hint : x.isIntegral = false)
    (hm : m.natAbs ≤ 2 ^ 52 * perOne)
    (hfloor : ((x.mul (ofInt (10 ^ p.val))).add half).floor? = some n) :
    ∃ (text : String) (k : Int), format p x = .ok text ∧
      Decimal.Canonical text.toList (k / (10 ^ p.val : Nat)) ∧
      2 ^ 52 * (k - n).natAbs ≤ n.natAbs := by
  obtain ⟨text, hformat, htext⟩ := format_eq_printed hx hint hm hfloor
  exact ⟨text, printed p n, hformat, htext, printed_error p n⟩

/-! ### The rounded number -/

/-- A number with `p` places, a half going up: how many last places it has. -/
def halfUp (p : Precision) (q : Rat) : Int := ⌊q * (10 ^ p.val : Nat) + 1 / 2⌋

/-- The double product with the scale lies where one half leads above `e`: it is rounded to the tie,
    or to the greatest double below one half. -/
def Overshoots (p : Precision) (x : Binary64) (e : Int) : Prop :=
  (x.mul (ofInt (10 ^ p.val))).value? = some ((e : Rat) + 1 / 2) ∨
    x.mul (ofInt (10 ^ p.val)) = belowHalf

instance (p : Precision) (x : Binary64) (e : Int) : Decidable (Overshoots p x e) :=
  inferInstanceAs (Decidable (_ ∨ _))

variable {p : Precision} {x : Binary64} {q : Rat} {m e : Int}

/-- The bounds of the rounded number, in units. -/
theorem halfUp_bounds (p : Precision) (hq : (m : Rat) / perOne = q) :
    (2 * halfUp p q - 1) * perOne ≤ 2 * (m * (10 ^ p.val : Nat)) ∧
      2 * (m * (10 ^ p.val : Nat)) < (2 * halfUp p q + 1) * perOne := by
  have hle : (halfUp p q : Rat) ≤ q * (10 ^ p.val : Nat) + 1 / 2 := Int.floor_le _
  have hlt : q * (10 ^ p.val : Nat) + 1 / 2 < halfUp p q + 1 := Int.lt_floor_add_one _
  generalize halfUp p q = e at hle hlt
  have hunits : (2 * (m * (10 ^ p.val : Nat)) : Rat) = 2 * (q * (10 ^ p.val : Nat)) * perOne := by
    rw [(div_eq_iff perOne_pos_rat.ne').1 hq]
    ring
  have hlower : ((2 * e - 1) * perOne : Rat) ≤ 2 * (m * (10 ^ p.val : Nat)) := by
    rw [hunits]
    exact mul_le_mul_of_nonneg_right (by linarith) perOne_pos_rat.le
  have hupper : (2 * (m * (10 ^ p.val : Nat)) : Rat) < (2 * e + 1) * perOne := by
    rw [hunits]
    exact mul_lt_mul_of_pos_right (by linarith) perOne_pos_rat
  exact ⟨by exact_mod_cast hlower, by exact_mod_cast hupper⟩

/-- Integers have no more places. -/
theorem halfUp_intCast (p : Precision) (n : Int) : halfUp p n = n * (10 ^ p.val : Nat) := by
  unfold halfUp
  rw [Int.floor_eq_iff]
  push_cast
  constructor <;> linarith

/-- The tie above `e`, in units. -/
theorem value?_eq_tie_iff {y : Binary64} {w : Int} (hy : y.signedUnits? = some w) :
    y.value? = some ((e : Rat) + 1 / 2) ↔ 2 * w = (2 * e + 1) * perOne := by
  have hone := perOne_pos_rat
  rw [value?_of_signedUnits? hy, Option.some_inj, div_eq_iff hone.ne', ← @Int.cast_inj Rat]
  push_cast
  constructor <;> intro h <;> linarith

/-- The floor of the scaled number with its half. -/
theorem floor?_scaled (hx : x.signedUnits? = some m) (he : e.natAbs < 2 ^ 52)
    (hlower : (2 * e - 1) * perOne ≤ 2 * (m * (10 ^ p.val : Nat)))
    (hupper : 2 * (m * (10 ^ p.val : Nat)) < (2 * e + 1) * perOne) :
    ((x.mul (ofInt (10 ^ p.val))).add half).floor? =
      some (e + if Overshoots p x e then 1 else 0) := by
  obtain ⟨h, hone, -⟩ := signedUnits?_half
  -- Ties below `2 ^ 52` are in the format, so the product does not cross them.
  have hdouble (c : Int) : c * perOne = 2 * (c * h) := by
    rw [hone]
    push_cast
    ring
  obtain ⟨w, hw, hge, hle⟩ : Within (x.mul (ofInt (10 ^ p.val))) ((2 * e - 1) * h)
      ((2 * e + 1) * h) := by
    rw [hdouble] at hlower hupper
    apply within_mul hx (signedUnits?_scale p) (representable_half hone (by omega))
      (representable_half hone (by omega))
    · rw [← Int.mul_assoc]
      exact Int.mul_le_mul_of_nonneg_right (by omega) (by omega)
    · rw [← Int.mul_assoc]
      exact Int.mul_le_mul_of_nonneg_right (by omega) (by omega)
  have hfloor := floor?_add_half hw he (by rw [hdouble]; omega) (by rw [hdouble]; omega)
  rw [hfloor, ← if_congr (or_congr_left (value?_eq_tie_iff hw)) rfl rfl]
  rfl

/-- The errors of the product, the sum, the floor and the printed number taken together. -/
theorem scaled_error {s w z : Rat} {n k : Int} (hproduct : 2 ^ 53 * |w - s| ≤ |s|)
    (hsum : 2 ^ 53 * |z - (w + 1 / 2)| ≤ |w + 1 / 2|) (hfloor : n ≤ z) (hnext : z < n + 1)
    (hprinted : 2 ^ 52 * |(k : Rat) - n| ≤ |(n : Rat)|) :
    |(k : Rat) - s| ≤ 1 / 2 + (1 + |s|) / 2 ^ 50 := by
  have hhalf : |w + 1 / 2| ≤ |w - s| + |s| + 1 / 2 := by
    calc |w + 1 / 2| = |w - s + s + 1 / 2| := by ring_nf
      _ ≤ |w - s| + |s| + |(1 / 2 : Rat)| := abs_add_three _ _ _
      _ = |w - s| + |s| + 1 / 2 := by norm_num
  have hcut : |n + 1 / 2 - z| ≤ 1 / 2 := abs_le.2 ⟨by linarith, by linarith⟩
  have hrounded : |n - s| ≤ 1 / 2 + |z - (w + 1 / 2)| + |w - s| :=
    calc |n - s| = |n + 1 / 2 - z + (z - (w + 1 / 2)) + (w - s)| := by ring_nf
      _ ≤ |n + 1 / 2 - z| + |z - (w + 1 / 2)| + |w - s| := abs_add_three _ _ _
      _ ≤ 1 / 2 + |z - (w + 1 / 2)| + |w - s| := by linarith
  have hsize : |(n : Rat)| ≤ |n - s| + |s| := by
    simpa using abs_add_le (n - s) s
  have hshown : |(k : Rat) - s| ≤ |(k : Rat) - n| + |n - s| := abs_sub_le _ _ _
  have hs : 0 ≤ |s| := abs_nonneg s
  linarith

/-- **How far display rounds half up.**  Of a finite double with the number `q` the canonical text
    of some `k / 10 ^ p` is shown.  Integral numbers are exact.  For any other one `k` is the number
    of last places that should be shown, `⌊q * 10 ^ p + 1 / 2⌋`, or one more if the product with the
    scale overshoots, as long as it is below `2 ^ 52 - 1`.  At any size the number that is shown is
    off by half a last place at most, but for a part of `2 ^ 50` of the number and of a place. -/
theorem format_halfUp (p : Precision) {x : Binary64} {q : Rat} (hx : x.value? = some q) :
    ∃ (text : String) (k : Int), format p x = .ok text ∧
      Decimal.Canonical text.toList (k / (10 ^ p.val : Nat)) ∧
      (x.isIntegral = true → k = halfUp p q) ∧
      (x.isIntegral = false → |halfUp p q| + 1 < 2 ^ 52 →
        k = halfUp p q + if Overshoots p x (halfUp p q) then 1 else 0) ∧
      |k - q * (10 ^ p.val : Nat)| ≤ 1 / 2 + (1 + |q * (10 ^ p.val : Nat)|) / 2 ^ 50 := by
  obtain ⟨m, hm, hq⟩ := value?_eq_some_iff.1 hx
  by_cases hint : x.isIntegral = true
  · obtain ⟨n, hn⟩ := (isIntegral_iff hm).1 hint
    have hqn : q = n := by
      rw [← hq, hn, Int.cast_mul, Int.cast_natCast, mul_div_cancel_left₀ _ perOne_pos_rat.ne']
    have hscale : ((10 ^ p.val : Nat) : Rat) ≠ 0 := by positivity
    rw [hn, Int.mul_comm] at hm
    refine ⟨toString n, n * (10 ^ p.val : Nat), format_of_integral hm, ?_, ?_, ?_, ?_⟩
    · rw [Int.cast_mul, Int.cast_natCast, mul_div_cancel_right₀ _ hscale]
      exact Decimal.canonical_toString n
    · intro _
      rw [hqn, halfUp_intCast]
    · intro hfalse
      rw [hint] at hfalse
      cases hfalse
    · rw [hqn, Int.cast_mul, Int.cast_natCast, sub_self, abs_zero]
      positivity
  · have hfraction : x.isIntegral = false := Bool.eq_false_iff.2 hint
    have hsize : m.natAbs ≤ 2 ^ 52 * perOne := natAbs_le_of_not_integral hm hfraction
    -- Neither the product nor the sum overflows, so the floor is that of the number of the sum.
    obtain ⟨w, hw, -⟩ := within_product p hm hsize
    obtain ⟨z, hz, -⟩ := within_scaled p hm hsize
    have hfloor := floor?_of_value? (value?_of_signedUnits? hz)
    obtain ⟨text, k, hformat, htext, hprinted⟩ := format_of_floor? hm hfraction hsize hfloor
    refine ⟨text, k, hformat, htext, fun h => absurd h hint, ?_, ?_⟩
    · intro _ hsmall
      obtain ⟨hlower, hupper⟩ := halfUp_bounds p hq
      generalize halfUp p q = e at hsmall hlower hupper
      have he : e.natAbs + 1 < 2 ^ 52 := by
        rw [Int.abs_eq_natAbs] at hsmall
        exact_mod_cast hsmall
      -- Below `2 ^ 52` the floor is printed as it is, and it is this integer or the next one.
      rw [floor?_scaled hm (by omega) hlower hupper] at hfloor
      rw [Option.some_inj.1 hfloor]
      generalize ⌊(z : Rat) / perOne⌋ = n at hfloor hprinted
      have hn : n.natAbs < 2 ^ 52 := by
        rw [← Option.some_inj.1 hfloor]
        split <;> omega
      omega
    · have hproduct := error_mul hx (signedUnits?_scale p) (value?_of_signedUnits? hw)
      have hsum := error_add (value?_of_signedUnits? hw) value?_half (value?_of_signedUnits? hz)
      rw [Int.cast_natCast] at hproduct
      apply scaled_error hproduct hsum (Int.floor_le _) (Int.lt_floor_add_one _)
      rw [← Int.cast_sub, ← Int.cast_abs, ← Int.cast_abs, Int.abs_eq_natAbs, Int.abs_eq_natAbs]
      exact_mod_cast hprinted

/-- The greatest double below one half is shown as one, not as zero. -/
theorem format_halfUp_belowHalf : belowHalf.value? = some (1 / 2 - 1 / 2 ^ 54) ∧
    halfUp 0 (1 / 2 - 1 / 2 ^ 54) = 0 ∧ format 0 belowHalf = .ok "1" := by
  have hexact : halfUp 0 (1 / 2 - 1 / 2 ^ 54) = 0 := by
    unfold halfUp
    rw [Int.floor_eq_iff]
    norm_num
  obtain ⟨text, k, hformat, htext, -, hround, -⟩ := format_halfUp 0 value?_belowHalf
  have hk : k = 1 := by
    rw [hround (by decide +kernel) (by rw [hexact]; norm_num), hexact,
      if_pos (.inr (by decide +kernel))]
    rfl
  have hone : text.toList = (toString (1 : Int)).toList := by
    rw [hk] at htext
    exact htext.unique (by simpa using Decimal.canonical_toString 1)
  refine ⟨value?_belowHalf, hexact, ?_⟩
  rw [hformat, String.toList_inj.1 hone]
  rfl

/-! ### No places -/

/-- **With no places only the greatest double below one half overshoots.** -/
theorem overshoots_zero_iff (hx : x.value? = some q) :
    Overshoots 0 x (halfUp 0 q) ↔ x = belowHalf := by
  obtain ⟨m, hm, -⟩ := value?_eq_some_iff.1 hx
  have hproduct : x.mul (ofInt (10 ^ (0 : Precision).val)) = x := mul_ofInt_one hm
  have htie : x.value? ≠ some ((halfUp 0 q : Rat) + 1 / 2) := by
    intro h
    have hq : q = halfUp 0 q + 1 / 2 := Option.some_inj.1 (hx.symm.trans h)
    have hlt : q * (10 ^ (0 : Precision).val : Nat) + 1 / 2 < halfUp 0 q + 1 :=
      Int.lt_floor_add_one _
    rw [Fin.val_zero, Nat.pow_zero, Nat.cast_one, mul_one] at hlt
    linarith
  rw [Overshoots, hproduct]
  exact or_iff_right htie

end Reckoner.Display
