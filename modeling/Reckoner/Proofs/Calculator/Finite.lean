import Reckoner.Proofs.Binary64.Arithmetic
import Reckoner.Calculator.Basic

namespace Reckoner

/-!
# Every finite number is shown

A number with a fractional part is not large: it is below `2 ^ 52`, so scaling it by up to `10 ^ 15`
leaves it far from the limit of the format, and rounding it to some places gives a finite number.

* `Display.format_of_integral`: an integral number is shown as that integer.
* `Display.within_roundedHalfUp`: rounding to some places does not overflow.
* `Display.format_finite`, `Display.format_infinity`, `Display.format_nan`: exactly the finite
  numbers are shown.
-/

namespace Display

open Binary64

/-! ### Scales -/

/-- A scale of at most fifteen places. -/
theorem ten_pow_le (p : Precision) : 10 ^ p.val ≤ 2 ^ 50 :=
  calc 10 ^ p.val ≤ 10 ^ 15 := Nat.pow_le_pow_right (by decide) (by omega)
    _ ≤ 2 ^ 50 := by decide

/-- A scale as a double is exact. -/
theorem signedUnits?_scale (p : Precision) :
    (ofInt (10 ^ p.val)).signedUnits? = some ((10 ^ p.val : Nat) * (perOne : Int)) := by
  have hcast : (10 : Int) ^ p.val = (10 ^ p.val : Nat) := by push_cast; rfl
  have hsize : ((10 ^ p.val : Nat) : Int).natAbs ≤ 2 ^ 53 := by
    have hle := ten_pow_le p
    rw [Int.natAbs_natCast]
    omega
  rw [hcast]
  exact signedUnits?_ofInt hsize

/-! ### Integral numbers -/

/-- **An integral number is shown as that integer.** -/
theorem format_of_integral {p : Precision} {x : Binary64} {n : Int}
    (hx : x.signedUnits? = some (n * perOne)) : format p x = .ok (toString n) := by
  have hint : x.isIntegral = true := (isIntegral_iff hx).2 (Int.dvd_mul_left n perOne)
  unfold format
  rw [if_pos hint]
  obtain ⟨negative, u, hu, rfl, hunits⟩ := exists_finite_of_signedUnits? hx
  have hmod : u % perOne = 0 := by simpa [isIntegral] using hint
  show Except.ok (finiteText p negative u) = _
  rw [finiteText, if_pos hmod, integerText, hunits, Int.mul_ediv_cancel n perOne_pos_int.ne']

/-! ### Other numbers -/

/-- A number with a fractional part is below `2 ^ 52`: from there on the spacing is at least one. -/
theorem units_lt_of_not_dvd {u : Nat} (h : Representable u) (hfraction : ¬ perOne ∣ u) :
    u < 2 ^ 52 * perOne := by
  by_contra hlarge
  obtain ⟨e, he, hone⟩ : ∃ e, e = 1074 ∧ perOne = 2 ^ e := ⟨1074, rfl, rfl⟩
  rw [hone] at hlarge hfraction
  have hle : 2 ^ (52 + e) ≤ u := by
    rw [Nat.pow_add]
    exact Nat.le_of_not_lt hlarge
  exact hfraction (two_pow_dvd_of_le h.2 hle)

/-- The same for a double that is not integral. -/
theorem natAbs_le_of_not_integral {x : Binary64} {m : Int} (hx : x.signedUnits? = some m)
    (hint : x.isIntegral = false) : m.natAbs ≤ 2 ^ 52 * perOne := by
  have hdvd : ¬ (perOne : Int) ∣ m := by
    rw [← isIntegral_iff hx, hint]
    exact Bool.false_ne_true
  obtain ⟨negative, u, hu, -, rfl⟩ := exists_finite_of_signedUnits? hx
  rw [← Int.natAbs_dvd_natAbs, natAbs_signed] at hdvd
  rw [natAbs_signed]
  exact Nat.le_of_lt (units_lt_of_not_dvd hu hdvd)

/-- The bound on scaled numbers and what is rounded from them. -/
def scaledLimit : Nat := 2 ^ 102 * perOne

/-- The bound and its double are in the format. -/
theorem representable_scaledLimit {c : Int} (hc : c.natAbs ≤ 2) :
    Representable (c * (scaledLimit : Int)).natAbs := by
  obtain ⟨j, hj⟩ : ∃ j, 102 + 1074 = j := ⟨_, rfl⟩
  rw [scaledLimit, two_pow_mul_perOne hj]
  exact representable_mul_two_pow (by omega) (by omega)

/-- The scaled number is bounded by the limit. -/
theorem within_product (p : Precision) {x : Binary64} {m : Int} (hx : x.signedUnits? = some m)
    (hm : m.natAbs ≤ 2 ^ 52 * perOne) :
    Within (x.mul (ofInt (10 ^ p.val))) (-1 * scaledLimit) (1 * scaledLimit) := by
  have hsize : (m * (10 ^ p.val : Nat)).natAbs ≤ scaledLimit := by
    rw [Int.natAbs_mul, Int.natAbs_natCast]
    calc m.natAbs * 10 ^ p.val ≤ 2 ^ 52 * perOne * 2 ^ 50 := Nat.mul_le_mul hm (ten_pow_le p)
      _ = scaledLimit := by rw [scaledLimit]; ring
  apply within_mul hx (signedUnits?_scale p) (representable_scaledLimit (by decide))
    (representable_scaledLimit (by decide))
  · rw [← Int.mul_assoc]
    exact Int.mul_le_mul_of_nonneg_right (by omega) (by omega)
  · rw [← Int.mul_assoc]
    exact Int.mul_le_mul_of_nonneg_right (by omega) (by omega)

/-- The scaled number with its half, from which the floor is taken. -/
theorem within_scaled (p : Precision) {x : Binary64} {m : Int} (hx : x.signedUnits? = some m)
    (hm : m.natAbs ≤ 2 ^ 52 * perOne) :
    Within ((x.mul (ofInt (10 ^ p.val))).add half) (-2 * scaledLimit) (2 * scaledLimit) := by
  obtain ⟨w, hw, hlower, hupper⟩ := within_product p hx hm
  obtain ⟨h, hone, hh⟩ := signedUnits?_half
  have hhalf : h ≤ scaledLimit := by
    unfold scaledLimit
    omega
  exact within_add hw hh (representable_scaledLimit (by decide))
    (representable_scaledLimit (by decide)) (by omega) (by omega)

/-- What has a floor is rounded to it. -/
theorem roundedHalfUp_of_floor? {p : Precision} {x : Binary64} {n : Int}
    (hfloor : ((x.mul (ofInt (10 ^ p.val))).add half).floor? = some n) :
    roundedHalfUp p x = ofRatio n (10 ^ p.val) := by
  simp only [roundedHalfUp, hfloor]

/-- **Rounding to some places does not overflow** for a number with a fractional part. -/
theorem within_roundedHalfUp (p : Precision) {x : Binary64} {m : Int}
    (hx : x.signedUnits? = some m) (hm : m.natAbs ≤ 2 ^ 52 * perOne) :
    Within (roundedHalfUp p x) (-2 * scaledLimit) (2 * scaledLimit) := by
  obtain ⟨w, hw, hlower, hupper⟩ := within_scaled p hx hm
  rw [roundedHalfUp_of_floor? (floor?_of_signedUnits? hw)]
  have hbelow : w / perOne * perOne ≤ w := Int.ediv_mul_le w perOne_pos_int.ne'
  have habove : -2 * (scaledLimit : Int) ≤ w / perOne * perOne := by
    have hlimit : -2 * (scaledLimit : Int) = -2 ^ 103 * perOne := by
      rw [scaledLimit]
      push_cast
      ring
    rw [hlimit] at hlower ⊢
    exact Int.mul_le_mul_of_nonneg_right ((Int.le_ediv_iff_mul_le perOne_pos_int).2 hlower) (by omega)
  -- A scale is not less than one, so dividing by it leaves the number within the bounds.
  have hscale : 1 * scaledLimit ≤ scaledLimit * 10 ^ p.val := by
    rw [Nat.mul_comm]
    exact Nat.mul_le_mul_left _ (Nat.one_le_pow _ _ (by decide))
  apply within_ofRatio (Nat.pow_pos (by decide)) (representable_scaledLimit (by decide))
    (representable_scaledLimit (by decide))
  · rw [Int.mul_assoc, ← Int.natCast_mul]
    omega
  · rw [Int.mul_assoc, ← Int.natCast_mul]
    omega

/-! ### Which numbers are shown -/

/-- What has no floor is not rounded. -/
theorem roundedHalfUp_of_scaled {p : Precision} {x y : Binary64}
    (hscaled : (x.mul (ofInt (10 ^ p.val))).add half = y) (hfloor : y.floor? = none) :
    roundedHalfUp p x = y := by
  simp only [roundedHalfUp, hscaled, hfloor]

/-- Infinities are not rounded. -/
theorem roundedHalfUp_infinity (p : Precision) (negative : Bool) :
    roundedHalfUp p (infinity negative) = infinity negative := by
  have hscale : (0 : Int) < (10 ^ p.val : Nat) * (perOne : Int) := by
    exact_mod_cast Nat.mul_pos (Nat.pow_pos (by decide)) perOne_pos
  obtain ⟨h, -, hh⟩ := signedUnits?_half
  refine roundedHalfUp_of_scaled ?_ rfl
  rw [infinity_mul negative (signedUnits?_scale p) hscale, infinity_add negative hh]

/-- A number that is not integral is shown as it is rounded. -/
theorem format_of_rounded {p : Precision} {x y : Binary64} (hint : x.isIntegral = false) :
    roundedHalfUp p x = y → format p x = match y with
      | nan => .error .nan
      | infinity negative => .error (.infinity negative)
      | finite negative units _ => .ok (finiteText p negative units) := by
  intro hrounded
  cases y <;> simp only [format, hint, hrounded, Bool.false_eq_true, if_false]

/-- The not-a-number is not shown. -/
theorem format_nan (p : Precision) : format p nan = .error .nan :=
  format_of_rounded rfl (roundedHalfUp_of_scaled rfl rfl)

/-- Infinities are not shown. -/
theorem format_infinity (p : Precision) (negative : Bool) :
    format p (infinity negative) = .error (.infinity negative) :=
  format_of_rounded rfl (roundedHalfUp_infinity p negative)

/-- **Every finite number is shown.** -/
theorem format_finite (p : Precision) (negative : Bool) {u : Nat} (h : Representable u) :
    ∃ text, format p (finite negative u h) = .ok text := by
  have hx : (finite negative u h).signedUnits? = some (signed negative u) := rfl
  generalize finite negative u h = x at hx
  by_cases hint : (perOne : Int) ∣ signed negative u
  · obtain ⟨n, hn⟩ := hint
    rw [hn, Int.mul_comm] at hx
    exact ⟨toString n, format_of_integral hx⟩
  · have hfalse : x.isIntegral = false := by rwa [Bool.eq_false_iff, Ne, isIntegral_iff hx]
    obtain ⟨m, hm, -⟩ := within_roundedHalfUp p hx (natAbs_le_of_not_integral hx hfalse)
    obtain ⟨negative', v, hv, hrounded, -⟩ := exists_finite_of_signedUnits? hm
    exact ⟨finiteText p negative' v, format_of_rounded hfalse hrounded⟩

end Display

end Reckoner
