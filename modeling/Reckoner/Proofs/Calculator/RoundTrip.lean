import Reckoner.Proofs.Calculator.Finite
import Reckoner.Proofs.Calculator.Outcome
import Reckoner.Proofs.Decimal.Printing
import Reckoner.Proofs.Decimal.Reading

namespace Reckoner

/-!
# Decimals survive the way through doubles

Of an integer `k` below `10 ^ 15` the quotient `k / 10 ^ p` is shown with `p` places as it is.  Four
roundings stand in between: to a double, of the product with `10 ^ p` and one half, of the quotient
by `10 ^ p`, and to `p` places.  Each is off by less than an eighth of a place, and what is an
eighth of a place away from `k` is taken to be `k` by the floor as well as by the printed places.

* `Binary64.ofRatio_near`: the double next to a decimal.
* `Display.roundedHalfUp_ofRatio`: rounding to its places leaves it alone.
* `Display.format_decimal`: it is shown as a canonical text.
* `calculate_decimal`: so a decimal that is written as a statement is given back.
-/

namespace Binary64

/-- An integer by a scale is rounded with a relative error of at most `2 ^ -53`. -/
theorem onGrid_scale_error {a d : Nat} (hd : 0 < d) (hd' : d ≤ 2 ^ 50) :
    2 ^ 53 * (onGrid (a * perOne) d * d) ≤ 2 ^ 53 * (a * perOne) + a * perOne ∧
      2 ^ 53 * (a * perOne) ≤ 2 ^ 53 * (onGrid (a * perOne) d * d) + a * perOne := by
  rcases Nat.eq_zero_or_pos a with rfl | hpos
  · rw [Nat.zero_mul, onGrid_zero, Nat.zero_mul]
    omega
  · apply onGrid_error hd
    calc 2 ^ 52 * d ≤ 2 ^ 52 * 2 ^ 50 := Nat.mul_le_mul_left _ hd'
      _ = 2 ^ 102 := by decide
      _ ≤ perOne := two_pow_le_perOne (by decide)
      _ ≤ a * perOne := Nat.le_mul_of_pos_left _ hpos

/-- **The double nearest to a decimal** is off by less than an eighth of its last place. -/
theorem ofRatio_near {k : Int} {d : Nat} (hk : k.natAbs ≤ 2 ^ 50) (hd : 0 < d) (hd' : d ≤ 2 ^ 50) :
    ∃ u, ∃ h : Representable u, ofRatio k d = finite (k < 0) u h ∧
      8 * (u * d) ≤ 8 * (k.natAbs * perOne) + perOne ∧
      8 * (k.natAbs * perOne) ≤ 8 * (u * d) + perOne := by
  have hsize : k.natAbs * perOne ≤ 2 ^ 50 * perOne := Nat.mul_le_mul_right _ hk
  obtain ⟨hupper, hlower⟩ := onGrid_scale_error (a := k.natAbs) hd hd'
  have hlimit : onGrid (k.natAbs * perOne) d < limit := by
    have hroom : ((2 ^ 51 : Int) * perOne).natAbs < limit :=
      (representable_integer (by decide)).1
    have hle : onGrid (k.natAbs * perOne) d ≤ onGrid (k.natAbs * perOne) d * d :=
      Nat.le_mul_of_pos_right _ hd
    omega
  refine ⟨_, onGrid_representable hlimit, ?_, by omega, by omega⟩
  unfold ofRatio round
  rw [dif_pos hlimit]

/-- An eighth, in units, and its multiples. -/
theorem exists_eighth : ∃ q : Nat, 0 < q ∧ perOne = 8 * q ∧
    ∀ c : Int, c.natAbs ≤ 2 ^ 53 → Representable (c * (q : Int)).natAbs := by
  obtain ⟨q, hq, hone, hrep⟩ := exists_part (j := 3) (by decide)
  exact ⟨q, hq, by omega, hrep⟩

end Binary64

namespace Display

open Binary64

/-- A decimal with `p` places, and its double in units. -/
theorem signedUnits?_decimal (p : Precision) {k : Int} (hk : k.natAbs < 10 ^ 15) :
    ∃ m, (ofRatio k (10 ^ p.val)).signedUnits? = some m ∧
      8 * (m * (10 ^ p.val : Nat)) ≤ 8 * (k * perOne) + perOne ∧
      8 * (k * perOne) ≤ 8 * (m * (10 ^ p.val : Nat)) + perOne := by
  obtain ⟨u, hu, hx, hupper, hlower⟩ :=
    ofRatio_near (k := k) (by omega) (Nat.pow_pos (by decide)) (ten_pow_le p)
  refine ⟨signed (k < 0) u, by rw [hx]; rfl, ?_⟩
  generalize 10 ^ p.val = d at hupper hlower
  zify at hupper hlower
  by_cases hneg : k < 0
  · rw [decide_eq_true hneg, signed, if_pos rfl, Int.neg_mul]
    rw [abs_of_neg hneg, Int.neg_mul] at hupper hlower
    omega
  · rw [decide_eq_false hneg, signed, if_neg Bool.false_ne_true]
    rw [abs_of_nonneg (by omega)] at hupper hlower
    omega

/-- **Rounding to its own places leaves a decimal alone.** -/
theorem roundedHalfUp_ofRatio (p : Precision) {k : Int} (hk : k.natAbs < 10 ^ 15) :
    roundedHalfUp p (ofRatio k (10 ^ p.val)) = ofRatio k (10 ^ p.val) := by
  obtain ⟨m, hm, hupper, hlower⟩ := signedUnits?_decimal p hk
  obtain ⟨q, hq, hone, hrep⟩ := exists_eighth
  obtain ⟨h, hhalf, hh⟩ := signedUnits?_half
  have hk' : k.natAbs < 2 ^ 50 := Nat.lt_of_lt_of_le hk (by decide)
  rw [hone] at hupper hlower
  push_cast at hupper hlower
  -- The product is an eighth away from the integer, and with one half it is above it.
  have hproduct : Within ((ofRatio k (10 ^ p.val)).mul (ofInt (10 ^ p.val))) ((8 * k - 1) * q)
      ((8 * k + 1) * q) := by
    apply within_mul hm (signedUnits?_scale p) (hrep _ (by omega)) (hrep _ (by omega))
    · rw [← Int.mul_assoc]
      apply Int.mul_le_mul_of_nonneg_right _ (by omega)
      push_cast
      linarith
    · rw [← Int.mul_assoc]
      apply Int.mul_le_mul_of_nonneg_right _ (by omega)
      push_cast
      linarith
  obtain ⟨w, hw, hwlower, hwupper⟩ := hproduct
  have hsum : Within (((ofRatio k (10 ^ p.val)).mul (ofInt (10 ^ p.val))).add half)
      ((8 * k + 3) * q) ((8 * k + 5) * q) := by
    have hfour : (h : Int) = 4 * q := by omega
    apply within_add hw hh (hrep _ (by omega)) (hrep _ (by omega))
    · linarith
    · linarith
  apply roundedHalfUp_of_floor?
  apply floor?_of_within
  rw [hone]
  push_cast
  apply hsum.mono
  · linarith
  · linarith

/-- **A printed fraction is canonical** if it is not printed as zero. -/
theorem canonical_fractionText {p : Precision} (negative : Bool) {u n : Nat} (hp : p.val ≠ 0)
    (hn : nearestEven (u * 10 ^ p.val) perOne = n) (hpos : 0 < n) :
    Decimal.Canonical (fractionText p negative u).toList
      (signed negative n / (10 ^ p.val : Nat)) := by
  have hreduced : Decimal.Canonical (Decimal.reduced (Decimal.fixed p.val u perOne))
      (n / (10 ^ p.val : Nat)) := by
    have hdenotes := Decimal.denotes_fixed hp u perOne
    rw [hn] at hdenotes
    exact Decimal.canonical_reduced hdenotes
  unfold fractionText
  rw [String.toList_ofList]
  cases negative with
  | false =>
    have hdrop := Decimal.dropTrailingZeros_fixed [] hp u perOne
    simp only [List.nil_append] at hdrop
    simpa [hdrop, signed] using hreduced
  | true =>
    have hdrop := Decimal.dropTrailingZeros_fixed ['-'] hp u perOne
    have hquotient : (0 : Rat) < n / (10 ^ p.val : Nat) := by positivity
    have hvalue : ((signed true n : Int) : Rat) / (10 ^ p.val : Nat) =
        -((n : Rat) / (10 ^ p.val : Nat)) := by
      simp only [signed, if_true]
      push_cast
      ring
    rw [hvalue, if_pos rfl]
    rw [List.singleton_append, List.singleton_append] at hdrop
    rw [hdrop]
    exact Decimal.Canonical.negative hquotient hreduced

/-- Of a quotient that is no integer, what is near it in units is no multiple of one. -/
theorem not_dvd_of_near {one u d n : Nat} (hone : 0 < one) (hd : ¬ d ∣ n)
    (hupper : 8 * (u * d) ≤ 8 * (n * one) + one) (hlower : 8 * (n * one) ≤ 8 * (u * d) + one) :
    ¬ one ∣ u := by
  rintro ⟨c, rfl⟩
  have hswap : one * c * d = c * d * one := by ring
  rw [hswap] at hupper hlower
  have hle : 8 * (c * d) ≤ 8 * n + 1 := by
    apply Nat.le_of_mul_le_mul_right _ hone
    linarith
  have hge : 8 * n ≤ 8 * (c * d) + 1 := by
    apply Nat.le_of_mul_le_mul_right _ hone
    linarith
  have hn : n = c * d := by omega
  exact hd (hn ▸ Nat.dvd_mul_left d c)

/-- **A decimal is shown as it is**, in its canonical text. -/
theorem format_decimal (p : Precision) {k : Int} (hk : k.natAbs < 10 ^ 15) :
    ∃ text, format p (ofRatio k (10 ^ p.val)) = .ok text ∧
      Decimal.Canonical text.toList (k / (10 ^ p.val : Nat)) := by
  have hscale : 0 < 10 ^ p.val := Nat.pow_pos (by decide)
  by_cases hdvd : 10 ^ p.val ∣ k.natAbs
  · -- An integer.
    obtain ⟨n, rfl⟩ : ((10 ^ p.val : Nat) : Int) ∣ k := Int.natCast_dvd.2 hdvd
    have hsize : n.natAbs ≤ 2 ^ 53 := by
      rw [Int.natAbs_mul, Int.natAbs_natCast] at hk
      have hle : n.natAbs ≤ 10 ^ p.val * n.natAbs := Nat.le_mul_of_pos_left _ hscale
      omega
    have hvalue : (((10 ^ p.val : Nat) * n : Int) : Rat) / (10 ^ p.val : Nat) = n := by
      have hne : ((10 ^ p.val : Nat) : Rat) ≠ 0 := by exact_mod_cast Nat.ne_of_gt hscale
      rw [Int.cast_mul, Int.cast_natCast]
      field_simp
    refine ⟨toString n, format_of_integral (signedUnits?_ofRatio_mul hscale hsize), ?_⟩
    rw [hvalue]
    exact Decimal.canonical_toString n
  · obtain ⟨u, hu, hx, hupper, hlower⟩ :=
      ofRatio_near (k := k) (by omega) hscale (ten_pow_le p)
    have hp : p.val ≠ 0 := by
      intro hzero
      rw [hzero] at hdvd
      exact hdvd (Nat.one_dvd _)
    have hpos : 0 < k.natAbs := by
      apply Nat.pos_of_ne_zero
      intro hzero
      rw [hzero] at hdvd
      exact hdvd (Nat.dvd_zero _)
    have hfraction : ¬ perOne ∣ u := not_dvd_of_near perOne_pos hdvd hupper hlower
    have hnearest : nearestEven (u * 10 ^ p.val) perOne = k.natAbs := by
      have hone := perOne_pos
      exact nearestEven_eq_of_near hone (by omega) (by omega)
    have hint : (ofRatio k (10 ^ p.val)).isIntegral = false := by
      rw [hx]
      simpa [isIntegral, Nat.dvd_iff_mod_eq_zero] using hfraction
    refine ⟨fractionText p (k < 0) u, ?_, ?_⟩
    · rw [format_of_rounded hint ((roundedHalfUp_ofRatio p hk).trans hx)]
      show Except.ok (finiteText p (k < 0) u) = _
      rw [finiteText, if_neg (fun hmod => hfraction (Nat.dvd_of_mod_eq_zero hmod))]
    · have htext := canonical_fractionText (decide (k < 0)) hp hnearest hpos
      rw [signed_natAbs] at htext
      exact htext

end Display

/-! ### Statements of one literal -/

/-- **Decimals are given back.**  The double nearest to `k / 10 ^ p` is shown in the canonical text
    of `k / 10 ^ p`; so a statement of one literal with that value is answered with the literal
    itself, less its redundant zeros and point. -/
theorem calculate_decimal (p : Precision) (k : Int) (hk : k.natAbs < 10 ^ 15) :
    (∃ text, Display.format p (Binary64.ofRatio k (10 ^ p.val)) = .ok text ∧
      Decimal.Canonical text.toList (k / (10 ^ p.val : Nat))) ∧
    ∀ (s literal : String) (d : Rat), Statement.Spells s [.literal literal] →
      Decimal.Denotes literal.toList d → d * (10 ^ p.val : Nat) = k →
      (calculate p (some s)).outcome = .ok ⟨Binary64.ofRatio k (10 ^ p.val),
        String.ofList (Decimal.reduced literal.toList)⟩ := by
  have hscale : 0 < 10 ^ p.val := Nat.pow_pos (by decide)
  obtain ⟨text, hformat, htext⟩ := Display.format_decimal p hk
  refine ⟨⟨text, hformat, htext⟩, ?_⟩
  intro s literal d hs hd hvalue
  -- The literal is read as the same double, and there is one canonical text.
  have hsame : String.ofList (Decimal.reduced literal.toList) = text := by
    have hquotient : d = k / (10 ^ p.val : Nat) := by
      have hne : ((10 ^ p.val : Nat) : Rat) ≠ 0 := by exact_mod_cast Nat.ne_of_gt hscale
      rw [← hvalue]
      field_simp
    have hreduced := Decimal.canonical_reduced hd
    rw [hquotient] at hreduced
    rw [hreduced.unique htext, String.ofList_toList]
  have hliteral : Postfix.literalValue literal = .ok (Binary64.ofRatio k (10 ^ p.val)) := by
    unfold Postfix.literalValue
    rw [Postfix.literalValue?_of_denotes hd hscale hvalue]
  rw [hsame]
  exact calculate_of_derives hs (.term (.factor (.literal (Postfix.isProper_of_denotes hd))))
    hliteral hformat

/-- Zeros in front and at the end do not come back. -/
theorem calculate_decimal_zeros :
    (calculate 4 (some " 01.50")).outcome = .ok ⟨Binary64.ofRatio 15000 (10 ^ 4), "1.5"⟩ := by
  have hspells : Statement.Spells " 01.50" [.literal "01.50"] := by
    unfold Statement.Spells
    decide
  have hwhole : Decimal.Digits ['0', '1'] := by decide
  have hfraction : Decimal.Digits ['5', '0'] := by decide
  have hdenotes : Decimal.Denotes "01.50".toList (Decimal.decimalValue ['0', '1'] ['5', '0']) :=
    .point hwhole hfraction (by decide)
  have hvalue : Decimal.decimalValue ['0', '1'] ['5', '0'] * (10 ^ (4 : Precision).val : Nat) =
      (15000 : Int) := by
    have hdigits : Decimal.digitsValue ['0', '1', '5', '0'] = 150 := by decide
    unfold Decimal.decimalValue
    rw [List.cons_append, List.cons_append, List.nil_append, hdigits]
    norm_num
  exact (calculate_decimal 4 15000 (by decide)).2 " 01.50" "01.50" _ hspells hdenotes hvalue

end Reckoner
