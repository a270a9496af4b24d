import Mathlib.Data.List.DropRight
import Reckoner.Calculator.Display
import Reckoner.Text.Blank

namespace Reckoner

/-!
# What displayed results are made of

A displayed result is not empty and has digits, a sign and a point only.  That it is not empty rests
on one fact: with no decimal places a rounded number is integral, so its zeros are never taken for
decimal ones.

* `Binary64.perOne_dvd_onGrid`: an integer is rounded to an integer.
* `Display.isNumeral`: the characters of results.
* `Display.format_eq_ok`: what is shown is integral, or some places are kept.
* `Display.numeral_of_format`: a displayed result is not empty and has these characters only.
-/

namespace Binary64

/-- A multiple of one power of two that is rounded to a multiple of another remains a multiple of
    the first.  A finer grid holds it already, and what a coarser one holds is such a multiple. -/
theorem two_pow_dvd_nearestEven (m e k : Nat) :
    2 ^ e ∣ nearestEven (m * 2 ^ e) (2 ^ k) * 2 ^ k := by
  by_cases hk : k ≤ e
  · have he : 2 ^ e = 2 ^ (e - k) * 2 ^ k := by
      rw [← Nat.pow_add, Nat.sub_add_cancel hk]
    have hround : nearestEven (m * 2 ^ e) (2 ^ k) = m * 2 ^ (e - k) := by
      rw [he, ← Nat.mul_assoc]
      exact nearestEven_mul_self _ _ (Nat.two_pow_pos k)
    rw [hround, Nat.mul_assoc, ← he]
    exact Nat.dvd_mul_left _ m
  · have hcoarse : 2 ^ e ∣ 2 ^ k := Nat.pow_dvd_pow 2 (by omega)
    exact Nat.dvd_trans hcoarse (Nat.dvd_mul_left _ _)

/-- **An integer is rounded to an integer.** -/
theorem perOne_dvd_onGrid (m : Nat) : perOne ∣ onGrid (m * perOne) 1 := by
  unfold onGrid
  rw [Nat.div_one]
  generalize spacing (m * perOne) = k
  show perOne ∣ nearestEven (m * perOne) (1 * 2 ^ k) * 2 ^ k
  obtain ⟨e, he⟩ : ∃ e, perOne = 2 ^ e := ⟨1074, rfl⟩
  rw [Nat.one_mul, he]
  exact two_pow_dvd_nearestEven m e k

/-- The double nearest to an integer is integral, if it is finite. -/
theorem dvd_of_ofInt {n : Int} {negative : Bool} {units : Nat} {h : Representable units}
    (hn : ofInt n = .finite negative units h) : perOne ∣ units := by
  unfold ofInt ofRatio round at hn
  by_cases hlimit : onGrid (n.natAbs * perOne) 1 < limit
  · rw [dif_pos hlimit] at hn
    injection hn with _ hunits
    rw [← hunits]
    exact perOne_dvd_onGrid n.natAbs
  · rw [dif_neg hlimit] at hn
    exact absurd hn (by simp)

end Binary64

/-! ### Digits -/

namespace Decimal

/-- Final digits are digits. -/
theorem isDigit_of_mem_lastDigits {places n : Nat} {c : Char} (h : c ∈ lastDigits places n) :
    c.isDigit = true := by
  have hdigit : ∀ d < 10, (Nat.digitChar d).isDigit = true := by decide
  induction places generalizing n with
  | zero => simp [lastDigits] at h
  | succ places ih =>
    rw [lastDigits] at h
    rcases List.mem_append.1 h with h | h
    · exact ih h
    · obtain rfl := List.mem_singleton.1 h
      exact hdigit _ (Nat.mod_lt n (by decide))

/-- Dropping zeros and points is dropping them from the end. -/
theorem dropTrailingZeros_eq (cs : List Char) :
    dropTrailingZeros cs = (cs.rdropWhile (· = '0')).rdropWhile (· = '.') := by
  unfold dropTrailingZeros List.rdropWhile
  rw [List.reverse_reverse]

/-- What is left without trailing zeros is a prefix. -/
theorem dropTrailingZeros_prefix (cs : List Char) : dropTrailingZeros cs <+: cs := by
  rw [dropTrailingZeros_eq]
  exact (List.rdropWhile_prefix _ _).trans (List.rdropWhile_prefix _ _)

/-- With a point that is not at the start, something is left: zeros are dropped up to the point at
    most. -/
theorem dropTrailingZeros_ne_nil {cs : List Char} (hpoint : '.' ∈ cs)
    (hhead : cs.head? ≠ some '.') : dropTrailingZeros cs ≠ [] := by
  rw [dropTrailingZeros_eq]
  intro hnil
  rw [List.rdropWhile_eq_nil_iff] at hnil
  -- The zeros end at the point, and what is left then starts as the text does.
  have hne : cs.rdropWhile (· = '0') ≠ [] := by
    intro hzeros
    rw [List.rdropWhile_eq_nil_iff] at hzeros
    exact absurd (hzeros '.' hpoint) (by decide)
  have hpre : cs.rdropWhile (· = '0') <+: cs := List.rdropWhile_prefix _ _
  have hfirst := hnil _ (List.head_mem hne)
  rw [hpre.head hne] at hfirst
  apply hhead
  rw [List.head?_eq_some_head (hpre.ne_nil hne), of_decide_eq_true hfirst]

end Decimal

/-! ### Results -/

namespace Display

/-- The characters of displayed results. -/
def isNumeral (c : Char) : Bool := c.isDigit || c = '-' || c = '.'

/-- They are not blank. -/
theorem isBlank_of_isNumeral {c : Char} (h : isNumeral c = true) : Text.isBlank c = false := by
  have hcases : (48 ≤ c.toNat ∧ c.toNat ≤ 57) ∨ c = '-' ∨ c = '.' := by
    simpa [isNumeral, Char.isDigit, UInt32.le_iff_toNat_le, or_assoc] using h
  rcases hcases with hdigit | rfl | rfl
  · simp only [Text.isBlank, Text.inRanges, Text.blankRanges, List.any_cons, List.any_nil,
      Bool.or_false, Bool.or_eq_false_iff, Bool.and_eq_false_iff, decide_eq_false_iff_not]
    omega
  · decide
  · decide

/-- **With no places only integers are shown.**  A displayed result is the text of a finite number
    that is integral or is rounded to some places. -/
theorem format_eq_ok {p : Precision} {x : Binary64} {text : String} (h : format p x = .ok text) :
    ∃ negative units, text = finiteText p negative units ∧
      (p.val = 0 → units % Binary64.perOne = 0) := by
  unfold format at h
  by_cases hx : x.isIntegral = true
  · rw [if_pos hx] at h
    cases x with
    | nan => simp at h
    | infinity negative => simp at h
    | finite negative units _ =>
      have hunits : units % Binary64.perOne = 0 := by simpa [Binary64.isIntegral] using hx
      exact ⟨negative, units, (Except.ok.inj h).symm, fun _ => hunits⟩
  · rw [if_neg hx] at h
    cases hr : roundedHalfUp p x with
    | nan => simp [hr] at h
    | infinity negative => simp [hr] at h
    | finite negative units hunits =>
      -- With no places the rounded number is a quotient by one.
      rw [hr] at h
      refine ⟨negative, units, (Except.ok.inj h).symm, fun hp => ?_⟩
      unfold roundedHalfUp at hr
      rw [hp, Nat.pow_zero] at hr
      cases hfloor : ((x.mul (Binary64.ofInt (10 ^ 0))).add Binary64.half).floor? with
      | none =>
        -- What has no floor is not finite.
        have hfinite : (Binary64.finite negative units hunits).floor? =
            some (Binary64.signed negative units / (Binary64.perOne : Int)) := rfl
        simp only [hfloor] at hr
        rw [hr, hfinite] at hfloor
        exact absurd hfloor (Option.some_ne_none _)
      | some n =>
        simp only [hfloor] at hr
        exact Nat.mod_eq_zero_of_dvd (Binary64.dvd_of_ofInt (n := n) hr)

/-- Decimal digits of a number. -/
theorem isNumeral_of_mem_toDigits {n : Nat} {c : Char} (h : c ∈ Nat.toDigits 10 n) :
    isNumeral c = true := by
  have hdigit : c.isDigit = true := Nat.isDigit_of_mem_toDigits (by decide) (by decide) h
  simp [isNumeral, hdigit]

/-- The text of an integral number. -/
theorem numeral_integerText (negative : Bool) (units : Nat) :
    (integerText negative units).toList ≠ [] ∧
      ∀ c ∈ (integerText negative units).toList, isNumeral c = true := by
  unfold integerText
  rw [Int.toString_eq_repr]
  cases Binary64.signed negative units / (Binary64.perOne : Int) with
  | ofNat n =>
    show (Nat.repr n).toList ≠ [] ∧ ∀ c ∈ (Nat.repr n).toList, isNumeral c = true
    rw [Nat.toList_repr]
    exact ⟨Nat.toDigits_ne_nil, fun c hc => isNumeral_of_mem_toDigits hc⟩
  | negSucc n =>
    show ("-" ++ Nat.repr (n + 1)).toList ≠ [] ∧
      ∀ c ∈ ("-" ++ Nat.repr (n + 1)).toList, isNumeral c = true
    rw [String.toList_append, Nat.toList_repr]
    refine ⟨by simp, fun c hc => ?_⟩
    rcases List.mem_append.1 hc with hc | hc
    · have hsign : c = '-' := by simpa using hc
      rw [hsign]
      decide
    · exact isNumeral_of_mem_toDigits hc

/-- The text of a number with some decimal places. -/
theorem numeral_fractionText {p : Precision} (hp : p.val ≠ 0) (negative : Bool) (units : Nat) :
    (fractionText p negative units).toList ≠ [] ∧
      ∀ c ∈ (fractionText p negative units).toList, isNumeral c = true := by
  unfold fractionText
  rw [String.toList_ofList]
  -- The digits before the point, the point and the places.
  obtain ⟨whole, scaled, hfixed⟩ : ∃ whole scaled, Decimal.fixed p.val units Binary64.perOne =
      Nat.toDigits 10 whole ++ '.' :: Decimal.lastDigits p.val scaled := by
    refine ⟨nearestEven (units * 10 ^ p.val) Binary64.perOne / 10 ^ p.val,
      nearestEven (units * 10 ^ p.val) Binary64.perOne, ?_⟩
    unfold Decimal.fixed
    rw [if_neg hp]
  rw [hfixed]
  have hdigits : ∀ c ∈ Nat.toDigits 10 whole ++ '.' :: Decimal.lastDigits p.val scaled,
      isNumeral c = true := by
    intro c hc
    rcases List.mem_append.1 hc with hc | hc
    · exact isNumeral_of_mem_toDigits hc
    · rcases List.mem_cons.1 hc with rfl | hc
      · decide
      · simp [isNumeral, Decimal.isDigit_of_mem_lastDigits hc]
  have hhead : (Nat.toDigits 10 whole ++ '.' :: Decimal.lastDigits p.val scaled).head? ≠
      some '.' := by
    obtain ⟨first, rest, hwhole⟩ := List.exists_cons_of_ne_nil (@Nat.toDigits_ne_nil whole 10)
    have hfirst : first.isDigit = true :=
      Nat.isDigit_of_mem_toDigits (b := 10) (n := whole) (by decide) (by decide)
        (by rw [hwhole]; exact List.mem_cons_self)
    rw [hwhole]
    rintro hdot
    obtain rfl : first = '.' := by simpa using hdot
    exact absurd hfirst (by decide)
  cases negative with
  | false =>
    exact ⟨Decimal.dropTrailingZeros_ne_nil (by simp) hhead,
      fun c hc => hdigits c ((Decimal.dropTrailingZeros_prefix _).subset hc)⟩
  | true =>
    refine ⟨Decimal.dropTrailingZeros_ne_nil (by simp) (by simp), fun c hc => ?_⟩
    rcases List.mem_cons.1 ((Decimal.dropTrailingZeros_prefix _).subset hc) with rfl | hc
    · decide
    · exact hdigits c hc

/-- **A displayed result is not empty and has digits, signs and points only.** -/
theorem numeral_of_format {p : Precision} {x : Binary64} {text : String}
    (h : format p x = .ok text) :
    text.toList ≠ [] ∧ ∀ c ∈ text.toList, isNumeral c = true := by
  obtain ⟨negative, units, rfl, hplaces⟩ := format_eq_ok h
  unfold finiteText
  by_cases hunits : units % Binary64.perOne = 0
  · rw [if_pos hunits]
    exact numeral_integerText negative units
  · rw [if_neg hunits]
    exact numeral_fractionText (fun hp => hunits (hplaces hp)) negative units

end Display

end Reckoner
