import Reckoner.Proofs.Binary64.Error
import Reckoner.Proofs.Calculator.Printed

namespace Reckoner

/-!
# The form of displayed numbers

Zeros and the point are dropped from the end of every fraction that is printed.  That is right only
if the fraction that is printed is not zero, for a double of any size and any number of places.

* `Decimal.Shape places cs`: the form of displayed numbers.
* `Decimal.Canonical.shape`: canonical texts of numbers with so many places have it.
* `Decimal.Canonical.point_mem_iff`: they have a point where the number is no integer.
* `Display.format_shape`: every finite double is shown in this form, without a point exactly if it
  is integral or is rounded to an integer.
-/

namespace Decimal

/-- A text with a minus before it, or without. -/
def withSign (negative : Bool) (cs : List Char) : List Char := if negative then '-' :: cs else cs

/-- The form of displayed numbers: zero; or digits without a zero in front; or a whole part, a point
    and places, the last of them not zero. -/
inductive Shape (places : Nat) : List Char → Prop
  | zero : Shape places ['0']
  | integer (negative : Bool) {ds : List Char} (digits : Digits ds) (ne_nil : ds ≠ [])
      (leading : ds.head? ≠ some '0') : Shape places (withSign negative ds)
  | fraction (negative : Bool) {ds fs : List Char} (whole : IsWhole ds) (digits : Digits fs)
      (ne_nil : fs ≠ []) (length : fs.length ≤ places) (trailing : fs.getLast? ≠ some '0') :
      Shape places (withSign negative (ds ++ '.' :: fs))

variable {places : Nat} {cs ds fs : List Char} {q : Rat}

/-- No displayed number is a negative zero. -/
theorem Shape.ne_negative_zero (h : Shape places cs) : cs ≠ ['-', '0'] := by
  rintro rfl
  generalize hcs : ['-', '0'] = cs at h
  cases h with
  | zero => simp at hcs
  | @integer negative ds digits _ leading =>
    cases negative with
    | false =>
      obtain rfl : ['-', '0'] = ds := hcs
      exact absurd (digits '-' (by simp)) (by decide)
    | true =>
      obtain rfl : ['0'] = ds := (List.cons.inj hcs).2
      exact leading rfl
  | @fraction negative ds fs =>
    have hpoint : '.' ∈ withSign negative (ds ++ '.' :: fs) := by
      cases negative <;> simp [withSign]
    rw [← hcs] at hpoint
    simp at hpoint

/-- Canonical parts with a sign have this form, unless they are a zero with a minus. -/
theorem shape_withPoint (negative : Bool) (hds : IsWhole ds) (hfs : IsFraction fs)
    (hlength : fs.length ≤ places) (hsign : negative = true → decimalValue ds fs ≠ 0) :
    Shape places (withSign negative (withPoint ds fs)) := by
  unfold withPoint
  by_cases hnone : fs = []
  · subst hnone
    rw [if_pos rfl]
    by_cases hzero : ds.head? = some '0'
    · have hds0 : ds = ['0'] := hds.leading hzero
      subst hds0
      cases negative with
      | false => exact Shape.zero
      | true => exact absurd (by rw [decimalValue_nil]; rfl) (hsign rfl)
    · exact Shape.integer negative hds.digits hds.ne_nil hzero
  · rw [if_neg hnone]
    exact Shape.fraction negative hds hfs.digits hnone hlength hfs.trailing

/-- A number with so many last places has no more places in its canonical text. -/
theorem IsFraction.length_le_of_value {k : Int} (hfs : IsFraction fs)
    (h : decimalValue ds fs = k / (10 ^ places : Nat)) : fs.length ≤ places := by
  have hpow (n : Nat) : ((10 ^ n : Nat) : Rat) ≠ 0 := by positivity
  unfold decimalValue at h
  rw [div_eq_div_iff (hpow _) (hpow _)] at h
  have hmul : (digitsValue (ds ++ fs) * 10 ^ places : Int) = k * 10 ^ fs.length := by
    exact_mod_cast h
  have hdvd : 10 ^ fs.length ∣ digitsValue (ds ++ fs) * 10 ^ places := by
    rw [← Int.natCast_dvd_natCast]
    push_cast
    exact Dvd.intro_left k hmul.symm
  exact hfs.length_le hdvd

/-- **Canonical texts have this form.** -/
theorem Canonical.shape {k : Int} (h : Canonical cs (k / (10 ^ places : Nat))) :
    Shape places cs := by
  generalize hq : (k : Rat) / (10 ^ places : Nat) = q at h
  cases h with
  | unsigned hds hfs =>
    exact shape_withPoint false hds hfs (hfs.length_le_of_value hq.symm) (by simp)
  | @negative cs q hpos hunsigned =>
    cases hunsigned with
    | unsigned hds hfs =>
      have hvalue := congrArg Neg.neg hq
      rw [neg_neg, ← neg_div, ← Int.cast_neg] at hvalue
      exact shape_withPoint true hds hfs (hfs.length_le_of_value hvalue.symm) fun _ => hpos.ne'
    | negative hpos' _ => linarith

/-- What digits with places denote is no integer, if the last place is not zero. -/
theorem IsFraction.value_ne_intCast (hfs : IsFraction fs) (hne : fs ≠ []) (n : Int) :
    decimalValue ds fs ≠ n := by
  intro h
  have hvalue : decimalValue ds fs = n / (10 ^ 0 : Nat) := by
    rw [h, Nat.pow_zero, Nat.cast_one, div_one]
  have hlength : fs.length ≤ 0 := hfs.length_le_of_value hvalue
  exact hne (List.eq_nil_of_length_eq_zero (Nat.le_zero.1 hlength))

/-- **A canonical text has a point exactly if its number is no integer.** -/
theorem Canonical.point_mem_iff (h : Canonical cs q) : '.' ∈ cs ↔ ∀ n : Int, q ≠ n := by
  induction h with
  | @unsigned ds fs hds hfs =>
    unfold withPoint
    by_cases hnone : fs = []
    · subst hnone
      rw [if_pos rfl]
      constructor
      · intro hpoint
        exact absurd rfl (of_decide_eq_true (hds.digits.ne_point '.' hpoint))
      · intro hnot
        exact absurd (by rw [decimalValue_nil, Int.cast_natCast]) (hnot (digitsValue ds))
    · rw [if_neg hnone]
      exact iff_of_true (by simp) (hfs.value_ne_intCast hnone)
  | @negative cs q _ _ ih =>
    rw [List.mem_cons, or_iff_right (by decide), ih]
    constructor
    · intro hnot n hn
      apply hnot (-n)
      rw [Int.cast_neg, ← hn, neg_neg]
    · intro hnot n hn
      apply hnot (-n)
      rw [Int.cast_neg, ← hn]

/-- The canonical text of an integer is its text. -/
theorem Canonical.eq_toString {text : String} {n : Int} (h : Canonical text.toList n) :
    text = toString n := String.toList_inj.1 (h.unique (canonical_toString n))

end Decimal

namespace Display

open Binary64

/-- A quotient that is an integer divides. -/
theorem dvd_of_signed_div_eq {negative : Bool} {u d : Nat} {n : Int} (hd : 0 < d)
    (h : ((signed negative u : Int) : Rat) / d = n) : d ∣ u := by
  have hne : (d : Rat) ≠ 0 := by exact_mod_cast Nat.ne_of_gt hd
  have hmul : signed negative u = n * d := by exact_mod_cast (div_eq_iff hne).1 h
  rw [← natAbs_signed negative u, hmul, Int.natAbs_mul, Int.natAbs_natCast]
  exact Nat.dvd_mul_left _ _

/-- **The printed number is an integer exactly if the double is**, and then it is the same one. -/
theorem printed_eq_intCast_iff (negative : Bool) {a s : Nat} (hs : 0 < s) (n : Int) :
    ((signed negative (nearestEven (onGrid (a * perOne) s * s) perOne) : Int) : Rat) / s = n ↔
      ((signed negative (onGrid (a * perOne) s) : Int) : Rat) / perOne = n := by
  by_cases hdvd : perOne ∣ onGrid (a * perOne) s
  · obtain ⟨c, hc⟩ := hdvd
    rw [hc, Nat.mul_comm perOne c, Nat.mul_right_comm, nearestEven_mul_self _ _ perOne_pos,
      signed_mul_div _ _ hs, signed_mul_div _ _ perOne_pos]
  · constructor
    · intro h
      exact absurd (dvd_of_signed_div_eq hs h) (not_dvd_nearestEven_onGrid hs hdvd)
    · intro h
      exact absurd (dvd_of_signed_div_eq perOne_pos h) hdvd

/-- **The text and the double that is shown.**  Of a finite double the canonical text of a number
    with `p` places is shown, which is an integer exactly if the double that is shown is. -/
theorem exists_shown (p : Precision) {x : Binary64} {q : Rat} (hx : x.value? = some q) :
    ∃ (text : String) (k : Int) (r : Rat), format p x = .ok text ∧
      Decimal.Canonical text.toList (k / (10 ^ p.val : Nat)) ∧
      (if x.isIntegral then x else roundedHalfUp p x).value? = some r ∧
      ∀ n : Int, (k : Rat) / (10 ^ p.val : Nat) = n ↔ r = n := by
  obtain ⟨m, hm, hq⟩ := value?_eq_some_iff.1 hx
  obtain ⟨text, hformat, htext⟩ := format_eq_shown p hm
  have hscale : 0 < 10 ^ p.val := Nat.pow_pos (by decide)
  by_cases hdvd : (perOne : Int) ∣ m
  · refine ⟨text, shownPlaces p m, q, hformat, htext, ?_, ?_⟩
    · rw [if_pos ((isIntegral_iff hm).2 hdvd)]
      exact hx
    · intro n
      have hne : ((10 ^ p.val : Nat) : Rat) ≠ 0 := by positivity
      have hvalue : ((m / (perOne : Int) : Int) : Rat) = q := by
        rw [← hq, Int.cast_div hdvd (by exact_mod_cast perOne_pos_rat.ne'), Int.cast_natCast]
      rw [shownPlaces, if_pos hdvd, Int.cast_mul, Int.cast_natCast, mul_div_cancel_right₀ _ hne,
        hvalue]
  · have hfraction : x.isIntegral = false := by rwa [Bool.eq_false_iff, Ne, isIntegral_iff hm]
    have hsize : m.natAbs ≤ 2 ^ 52 * perOne := natAbs_le_of_not_integral hm hfraction
    obtain ⟨h, hrounded, -⟩ := exists_rounded hm hsize (floor?_eq_scaledFloor (p := p) hm hsize)
    have hunits : (roundedHalfUp p x).signedUnits? = some (signed (scaledFloor p m < 0)
        (onGrid ((scaledFloor p m).natAbs * perOne) (10 ^ p.val))) := by
      rw [hrounded]
      rfl
    rw [hfraction, if_neg Bool.false_ne_true]
    refine ⟨text, shownPlaces p m, _, hformat, htext, value?_of_signedUnits? hunits, ?_⟩
    rw [shownPlaces, if_neg hdvd]
    exact printed_eq_intCast_iff _ hscale

/-- **The form of displayed numbers.**  Every finite double is shown: as `0`, as digits without a
    zero in front, or as a whole part and at most `p` places, the last of them not zero.  A negative
    zero and exponents are never shown.  An integral double is shown as that integer, whatever its
    size; and the text has a point exactly if the double that is shown is not integral, so no zeros
    are taken from an integer. -/
theorem format_shape (p : Precision) {x : Binary64} {q : Rat} (hx : x.value? = some q) :
    ∃ text, format p x = .ok text ∧
      Decimal.Shape p.val text.toList ∧ text ≠ "-0" ∧ (∀ c ∈ text.toList, isNumeral c = true) ∧
      (∀ n : Int, q = n → text = toString n) ∧
      ∃ r, (if x.isIntegral then x else roundedHalfUp p x).value? = some r ∧
        ('.' ∈ text.toList ↔ ∀ n : Int, r ≠ n) ∧ ∀ n : Int, r = n → text = toString n := by
  obtain ⟨text, k, r, hformat, htext, hr, hinteger⟩ := exists_shown p hx
  have hshape : Decimal.Shape p.val text.toList := htext.shape
  have hshown (n : Int) (h : r = n) : text = toString n := by
    rw [(hinteger n).2 h] at htext
    exact htext.eq_toString
  refine ⟨text, hformat, hshape, ?_, (numeral_of_format hformat).2, ?_, r, hr, ?_, hshown⟩
  · rintro rfl
    exact hshape.ne_negative_zero rfl
  · intro n hn
    -- An integral double is shown without rounding.
    have hint : x.isIntegral = true := by
      obtain ⟨m, hm, hq⟩ := value?_eq_some_iff.1 hx
      rw [hn, div_eq_iff perOne_pos_rat.ne'] at hq
      have hmul : m = n * perOne := by exact_mod_cast hq
      rw [isIntegral_iff hm, hmul]
      exact Int.dvd_mul_left n _
    rw [if_pos hint, hx] at hr
    exact hshown n (by rw [← Option.some.inj hr, hn])
  · rw [htext.point_mem_iff]
    exact forall_congr' fun n => not_congr (hinteger n)

/-- With no places the zero of ten stays. -/
theorem format_shape_ten : (ofInt 10).value? = some 10 ∧ format 0 (ofInt 10) = .ok "10" := by
  have hten : (ofInt 10).value? = some 10 := by
    rw [value?_of_signedUnits? (signedUnits?_ofInt (by decide)), Int.cast_mul, Int.cast_natCast,
      mul_div_cancel_right₀ _ perOne_pos_rat.ne']
    rfl
  obtain ⟨text, hformat, -, -, -, hinteger, -⟩ := format_shape 0 hten
  rw [hformat, hinteger 10 rfl]
  exact ⟨hten, rfl⟩

end Display

end Reckoner
