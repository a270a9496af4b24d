import Reckoner.Proofs.Binary64.Closest
import Reckoner.Proofs.Decimal.Reading

namespace Reckoner

/-!
# Which literals have a value, and which value

The conversion takes any stretch of digits and points for a literal; only the evaluation says which
of them are numerals.  Those with a digit and at most one point are, and the value is the double
nearest to the number that the digits denote, however many there are.

* `Decimal.numeral_cases`: a text of digits and points is a numeral, or has no digit, or has two
  points.
* `Decimal.Denotes.unique`: a numeral denotes one number.
* `Decimal.isNearest_magnitude?`: a numeral is read as the nearest double.
* `Postfix.literalValue_nearest`: which literals have a value, and which value.
-/

namespace Decimal

variable {cs : List Char} {q : Rat}

/-! ### Texts of digits and points -/

/-- A text of digits and points is digits up to its end or to its first point. -/
theorem digits_or_point (h : ∀ c ∈ cs, c.isDigit = true ∨ c = '.') :
    Digits cs ∨ ∃ ds rest, cs = ds ++ '.' :: rest ∧ Digits ds := by
  induction cs with
  | nil => exact .inl (by simp [Digits])
  | cons c cs ih =>
    rcases h c List.mem_cons_self with hc | rfl
    · have hfront (ds : List Char) (hds : Digits ds) : Digits (c :: ds) :=
        List.forall_mem_cons.2 ⟨hc, hds⟩
      rcases ih fun d hd => h d (List.mem_cons_of_mem c hd) with hcs | ⟨ds, rest, rfl, hds⟩
      · exact .inl (hfront cs hcs)
      · exact .inr ⟨c :: ds, rest, rfl, hfront ds hds⟩
    · exact .inr ⟨[], cs, rfl, by simp [Digits]⟩

/-- **A text of digits and points is a numeral, or has no digit, or has two points.** -/
theorem numeral_cases (h : ∀ c ∈ cs, c.isDigit = true ∨ c = '.') :
    (∃ q, Denotes cs q) ∨ (cs = [] ∨ cs = ['.']) ∨
      ∃ ds fs rest, cs = ds ++ '.' :: (fs ++ '.' :: rest) ∧ Digits ds ∧ Digits fs := by
  rcases digits_or_point h with hcs | ⟨ds, rest, rfl, hds⟩
  · by_cases hne : cs = []
    · exact .inr (.inl (.inl hne))
    · exact .inl ⟨_, .whole hcs hne⟩
  · have hrest : ∀ c ∈ rest, c.isDigit = true ∨ c = '.' := by
      intro c hc
      exact h c (List.mem_append_right ds (List.mem_cons_of_mem '.' hc))
    rcases digits_or_point hrest with hfs | ⟨fs, more, rfl, hfs⟩
    · by_cases hne : ds ++ rest = []
      · obtain ⟨rfl, rfl⟩ := List.append_eq_nil_iff.1 hne
        exact .inr (.inl (.inr rfl))
      · exact .inl ⟨_, .point hds hfs hne⟩
    · exact .inr (.inr ⟨ds, fs, more, rfl, hds, hfs⟩)

/-- Digits hold no point. -/
theorem Digits.count_point {ds : List Char} (h : Digits ds) : ds.count '.' = 0 := by
  apply List.count_eq_zero_of_not_mem
  intro hpoint
  exact absurd (h '.' hpoint) (by decide)

/-- A numeral has a digit, and one point at most. -/
theorem Denotes.digit_and_point (h : Denotes cs q) :
    (∃ c ∈ cs, c.isDigit = true) ∧ cs.count '.' ≤ 1 := by
  cases h with
  | whole hdigits hne =>
    obtain ⟨c, hc⟩ := List.exists_mem_of_ne_nil cs hne
    exact ⟨⟨c, hc, hdigits c hc⟩, by rw [hdigits.count_point]; omega⟩
  | @point ds fs hwhole hfraction hne =>
    obtain ⟨c, hc⟩ := List.exists_mem_of_ne_nil _ hne
    refine ⟨⟨c, ?_, hwhole.append hfraction c hc⟩, ?_⟩
    · simp only [List.mem_append, List.mem_cons] at hc ⊢
      tauto
    · rw [List.count_append, List.count_cons_self, hwhole.count_point, hfraction.count_point]

/-- **Numerals are the texts with a digit and one point at most.** -/
theorem exists_denotes_iff (h : ∀ c ∈ cs, c.isDigit = true ∨ c = '.') :
    (∃ q, Denotes cs q) ↔ (∃ c ∈ cs, c.isDigit = true) ∧ cs.count '.' ≤ 1 := by
  constructor
  · rintro ⟨q, hq⟩
    exact hq.digit_and_point
  · rintro ⟨⟨c, hc, hdigit⟩, hcount⟩
    rcases numeral_cases h with hnumeral | (rfl | rfl) | ⟨ds, fs, rest, rfl, -, -⟩
    · exact hnumeral
    · cases hc
    · rw [List.mem_singleton.1 hc] at hdigit
      cases hdigit
    · simp only [List.count_append, List.count_cons_self] at hcount
      omega

/-- **A numeral denotes one number.** -/
theorem Denotes.unique {q' : Rat} (h : Denotes cs q) (h' : Denotes cs q') : q = q' := by
  cases h with
  | whole hdigits hne =>
    generalize hcs : cs = text at h'
    cases h' with
    | whole _ _ => rfl
    | point _ _ _ =>
      subst hcs
      exact absurd (hdigits '.' (by simp)) (by decide)
  | @point ds fs hwhole hfraction hne =>
    generalize hcs : ds ++ '.' :: fs = text at h'
    cases h' with
    | whole hdigits _ =>
      subst hcs
      exact absurd (hdigits '.' (by simp)) (by decide)
    | @point ds' fs' hwhole' hfraction' _ =>
      -- The digits in front of the point end where the first point stands.
      have hds : ds = ds' := by
        have hfront := congrArg (List.takeWhile (· ≠ '.')) hcs
        rw [List.takeWhile_append_of_pos hwhole.ne_point,
          List.takeWhile_append_of_pos hwhole'.ne_point] at hfront
        simpa using hfront
      subst hds
      rw [List.append_cancel_left_eq] at hcs
      rw [(List.cons.inj hcs).2]

/-! ### Reading -/

/-- Without a digit, or with two points, there is nothing to read. -/
theorem magnitude?_eq_none (h : ∀ c ∈ cs, c.isDigit = true ∨ c = '.')
    (hcs : ¬ ∃ q, Denotes cs q) : magnitude? .anyScript false cs = none := by
  rcases numeral_cases h with hnumeral | (rfl | rfl) | ⟨ds, fs, rest, rfl, hds, hfs⟩
  · exact absurd hnumeral hcs
  · decide
  · decide
  · -- The reading stops at the second point.
    have hwhole := digitRun_append hds (.inr ⟨fs ++ '.' :: rest, rfl⟩) false
    have hfraction := digitRun_append hfs (.inr ⟨rest, rfl⟩) false
    simp [magnitude?, hwhole, hfraction, exponent]

/-- **A numeral is read as the nearest double.** -/
theorem isNearest_magnitude? (h : Denotes cs q) :
    ∃ x, magnitude? .anyScript false cs = some x ∧ Binary64.IsNearest q x := by
  have hq : q * q.den = q.num := Rat.mul_den_eq_num q
  have hnonneg : 0 ≤ q := by
    cases h with
    | whole _ _ => exact decimalValue_nonneg _ _
    | point _ _ _ => exact decimalValue_nonneg _ _
  have hnum : 0 ≤ q.num := Rat.num_nonneg.2 hnonneg
  refine ⟨_, magnitude?_of_denotes h q.den_pos hq, ?_⟩
  have hround := Binary64.isNearest_round (n := q.num.natAbs * Binary64.perOne) q.den_pos
  have hquotient : ((q.num.natAbs * Binary64.perOne : Nat) : Rat) / (q.den * Binary64.perOne) = q := by
    have hone := ne_of_gt Binary64.perOne_pos_rat
    rw [Nat.cast_mul, mul_div_mul_right _ _ hone, Nat.cast_natAbs, abs_of_nonneg hnum]
    exact Rat.num_div_den q
  rw [hquotient] at hround
  unfold Binary64.ofRatio
  rwa [decide_eq_false (not_lt_of_ge hnum)]

end Decimal

namespace Postfix

/-- The value of a numeral is the nearest double. -/
theorem isNearest_literalValue {text : String} {q : Rat} (h : Decimal.Denotes text.toList q) :
    ∃ x, literalValue text = .ok x ∧ Binary64.IsNearest q x := by
  obtain ⟨x, hx, hnearest⟩ := Decimal.isNearest_magnitude? h
  refine ⟨x, ?_, hnearest⟩
  simp only [literalValue, literalValue?_eq h.isLiteralChar, hx]

/-- Digits and points that are no numeral have no value. -/
theorem literalValue_eq_error {text : String}
    (h : ∀ c ∈ text.toList, c.isDigit = true ∨ c = '.')
    (hnumeral : ¬ ∃ q, Decimal.Denotes text.toList q) :
    literalValue text = .error (.invalidLiteral text) := by
  have hchars : ∀ c ∈ text.toList, Statement.isLiteralChar c = true := by
    intro c hc
    simpa [Statement.isLiteralChar] using h c hc
  simp only [literalValue, literalValue?_eq hchars, Decimal.magnitude?_eq_none h hnumeral]

/-- Numerals of one number have one value. -/
theorem literalValue_congr {text other : String} {q : Rat} {x : Binary64}
    (h : Decimal.Denotes text.toList q) (hother : Decimal.Denotes other.toList q)
    (hx : literalValue text = .ok x) : literalValue other = .ok x := by
  have hq : q * q.den = q.num := Rat.mul_den_eq_num q
  simp only [literalValue, literalValue?_of_denotes h q.den_pos hq] at hx
  simp only [literalValue, literalValue?_of_denotes hother q.den_pos hq, hx]

/-- **Which literals have a value, and which value.**  A text of digits and points has a value
    exactly if it has a digit and at most one point.  The value is then the double nearest to the
    number that the text denotes, an infinity from `2 ^ 1024 - 2 ^ 970` on, and neither negative nor
    the not-a-number; all texts that denote this number have the same value.  Any other text of
    digits and points is an invalid literal. -/
theorem literalValue_nearest {text : String}
    (h : ∀ c ∈ text.toList, c.isDigit = true ∨ c = '.') :
    ((∃ x, literalValue text = .ok x) ↔
      (∃ c ∈ text.toList, c.isDigit = true) ∧ text.toList.count '.' ≤ 1) ∧
    (∀ x, literalValue text = .ok x → ∃ q, Decimal.Denotes text.toList q ∧
      (∀ q', Decimal.Denotes text.toList q' → q' = q) ∧ Binary64.IsNearest q x ∧
      (x = .infinity false ↔ 2 ^ 1024 - 2 ^ 970 ≤ q) ∧ x ≠ .nan ∧ x.isNegative = false ∧
      ∀ other : String, Decimal.Denotes other.toList q → literalValue other = .ok x) ∧
    ((¬ ∃ x, literalValue text = .ok x) → literalValue text = .error (.invalidLiteral text)) := by
  rw [← Decimal.exists_denotes_iff h]
  by_cases hnumeral : ∃ q, Decimal.Denotes text.toList q
  · obtain ⟨q, hq⟩ := hnumeral
    obtain ⟨x, hx, hnearest⟩ := isNearest_literalValue hq
    refine ⟨iff_of_true ⟨x, hx⟩ ⟨q, hq⟩, ?_, fun hnone => absurd ⟨x, hx⟩ hnone⟩
    intro y hy
    obtain rfl : x = y := Except.ok.inj (hx.symm.trans hy)
    exact ⟨q, hq, fun q' hq' => hq'.unique hq, hnearest, hnearest.eq_infinity_iff,
      hnearest.sign.1, hnearest.sign.2, fun other hother => literalValue_congr hq hother hx⟩
  · have herror := literalValue_eq_error h hnumeral
    have hnone : ¬ ∃ x, literalValue text = .ok x := by
      rintro ⟨x, hx⟩
      rw [herror] at hx
      cases hx
    exact ⟨iff_of_false hnone hnumeral, fun x hx => absurd ⟨x, hx⟩ hnone, fun _ => herror⟩

/-- A point without a fraction, the same number with redundant zeros, and a second point. -/
theorem literalValue_nearest_five :
    (∀ c ∈ "5.".toList, c.isDigit = true ∨ c = '.') ∧
      (∀ c ∈ "1.2.3".toList, c.isDigit = true ∨ c = '.') ∧
      (∃ x, literalValue "5." = .ok x ∧ Binary64.IsNearest 5 x ∧ literalValue "05.0" = .ok x) ∧
      literalValue "1.2.3" = .error (.invalidLiteral "1.2.3") := by
  have hfive : ∀ c ∈ "5.".toList, c.isDigit = true ∨ c = '.' := by
    rw [show "5.".toList = ['5', '.'] from rfl]
    simp
  have hpoints : ∀ c ∈ "1.2.3".toList, c.isDigit = true ∨ c = '.' := by
    rw [show "1.2.3".toList = ['1', '.', '2', '.', '3'] from rfl]
    simp
  obtain ⟨hiff, hvalue, -⟩ := literalValue_nearest hfive
  obtain ⟨x, hx⟩ := hiff.2 ⟨⟨'5', by decide, by decide⟩, by decide⟩
  obtain ⟨q, -, hunique, hnearest, -, -, -, hother⟩ := hvalue x hx
  have hq : (5 : Rat) = q := by
    rw [← hunique _ (@Decimal.Denotes.point ['5'] [] (by decide) (by decide) (by decide))]
    decide +kernel
  have hzeros : Decimal.Denotes "05.0".toList q := by
    have hpoint : Decimal.Denotes "05.0".toList (Decimal.decimalValue ['0', '5'] ['0']) :=
      @Decimal.Denotes.point ['0', '5'] ['0'] (by decide) (by decide) (by decide)
    have hsame : Decimal.decimalValue ['0', '5'] ['0'] = 5 := by decide +kernel
    rwa [hsame, hq] at hpoint
  refine ⟨hfive, hpoints, ⟨x, hx, hq ▸ hnearest, hother "05.0" hzeros⟩, ?_⟩
  apply (literalValue_nearest hpoints).2.2
  rw [(literalValue_nearest hpoints).1]
  exact fun hcount => absurd hcount.2 (by decide)

end Postfix

end Reckoner
