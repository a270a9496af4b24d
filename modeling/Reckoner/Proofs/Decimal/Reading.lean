import Reckoner.Postfix.Basic
import Reckoner.Proofs.Binary64.Rounding
import Reckoner.Proofs.Decimal.Numeral
import Reckoner.Proofs.Statement.Lexing

namespace Reckoner

/-!
# Numerals are read as the nearest doubles

A literal of a statement has digits and points only, so none of the other forms of numerals plays a
part in its value: no blanks around it, no sign, no word, no exponent.

* `Decimal.digitRun_append`: the digits at the front of a text.
* `Postfix.literalValue?_eq`: the value of a literal is that of its digits and points.
* `Postfix.literalValue?_of_denotes`: a literal has the double nearest to the number it denotes.
-/

namespace Decimal

/-! ### Digits -/

/-- An ASCII digit has its value in any script. -/
theorem digit?_of_isDigit {c : Char} (h : c.isDigit = true) :
    Style.anyScript.digit? c = some (digitsValue [c]) := by
  have hall : ∀ d < 10, Text.digitValue? (Nat.digitChar d) = some d := by decide
  obtain ⟨d, hd, rfl, hc⟩ := exists_digitChar h
  rw [hc]
  exact hall d hd

/-- The number that the values of digits denote. -/
theorem ofDigits_map (ds : List Char) :
    ofDigits (ds.map fun c => digitsValue [c]) = digitsValue ds := by
  have hfold (cs : List Char) (n : Nat) :
      (cs.map fun c => digitsValue [c]).foldl (fun n d => 10 * n + d) n =
        Nat.ofDigitChars 10 cs n := by
    induction cs generalizing n with
    | nil => rfl
    | cons c cs ih =>
      have hc : digitsValue [c] = c.toNat - '0'.toNat := by
        rw [digitsValue, Nat.ofDigitChars_cons, Nat.ofDigitChars_nil, Nat.mul_zero, Nat.zero_add]
      rw [List.map_cons, List.foldl_cons, ih, Nat.ofDigitChars_cons, hc]
  exact hfold ds 0

/-- **The digits at the front** of a text that ends behind them or goes on with a point. -/
theorem digitRun_append {ds rest : List Char} (h : Digits ds)
    (hrest : rest = [] ∨ ∃ more, rest = '.' :: more) (after : Bool) :
    digitRun .anyScript after (ds ++ rest) = (ds.map fun c => digitsValue [c], rest) := by
  induction ds generalizing after with
  | nil =>
    rcases hrest with rfl | ⟨more, rfl⟩
    · rfl
    · have hpoint : Style.anyScript.digit? '.' = none := by decide
      simp [digitRun, hpoint]
  | cons c ds ih =>
    have hc := digit?_of_isDigit (h c List.mem_cons_self)
    have htail := ih (fun e he => h e (List.mem_cons_of_mem c he)) true
    simp only [List.cons_append, digitRun, hc, htail, List.map_cons]

/-! ### Magnitudes -/

/-- The double of digits of which some stand behind a point. -/
theorem nearest_eq_ofRatio {ds fs : List Char} {n : Int} {d : Nat} (hd : 0 < d)
    (h : decimalValue ds fs * d = n) :
    nearest false (digitsValue (ds ++ fs)) (0 - fs.length) = Binary64.ofRatio n d := by
  have hpow : 0 < 10 ^ fs.length := Nat.pow_pos (by decide)
  -- The number is not negative, and both quotients are the same.
  have hcross : (digitsValue (ds ++ fs) * d : Rat) = n * (10 ^ fs.length : Nat) := by
    have hne : ((10 ^ fs.length : Nat) : Rat) ≠ 0 := by exact_mod_cast Nat.ne_of_gt hpow
    rw [← h, decimalValue]
    field_simp
  have hint : (digitsValue (ds ++ fs) : Int) * d = n * (10 ^ fs.length : Nat) := by
    exact_mod_cast hcross
  have hn : 0 ≤ n := by
    by_contra hneg
    have hlt : n * (10 ^ fs.length : Nat) < 0 :=
      Int.mul_neg_of_neg_of_pos (by omega) (by exact_mod_cast hpow)
    have hge : 0 ≤ (digitsValue (ds ++ fs) : Int) * d := Int.mul_nonneg (by omega) (by omega)
    omega
  obtain ⟨m, rfl⟩ := Int.eq_ofNat_of_zero_le hn
  have hnat : digitsValue (ds ++ fs) * d = m * 10 ^ fs.length := by exact_mod_cast hint
  have hsign : decide ((m : Int) < 0) = false := decide_eq_false (by omega)
  have hexp : (0 - (fs.length : Int)).toNat = 0 ∧ (-(0 - (fs.length : Int))).toNat = fs.length := by
    omega
  unfold nearest Binary64.ofRatio
  rw [hsign, hexp.1, hexp.2, Nat.pow_zero, Nat.mul_one, Int.natAbs_natCast]
  apply Binary64.round_congr false hpow hd
  calc digitsValue (ds ++ fs) * Binary64.perOne * d
      = digitsValue (ds ++ fs) * d * Binary64.perOne := by ring
    _ = m * 10 ^ fs.length * Binary64.perOne := by rw [hnat]
    _ = m * Binary64.perOne * 10 ^ fs.length := by ring

/-- **A numeral is read as the nearest double.** -/
theorem magnitude?_of_denotes {cs : List Char} {q : Rat} {n : Int} {d : Nat} (h : Denotes cs q)
    (hd : 0 < d) (hq : q * d = n) :
    magnitude? .anyScript false cs = some (Binary64.ofRatio n d) := by
  cases h with
  | whole hdigits hne =>
    have hrun := digitRun_append hdigits (.inl rfl) false
    rw [List.append_nil] at hrun
    have hvals : (cs.map fun c => digitsValue [c]) ≠ [] := by simpa using hne
    have hnearest := nearest_eq_ofRatio hd hq
    rw [List.append_nil] at hnearest
    simp only [magnitude?, hrun, exponent, List.append_nil, if_neg hvals, ofDigits_map]
    simpa [ofDigits] using hnearest
  | @point ds fs hwhole hfraction hne =>
    have hrun := digitRun_append hwhole (.inr ⟨fs, rfl⟩) false
    have hplaces := digitRun_append hfraction (.inl rfl) false
    rw [List.append_nil] at hplaces
    have hvals : ((ds ++ fs).map fun c => digitsValue [c]) ≠ [] := by simpa using hne
    have hnearest := nearest_eq_ofRatio hd hq
    simp only [magnitude?, hrun, hplaces, exponent, ← List.map_append, if_neg hvals, ofDigits_map,
      List.length_map]
    simpa [ofDigits] using hnearest

/-- A numeral has digits and points only. -/
theorem Denotes.isLiteralChar {cs : List Char} {q : Rat} (h : Denotes cs q) :
    ∀ c ∈ cs, Statement.isLiteralChar c = true := by
  intro c hc
  unfold Statement.isLiteralChar
  cases h with
  | whole hdigits _ => rw [hdigits c hc, Bool.true_or]
  | point hwhole hfraction _ =>
    rcases List.mem_append.1 hc with hc | hc
    · rw [hwhole c hc, Bool.true_or]
    · rcases List.mem_cons.1 hc with rfl | hc
      · rfl
      · rw [hfraction c hc, Bool.true_or]

/-- A numeral is not empty. -/
theorem Denotes.ne_nil {cs : List Char} {q : Rat} (h : Denotes cs q) : cs ≠ [] := by
  cases h with
  | whole _ hne => exact hne
  | point _ _ _ => simp

end Decimal

/-! ### Literals -/

namespace Text

/-- What holds no blank is not stripped. -/
theorem trimBy_eq_self {blank : Char → Bool} {cs : List Char} (h : ∀ c ∈ cs, blank c = false) :
    trimBy blank cs = cs := by
  have hdrop (ds : List Char) (hds : ∀ c ∈ ds, blank c = false) : ds.dropWhile blank = ds := by
    cases ds with
    | nil => rfl
    | cons c rest => rw [List.dropWhile_cons_of_neg (by simp [hds c List.mem_cons_self])]
  unfold trimBy
  rw [hdrop cs h, hdrop cs.reverse (by simpa using h), List.reverse_reverse]

end Text

namespace Postfix

/-- Digits and points, one by one. -/
theorem mem_of_isLiteralChar {c : Char} (h : Statement.isLiteralChar c = true) :
    c ∈ ['0', '1', '2', '3', '4', '5', '6', '7', '8', '9', '.'] := by
  have hall : ∀ d < 10,
      Nat.digitChar d ∈ ['0', '1', '2', '3', '4', '5', '6', '7', '8', '9', '.'] := by
    decide
  rcases Bool.or_eq_true_iff.1 h with hdigit | hpoint
  · obtain ⟨d, hd, rfl, _⟩ := Decimal.exists_digitChar hdigit
    exact hall d hd
  · rw [of_decide_eq_true hpoint]
    decide

/-- **The value of a literal** is that of its digits and points: they are no blanks, signs or
    letters. -/
theorem literalValue?_eq {text : String}
    (h : ∀ c ∈ text.toList, Statement.isLiteralChar c = true) :
    literalValue? text = Decimal.magnitude? .anyScript false text.toList := by
  have hclass : ['0', '1', '2', '3', '4', '5', '6', '7', '8', '9', '.'].all (fun c =>
      !Text.isSpace c && c ≠ '-' && c ≠ '+' && c.toLower ≠ 'n') = true := by decide
  have hchars : ∀ c ∈ text.toList,
      Text.isSpace c = false ∧ c ≠ '-' ∧ c ≠ '+' ∧ c.toLower ≠ 'n' := by
    intro c hc
    simpa [and_assoc] using List.all_eq_true.1 hclass c (mem_of_isLiteralChar (h c hc))
  unfold literalValue?
  rw [Text.trimBy_eq_self fun c hc => (hchars c hc).1]
  generalize text.toList = cs at hchars
  have hsign : Decimal.sign cs = (false, cs) := by
    unfold Decimal.sign
    split
    · exact absurd rfl (hchars '-' List.mem_cons_self).2.1
    · exact absurd rfl (hchars '+' List.mem_cons_self).2.2.1
    · rfl
  -- Every word for a number has an n.
  have hword (word : String) (hn : 'n' ∈ word.toList) :
      String.ofList (cs.map Char.toLower) ≠ word := by
    rintro rfl
    rw [String.toList_ofList] at hn
    obtain ⟨c, hc, hlower⟩ := List.mem_map.1 hn
    exact (hchars c hc).2.2.2 hlower
  simp only [Decimal.number?, hsign, hword "inf" (by decide), hword "infinity" (by decide),
    hword "nan" (by decide), or_self, if_false]

/-- A numeral is a literal of statements. -/
theorem isProper_of_denotes {text : String} {q : Rat} (h : Decimal.Denotes text.toList q) :
    (Lexeme.literal text).IsProper :=
  ⟨h.ne_nil, h.isLiteralChar⟩

/-- **A literal has the double nearest to the number it denotes.** -/
theorem literalValue?_of_denotes {text : String} {q : Rat} {n : Int} {d : Nat}
    (h : Decimal.Denotes text.toList q) (hd : 0 < d) (hq : q * d = n) :
    literalValue? text = some (Binary64.ofRatio n d) := by
  rw [literalValue?_eq h.isLiteralChar]
  exact Decimal.magnitude?_of_denotes h hd hq

end Postfix

end Reckoner
