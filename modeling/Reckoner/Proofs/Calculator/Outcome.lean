import Reckoner.Proofs.Calculator.Finite
import Reckoner.Proofs.Postfix.Parsing

namespace Reckoner

/-!
# What an answer stands for

* `calculate_of_value`: a value that can be shown is the answer.
* `calculate_eq_ok`: the steps behind an answer.
* `outcome_ne_notShown`: a finite value can always be shown.
* `calculate_of_derives`: a statement of the grammar is answered with the value of its tree, if this
  can be shown.
-/

/-- A value that is shown is finite. -/
theorem NonFinite.ofValue?_of_format {p : Precision} {v : Binary64} {text : String}
    (h : Display.format p v = .ok text) : ofValue? v = none := by
  cases v with
  | nan =>
    rw [Display.format_nan] at h
    cases h
  | infinity negative =>
    rw [Display.format_infinity] at h
    cases h
  | finite => rfl

/-- A value that can be shown is the answer. -/
theorem calculate_of_value {p : Precision} {statement : Option String} {v : Binary64}
    {text : String} (hvalue : value statement = .ok v) (hformat : Display.format p v = .ok text) :
    (calculate p statement).outcome = .ok ⟨v, text⟩ := by
  simp only [calculate, hvalue, NonFinite.ofValue?_of_format hformat, hformat]

/-- **An answer** is the value of the converted statement and the text that shows it. -/
theorem calculate_eq_ok {p : Precision} {statement : Option String} {answer : Answer}
    (h : (calculate p statement).outcome = .ok answer) :
    ∃ tokens, Postfix.convert statement = .ok tokens ∧
      Postfix.evaluate tokens = .ok answer.value ∧
      Display.format p answer.value = .ok answer.formatted := by
  unfold calculate value at h
  cases hconvert : Postfix.convert statement with
  | error e => simp [hconvert] at h
  | ok tokens =>
    cases hevaluate : Postfix.evaluate tokens with
    | error e => simp [hconvert, hevaluate] at h
    | ok v =>
      cases hfinite : NonFinite.ofValue? v with
      | some nonFinite => simp [hconvert, hevaluate, hfinite] at h
      | none =>
        cases hformat : Display.format p v with
        | error nonFinite => simp [hconvert, hevaluate, hfinite, hformat] at h
        | ok text =>
          simp only [hconvert, hevaluate, hfinite, hformat, Except.ok.injEq] at h
          subst h
          exact ⟨tokens, rfl, hevaluate, hformat⟩

/-- **A finite value can always be shown.** -/
theorem outcome_ne_notShown (p : Precision) (statement : Option String) (nonFinite : NonFinite) :
    (calculate p statement).outcome ≠ .error (.notShown nonFinite) := by
  unfold calculate value
  cases hconvert : Postfix.convert statement with
  | error e => simp
  | ok tokens =>
    cases hevaluate : Postfix.evaluate tokens with
    | error e => simp [hevaluate]
    | ok v =>
      simp only [hevaluate]
      cases v with
      | nan => simp [NonFinite.ofValue?]
      | infinity negative => simp [NonFinite.ofValue?]
      | finite negative units h =>
        obtain ⟨text, htext⟩ := Display.format_finite p negative h
        simp [NonFinite.ofValue?, htext]

/-- **A statement of the grammar** is answered with the value of its tree. -/
theorem calculate_of_derives {p : Precision} {s : String} {ls : List Lexeme} {x : Expression}
    {v : Binary64} {text : String} (hs : Statement.Spells s ls)
    (hx : Expression.Derives .expr ls x) (hvalue : x.value = .ok v)
    (hformat : Display.format p v = .ok text) :
    (calculate p (some s)).outcome = .ok ⟨v, text⟩ := by
  have htokenize : Statement.tokenize (some s) = .ok ls :=
    Statement.tokenize_of_spells hx.isProper hx.separated hs
  have hconvert : Postfix.convert (some s) = .ok x.postorder := by
    unfold Postfix.convert
    rw [htokenize]
    exact Postfix.ofLexemes_of_derives hx
  have hevaluate : Postfix.evaluate x.postorder = .ok v := by
    rw [Postfix.evaluate_postorder, hvalue]
  exact calculate_of_value (by simp only [value, hconvert, hevaluate]) hformat

end Reckoner
