import Reckoner.Proofs.Batch.ResultLine
import Reckoner.Proofs.Calculator.Finite
import Reckoner.Calculator.Record
import Reckoner.Postfix.Checked

namespace Reckoner

/-!
# Every statement has a full result or a reason

A calculation ends in one of two ways: with a finite value and the text that shows it, or with a
reason and neither of them.  The checks that its parts go through on the way are all passed.

* `Answers p statement v text`: the statement has the finite value `v`, shown as `text`.
* `Refuses statement message`: why the statement has none.
* `Lexeme.PassesCheck`, `CalculationRecord.ofFields_fields`: tokens and records pass their own
  checks.
* `calculate_total`: which of the two ways a calculation takes.
-/

/-! ### The two ways -/

/-- A statement has a finite value, and a text shows it. -/
def Answers (p : Precision) (statement : Option String) (v : Binary64) (text : String) : Prop :=
  (∃ tokens, Postfix.convert statement = .ok tokens ∧ Postfix.evaluate tokens = .ok v) ∧
    v.isFinite = true ∧ Display.format p v = .ok text

/-- What is said of a statement without a finite value. -/
inductive Refuses (statement : Option String) : String → Prop
  | malformed {e : Statement.Error} (convert : Postfix.convert statement = .error e) :
      Refuses statement e.message
  | unevaluable {tokens : List Postfix.Token} {e : Postfix.Error}
      (convert : Postfix.convert statement = .ok tokens)
      (evaluate : Postfix.evaluate tokens = .error e) : Refuses statement e.message
  | infinite {tokens : List Postfix.Token} {negative : Bool}
      (convert : Postfix.convert statement = .ok tokens)
      (evaluate : Postfix.evaluate tokens = .ok (.infinity negative)) :
      Refuses statement
        ("Result is not a finite number: " ++ if negative then "-inf" else "inf")
  | undefined {tokens : List Postfix.Token} (convert : Postfix.convert statement = .ok tokens)
      (evaluate : Postfix.evaluate tokens = .ok .nan) :
      Refuses statement "Result is not a finite number: nan"

/-- The value of an answer is that of the converted statement. -/
theorem Answers.evaluate_eq {p : Precision} {statement : Option String} {text : String}
    {v : Binary64} {tokens : List Postfix.Token} (h : Answers p statement v text)
    (hconvert : Postfix.convert statement = .ok tokens) : Postfix.evaluate tokens = .ok v := by
  obtain ⟨⟨tokens', hconvert', hevaluate⟩, _⟩ := h
  rw [hconvert] at hconvert'
  cases hconvert'
  exact hevaluate

/-- A statement is not both answered and refused. -/
theorem Refuses.not_answers {p : Precision} {statement : Option String} {message text : String}
    {v : Binary64} (h : Refuses statement message) : ¬ Answers p statement v text := by
  intro hanswers
  cases h with
  | malformed convert =>
    obtain ⟨⟨tokens, hconvert, _⟩, _⟩ := hanswers
    rw [convert] at hconvert
    cases hconvert
  | unevaluable convert evaluate =>
    have hvalue := hanswers.evaluate_eq convert
    rw [evaluate] at hvalue
    cases hvalue
  | infinite convert evaluate =>
    have hvalue := hanswers.evaluate_eq convert
    rw [evaluate] at hvalue
    cases hvalue
    cases hanswers.2.1
  | undefined convert evaluate =>
    have hvalue := hanswers.evaluate_eq convert
    rw [evaluate] at hvalue
    cases hvalue
    cases hanswers.2.1

/-- **A calculation takes one of the two ways.** -/
theorem outcome_cases (p : Precision) (statement : Option String) :
    (∃ v text, Answers p statement v text ∧
      (calculate p statement).outcome = .ok ⟨v, text⟩) ∨
    ∃ failure : Failure, Refuses statement failure.message ∧
      (calculate p statement).outcome = .error failure := by
  unfold calculate value
  cases hconvert : Postfix.convert statement with
  | error e => exact .inr ⟨.malformed e, .malformed hconvert, rfl⟩
  | ok tokens =>
    cases hevaluate : Postfix.evaluate tokens with
    | error e =>
      refine .inr ⟨.unevaluable e, .unevaluable hconvert hevaluate, ?_⟩
      simp only [hevaluate]
    | ok v =>
      simp only [hevaluate]
      cases v with
      | nan =>
        exact .inr ⟨.notFinite .nan, .undefined hconvert hevaluate, rfl⟩
      | infinity negative =>
        refine .inr ⟨.notFinite (.infinity negative), ?_, rfl⟩
        have hrefuses := Refuses.infinite hconvert hevaluate
        cases negative <;> exact hrefuses
      | finite negative units h =>
        obtain ⟨text, htext⟩ := Display.format_finite p negative h
        refine .inl ⟨_, text, ⟨⟨tokens, hconvert, hevaluate⟩, rfl, htext⟩, ?_⟩
        simp only [NonFinite.ofValue?, htext]

/-- No reason is empty. -/
theorem Failure.message_ne_empty (failure : Failure) : failure.message ≠ "" := by
  intro hempty
  have hline := failure.oneLine_message.ending
  rw [hempty] at hline
  cases hline

/-! ### Checks -/

/-- The token of a lexeme passes the checks of its fields; brackets have none. -/
def Lexeme.PassesCheck : Lexeme → Prop
  | .literal text => Postfix.Token.literalOf (.text text) = .ok (.literal text)
  | .operator o => Postfix.Token.operatorOf (.text (String.singleton o.symbol)) = .ok (.operator o)
  | _ => True

/-- Proper lexemes pass. -/
theorem Lexeme.IsProper.passesCheck {l : Lexeme} (h : l.IsProper) : l.PassesCheck := by
  cases l with
  | opening => trivial
  | closing => trivial
  | operator o => cases o <;> rfl
  | literal text =>
    have hne : text ≠ "" := by
      rintro rfl
      exact h.1 rfl
    have htext : Postfix.literalTextOf (.text text) = .ok text := by
      simp only [Postfix.literalTextOf, Field.text]
    simp only [PassesCheck, Postfix.Token.literalOf, htext]

/-- **Whatever a conversion puts out passes its checks.** -/
theorem passesCheck_of_tokenize {statement : Option String} {ls : List Lexeme}
    (h : Statement.tokenize statement = .ok ls) : ∀ l ∈ ls, l.PassesCheck := by
  cases statement with
  | none => cases h
  | some s => exact fun l hl => (Statement.isProper_of_tokenize h l hl).passesCheck

/-- A field of a record, empty or not. -/
def Value.ofOption {α : Type} (value : α → Value) : Option α → Value
  | none => .null
  | some a => value a

/-- The fields of a record as loosely typed values. -/
def CalculationRecord.fields (r : CalculationRecord) : List (String × Value) :=
  [("statement", .ofOption .text r.statement), ("value", .ofOption .real r.value),
    ("formatted", .ofOption .text r.formatted), ("error", .ofOption .text r.error)]

/-- A field is read as what it holds. -/
theorem Field.optional_ofOption {α : Type} (value : α → Value) {reader : Value → Except Defect α}
    (hread : ∀ a, reader (value a) = .ok a) (hnull : ∀ a, value a ≠ .null) (field : Option α) :
    optional reader (some (.ofOption value field)) = .ok field := by
  cases field with
  | none => rfl
  | some a =>
    have hvalue := hread a
    have hne := hnull a
    show optional reader (some (value a)) = .ok (some a)
    generalize value a = w at hvalue hne
    cases w with
    | null => exact absurd rfl hne
    | _ => simp only [optional, hvalue, Except.map]

/-- **Every record passes the checks of its fields.** -/
theorem CalculationRecord.ofFields_fields (r : CalculationRecord) : ofFields r.fields = .ok r := by
  have htext (field : Option String) :
      Field.optional Field.text (some (.ofOption .text field)) = .ok field :=
    Field.optional_ofOption Value.text (fun _ => rfl) (by simp) field
  have hreal (field : Option Binary64) :
      Field.optional Field.real (some (.ofOption .real field)) = .ok field :=
    Field.optional_ofOption Value.real (fun _ => rfl) (by simp) field
  have hlookup : r.fields.lookup "statement" = some (.ofOption .text r.statement) ∧
      r.fields.lookup "value" = some (.ofOption .real r.value) ∧
      r.fields.lookup "formatted" = some (.ofOption .text r.formatted) ∧
      r.fields.lookup "error" = some (.ofOption .text r.error) := ⟨rfl, rfl, rfl, rfl⟩
  unfold ofFields
  rw [hlookup.1, hlookup.2.1, hlookup.2.2.1, hlookup.2.2.2, htext, hreal, htext, htext]

/-! ### The record -/

/-- **Every statement has a full result or a reason.**  The record of a calculation holds a finite
    value, which is that of the converted statement, and the text that shows it, and no error; or it
    holds an error that is not empty, and neither value nor text.  The second case is that of
    statements that cannot be converted or evaluated, or whose value is an infinity or no number,
    and only then is there no text: showing a finite value never fails. -/
theorem calculate_total (p : Precision) (statement : Option String) :
    ((∃ v text, Answers p statement v text ∧
        (calculate p statement).record = ⟨statement, some v, some text, none⟩ ∧
        (calculate p statement).formatted? = some text) ∨
      ∃ message, Refuses statement message ∧ message ≠ "" ∧
        (calculate p statement).record = ⟨statement, none, none, some message⟩ ∧
        (calculate p statement).formatted? = none) ∧
    ((calculate p statement).record.ok = false ↔ ∃ message, Refuses statement message) ∧
    ((calculate p statement).formatted? = none ↔ (calculate p statement).record.ok = false) ∧
    (∀ nonFinite, (calculate p statement).outcome ≠ .error (.notShown nonFinite)) ∧
    CalculationRecord.ofFields (calculate p statement).record.fields =
      .ok (calculate p statement).record ∧
    ∀ ls, Statement.tokenize statement = .ok ls → ∀ l ∈ ls, l.PassesCheck := by
  have hstatement : (calculate p statement).statement = statement := rfl
  have hshown := outcome_ne_notShown p statement
  have hfields := CalculationRecord.ofFields_fields (calculate p statement).record
  have hchecks (ls : List Lexeme) (h : Statement.tokenize statement = .ok ls) :
      ∀ l ∈ ls, l.PassesCheck := passesCheck_of_tokenize h
  rcases outcome_cases p statement with ⟨v, text, hanswers, hok⟩ | ⟨failure, hrefuses, herror⟩
  · have hrecord : (calculate p statement).record = ⟨statement, some v, some text, none⟩ := by
      simp only [Calculation.record, hok, hstatement]
    have hformatted : (calculate p statement).formatted? = some text := by
      simp only [Calculation.formatted?, hok]
    refine ⟨.inl ⟨v, text, hanswers, hrecord, hformatted⟩, ?_, ?_, hshown, hfields, hchecks⟩
    · rw [hrecord]
      constructor
      · intro h
        cases h
      · rintro ⟨message, hrefuses⟩
        exact absurd hanswers hrefuses.not_answers
    · rw [hrecord, hformatted]
      simp [CalculationRecord.ok]
  · have hrecord : (calculate p statement).record =
        ⟨statement, none, none, some failure.message⟩ := by
      simp only [Calculation.record, herror, hstatement]
    have hformatted : (calculate p statement).formatted? = none := by
      simp only [Calculation.formatted?, herror]
    refine ⟨.inr ⟨failure.message, hrefuses, failure.message_ne_empty, hrecord, hformatted⟩,
      ?_, ?_, hshown, hfields, hchecks⟩
    · rw [hrecord]
      exact ⟨fun _ => ⟨_, hrefuses⟩, fun _ => rfl⟩
    · rw [hrecord, hformatted]
      simp [CalculationRecord.ok]

end Reckoner
