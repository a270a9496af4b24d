import Reckoner.Calculator.Record
import Reckoner.Proofs.Calculator.Finite
import Reckoner.Proofs.Expression.Tree

namespace Reckoner

/-!
# Infinities do not get lost

Neither a division by zero nor an overflow is an error by itself, so only the value at the end can
tell.  An infinity or not-a-number stays one in every operation but as a divisor: there an infinity
may give zero.  Where no divisor lies on the way from a subexpression up to the whole expression, a
subexpression without a finite value leaves the whole without one, and this is reported.

* `Operator.isFinite_apply_of_left`, `Operator.isFinite_apply_of_right`: one operation.
* `Expression.Exposed y x`: `y` is a subexpression of `x`, and no divisor lies on the way.
* `Expression.not_isFinite_of_exposed`: the way up.
* `calculate_of_not_isFinite`: what is reported.
* `calculate_of_exposed`: all of this for the postorder of an expression.
-/

/-! ### One operation -/

namespace Binary64

variable {x y : Binary64}

/-- A sum is not finite if its left operand is not. -/
theorem isFinite_add_of_left (hx : x.isFinite = false) (y : Binary64) :
    (add x y).isFinite = false := by
  cases x with
  | finite => cases hx
  | nan => rfl
  | infinity a =>
    cases y with
    | nan => rfl
    | finite => rfl
    | infinity b => cases a <;> cases b <;> rfl

/-- A sum is not finite if its right operand is not. -/
theorem isFinite_add_of_right (x : Binary64) (hy : y.isFinite = false) :
    (add x y).isFinite = false := by
  cases y with
  | finite => cases hy
  | nan => cases x <;> rfl
  | infinity b =>
    cases x with
    | nan => rfl
    | finite => rfl
    | infinity a => cases a <;> cases b <;> rfl

/-- The sign makes no difference. -/
theorem isFinite_neg (x : Binary64) : (neg x).isFinite = x.isFinite := by
  cases x <;> rfl

/-- A product is not finite if its left operand is not: an infinity times zero is no number. -/
theorem isFinite_mul_of_left (hx : x.isFinite = false) (y : Binary64) :
    (mul x y).isFinite = false := by
  cases x with
  | finite => cases hx
  | nan => rfl
  | infinity a =>
    cases y with
    | nan => rfl
    | infinity b => rfl
    | finite b v _ =>
      rw [mul]
      split <;> rfl

/-- A product is not finite if its right operand is not. -/
theorem isFinite_mul_of_right (x : Binary64) (hy : y.isFinite = false) :
    (mul x y).isFinite = false := by
  cases y with
  | finite => cases hy
  | nan => cases x <;> rfl
  | infinity b =>
    cases x with
    | nan => rfl
    | infinity a => rfl
    | finite a u _ =>
      rw [mul]
      split <;> rfl

/-- A quotient is not finite if its dividend is not, be the divisor zero or infinite. -/
theorem isFinite_div_of_left (hx : x.isFinite = false) (y : Binary64) :
    (div x y).isFinite = false := by
  cases x with
  | finite => cases hx
  | nan => rfl
  | infinity a => cases y <;> rfl

end Binary64

namespace Operator

variable {x y : Binary64}

/-- What is not finite on the left is not finite after the operation. -/
theorem isFinite_apply_of_left (o : Operator) (hx : x.isFinite = false) (y : Binary64) :
    (o.apply x y).isFinite = false := by
  cases o with
  | plus => exact Binary64.isFinite_add_of_left hx y
  | minus => exact Binary64.isFinite_add_of_left hx y.neg
  | times => exact Binary64.isFinite_mul_of_left hx y
  | «over» => exact Binary64.isFinite_div_of_left hx y

/-- The same on the right, but for a divisor. -/
theorem isFinite_apply_of_right {o : Operator} (ho : o ≠ .over) (x : Binary64)
    (hy : y.isFinite = false) : (o.apply x y).isFinite = false := by
  cases o with
  | plus => exact Binary64.isFinite_add_of_right x hy
  | minus => exact Binary64.isFinite_add_of_right x ((Binary64.isFinite_neg y).trans hy)
  | times => exact Binary64.isFinite_mul_of_right x hy
  | «over» => exact absurd rfl ho

end Operator

/-! ### The way up -/

namespace Expression

/-- An expression is exposed in another one if it is a subexpression of it, and the way from it up to
    the whole never comes from the right of a division. -/
inductive Exposed (y : Expression) : Expression → Prop
  | whole : Exposed y y
  | left {o : Operator} {l r : Expression} (inner : Exposed y l) : Exposed y (.operation o l r)
  | right {o : Operator} {l r : Expression} (noDivisor : o ≠ .over) (inner : Exposed y r) :
      Exposed y (.operation o l r)

variable {x y : Expression} {v w : Binary64}

/-- The value of an operation is that of the operator on the values of its operands. -/
theorem value_operation_eq_ok {o : Operator} {l r : Expression}
    (h : (operation o l r).value = .ok w) :
    ∃ a b, l.value = .ok a ∧ r.value = .ok b ∧ o.apply a b = w := by
  rw [value] at h
  cases hl : l.value with
  | error e =>
    rw [hl] at h
    cases h
  | ok a =>
    cases hr : r.value with
    | error e =>
      rw [hl, hr] at h
      cases h
    | ok b =>
      rw [hl, hr] at h
      exact ⟨a, b, rfl, rfl, Except.ok.inj h⟩

/-- **What is exposed and not finite** leaves the whole without a finite value. -/
theorem not_isFinite_of_exposed (h : y.Exposed x) (hy : y.value = .ok v)
    (hv : v.isFinite = false) (hx : x.value = .ok w) : w.isFinite = false := by
  -- Induction on the way up: each operation on it keeps what is not finite.
  induction h generalizing w with
  | whole =>
    rw [hy] at hx
    cases hx
    exact hv
  | left _ ih =>
    obtain ⟨a, b, hl, _, rfl⟩ := value_operation_eq_ok hx
    exact Operator.isFinite_apply_of_left _ (ih hl) b
  | right ho _ ih =>
    obtain ⟨a, b, _, hr, rfl⟩ := value_operation_eq_ok hx
    exact Operator.isFinite_apply_of_right ho a (ih hr)

end Expression

/-! ### What is reported -/

/-- A value that is not finite is reported, and nothing is shown. -/
theorem calculate_of_not_isFinite {statement : Option String} {tokens : List Postfix.Token}
    {w : Binary64} (hconvert : Postfix.convert statement = .ok tokens)
    (hevaluate : Postfix.evaluate tokens = .ok w) (hw : w.isFinite = false) (p : Precision) :
    ∃ reason : NonFinite, (calculate p statement).outcome = .error (.notFinite reason) := by
  have hvalue : value statement = .ok w := by simp only [value, hconvert, hevaluate]
  simp only [calculate, hvalue]
  cases w with
  | finite => cases hw
  | nan => exact ⟨.nan, rfl⟩
  | infinity negative => exact ⟨.infinity negative, rfl⟩

/-- **A division by zero or an overflow can only vanish in a divisor.**  Let all literals of an
    expression have values.  If one of its subexpressions, be it a literal or an operation, has an
    infinite value or none at all, and no divisor lies on the way from there up to the whole, then
    the postorder of the expression is evaluated to an infinity or the not-a-number; and for every
    statement that is converted to this postorder, just that is reported and nothing is shown. -/
theorem calculate_of_exposed {x y : Expression} {v : Binary64}
    (hliterals : ∀ text ∈ x.literals, Postfix.literalValue? text ≠ none) (hexposed : y.Exposed x)
    (hvalue : y.value = .ok v) (hv : v.isFinite = false) :
    (∃ w, Postfix.evaluate x.postorder = .ok w ∧ w.isFinite = false) ∧
    ∀ p statement, Postfix.convert statement = .ok x.postorder →
      ∃ reason : NonFinite,
        (calculate p statement).outcome = .error (.notFinite reason) ∧
        (calculate p statement).record =
          ⟨statement, none, none, some ("Result is not a finite number: " ++ reason.text)⟩ ∧
        (calculate p statement).formatted? = none := by
  -- Only a literal without a value could be in the way of the evaluation.
  obtain ⟨w, hw⟩ : ∃ w, x.value = .ok w := by
    cases hx : x.value with
    | ok w => exact ⟨w, rfl⟩
    | error e =>
      obtain ⟨text, htext, hnone⟩ := (Expression.value_eq_error_iff x).1 ⟨e, hx⟩
      exact absurd hnone (hliterals text htext)
  have hevaluate : Postfix.evaluate x.postorder = .ok w := by rw [Postfix.evaluate_postorder, hw]
  have hinfinite := Expression.not_isFinite_of_exposed hexposed hvalue hv hw
  refine ⟨⟨w, hevaluate, hinfinite⟩, ?_⟩
  intro p statement hconvert
  obtain ⟨reason, houtcome⟩ := calculate_of_not_isFinite hconvert hevaluate hinfinite p
  refine ⟨reason, houtcome, ?_, ?_⟩
  · simp only [Calculation.record, houtcome]
    rfl
  · simp only [Calculation.formatted?, houtcome]

/-- A quotient by zero that is subtracted in a factor of a product. -/
theorem calculate_of_exposed_quotient :
    Postfix.convert (some "0*(2-1/0)") = .ok
      (Expression.operation .times (.literal "0")
        (.operation .minus (.literal "2") (.operation .over (.literal "1") (.literal "0")))).postorder ∧
      ∃ reason : NonFinite,
        (calculate 4 (some "0*(2-1/0)")).outcome = .error (.notFinite reason) := by
  have hconvert : Postfix.convert (some "0*(2-1/0)") = .ok
      (Expression.operation .times (.literal "0")
        (.operation .minus (.literal "2")
          (.operation .over (.literal "1") (.literal "0")))).postorder := by
    decide +kernel
  have hexposed := Expression.Exposed.right (o := .times) (l := .literal "0") (by decide)
    (.right (o := .minus) (l := .literal "2") (by decide)
      (.whole (y := .operation .over (.literal "1") (.literal "0"))))
  have hquotient : (Expression.operation .over (.literal "1") (.literal "0")).value =
      .ok (.infinity false) := by
    decide +kernel
  obtain ⟨-, hreported⟩ := calculate_of_exposed (by decide +kernel) hexposed hquotient rfl
  obtain ⟨reason, houtcome, -, -⟩ := hreported 4 _ hconvert
  exact ⟨hconvert, reason, houtcome⟩

/-- Behind a division it does vanish. -/
example : (calculate 4 (some "3-1/(1/0)")).formatted? = some "3" := by decide +kernel

end Reckoner
