import Reckoner.Proofs.Binary64.Quotient
import Reckoner.Statement.Operator

namespace Reckoner.Operator

/-!
# Operations refuse nothing

Of the steps by which an operation is computed, the plain division alone may refuse its operands, and
it never gets those that it refuses.  What a division computes is then the quotient of the
floating-point standard, for zeros, infinities and the not-a-number too.

* `Operator.perform?_eq`: no operation refuses its operands.
* `Operator.over_isQuotient`: division is that of the standard.
-/

/-- **No operation refuses its operands,** and the steps lead to its value. -/
theorem perform?_eq (o : Operator) (x y : Binary64) : o.perform? x y = some (o.apply x y) := by
  cases o with
  | plus => rfl
  | minus => rfl
  | times => rfl
  | «over» => exact Binary64.divide?_eq x y

/-- **Division is that of the floating-point standard.**  Whatever the operands are, their division
    refuses nothing, and its value is the one quotient that the standard asks for.  A zero divisor,
    for which the quotient is put together by hand, gives the not-a-number exactly if the dividend is
    zero or the not-a-number, and else the infinity with the exclusive or of the signs; any other
    divisor is left to the plain division, which does not refuse it.  With the other sign of an
    operand, the quotient has the other sign. -/
theorem over_isQuotient (x y : Binary64) :
    perform? .over x y = some (apply .over x y) ∧
    (∀ q, Binary64.IsQuotient x y q ↔ perform? .over x y = some q) ∧
    (y.isZero = true →
      (perform? .over x y = some .nan ↔ x.isZero = true ∨ x = .nan) ∧
      (¬ (x.isZero = true ∨ x = .nan) →
        perform? .over x y = some (.infinity (x.isNegative != y.isNegative)))) ∧
    (y.isZero = false →
      perform? .over x y = x.quotient? y ∧ (x.quotient? y).isSome = true) ∧
    perform? .over x.neg y = (perform? .over x y).map Binary64.neg ∧
    perform? .over x y.neg = (perform? .over x y).map Binary64.neg := by
  refine ⟨perform?_eq .over x y, ?_, ?_, ?_, ?_, ?_⟩
  · intro q
    rw [perform?_eq, Option.some.injEq, Binary64.isQuotient_iff]
    exact eq_comm
  · intro hy
    have hvalue : perform? .over x y = some (x.div y) := Binary64.divide?_of_isZero hy
    rw [hvalue, Binary64.div_of_isZero hy]
    by_cases hx : x.isZero = true ∨ x = .nan
    · rw [if_pos hx]
      exact ⟨iff_of_true rfl hx, fun hnot => absurd hx hnot⟩
    · rw [if_neg hx]
      exact ⟨iff_of_false (by simp) hx, fun _ => rfl⟩
  · intro hy
    obtain ⟨hplain, hquotient⟩ := Binary64.divide?_of_not_isZero (x := x) hy
    exact ⟨hplain, by rw [hquotient, Option.isSome_some]⟩
  · rw [perform?_eq, perform?_eq]
    exact congrArg some (Binary64.div_neg_left x y)
  · rw [perform?_eq, perform?_eq]
    exact congrArg some (Binary64.div_neg_right x y)

/-- One by the negative zero, and a zero by a negative number. -/
theorem over_isQuotient_signs :
    (Binary64.zero true).isZero = true ∧
      ¬ ((Binary64.ofInt 1).isZero = true ∨ Binary64.ofInt 1 = .nan) ∧
      perform? .over (.ofInt 1) (.zero true) = some (.infinity true) ∧
      (Binary64.ofInt (-3)).isZero = false ∧
      ((Binary64.zero false).quotient? (.ofInt (-3))).isSome = true ∧
      Binary64.IsQuotient (.zero false) (.ofInt (-3)) (.zero true) := by
  have hone : ¬ ((Binary64.ofInt 1).isZero = true ∨ Binary64.ofInt 1 = .nan) := by decide +kernel
  have hsign : ((Binary64.ofInt 1).isNegative != (Binary64.zero true).isNegative) = true := by
    decide +kernel
  have hthree : (Binary64.ofInt (-3)).isZero = false := by decide +kernel
  obtain ⟨-, -, hzero, -⟩ := over_isQuotient (.ofInt 1) (.zero true)
  obtain ⟨-, hstandard, -, hplain, -⟩ := over_isQuotient (.zero false) (.ofInt (-3))
  refine ⟨rfl, hone, ?_, hthree, (hplain hthree).2, ?_⟩
  · rw [(hzero rfl).2 hone, hsign]
  · rw [hstandard]
    decide +kernel

/-- The sign of a zero comes back through an infinity. -/
example : apply .over (.ofInt 1) (apply .over (.ofInt 1) (.zero true)) = .zero true := by
  decide +kernel

/-- Half of the least number is a tie between it and zero, which is even. -/
example : apply .over (.finite true 1 (by decide +kernel)) (.ofInt 2) = .zero true := by
  decide +kernel

end Reckoner.Operator
