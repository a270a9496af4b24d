import Reckoner.Postfix.Basic

namespace Reckoner

/-!
# Expressions as trees

What a statement means, apart from how it is written: a literal, or an operator between two
expressions.  Brackets are gone.

* `Expression.postorder`: the literals and operators of a tree, each operator behind its operands.
* `Expression.value`: the value by recursion over the tree.
* `Postfix.run_postorder`: the postorder of a tree leaves just its value on the stack, whatever else
  is there and whatever follows.
* `Postfix.evaluate_postorder`: so the stack evaluates a postorder to the value of its tree.
-/

/-- An expression without brackets. -/
inductive Expression where
  | literal (text : String)
  | operation (o : Operator) (left right : Expression)
  deriving DecidableEq, Repr

namespace Expression

/-- The tokens of an expression: left operand, right operand, operator. -/
def postorder : Expression → List Postfix.Token
  | .literal text => [.literal text]
  | .operation o left right => left.postorder ++ right.postorder ++ [.operator o]

/-- The texts of the literals, from left to right. -/
def literals : Expression → List String
  | .literal text => [text]
  | .operation _ left right => left.literals ++ right.literals

/-- The value of an expression: each operator is applied to the value on its left and the value on
    its right.  A literal without a value is the only thing that can go wrong. -/
def value : Expression → Except Postfix.Error Binary64
  | .literal text => Postfix.literalValue text
  | .operation o left right =>
    match left.value with
    | .error e => .error e
    | .ok l =>
      match right.value with
      | .error e => .error e
      | .ok r => .ok (o.apply l r)

/-- An expression has a value unless one of its literals has none. -/
theorem value_eq_error_iff (x : Expression) :
    (∃ e, x.value = .error e) ↔ ∃ text ∈ x.literals, Postfix.literalValue? text = none := by
  induction x with
  | literal text =>
    simp only [value, literals, Postfix.literalValue, List.mem_singleton, exists_eq_left]
    cases Postfix.literalValue? text <;> simp
  | operation o left right ihl ihr =>
    simp only [literals, List.mem_append, or_and_right, exists_or, ← ihl, ← ihr, value]
    cases left.value with
    | error e => simp
    | ok l => cases right.value <;> simp

end Expression

namespace Postfix

/-- The postorder of an expression puts its value on the stack, or stops with its error. -/
theorem run_postorder (x : Expression) (stack : List Binary64) (rest : List Token) :
    run stack (x.postorder ++ rest) =
      match x.value with
      | .ok v => run (v :: stack) rest
      | .error e => .error e := by
  induction x generalizing stack rest with
  | literal text =>
    simp only [Expression.postorder, Expression.value, List.cons_append, List.nil_append, run, step]
    cases literalValue text <;> rfl
  | operation o left right ihl ihr =>
    simp only [Expression.postorder, Expression.value, List.append_assoc]
    rw [ihl]
    cases left.value with
    | error e => rfl
    | ok l =>
      -- The value of the left operand waits below while the right one is worked out.
      simp only [ihr]
      cases right.value <;> rfl

/-- The postorder of an expression has its value. -/
theorem evaluate_postorder (x : Expression) : evaluate x.postorder = x.value := by
  have hrun := run_postorder x [] []
  rw [List.append_nil] at hrun
  rw [evaluate, hrun]
  cases x.value <;> rfl

end Postfix

end Reckoner
