import Reckoner.Postfix.Basic
import Reckoner.Value.Field

namespace Reckoner.Postfix

/-!
# Loosely typed tokens

Main definitions:
* `Token.literalOf`, `Token.operatorOf`: the tokens that values stand for
* `operatorOf`: the operator that a value stands for
-/

/-- The text of a literal, which is not empty. -/
def literalTextOf (value : Value) : Except Field.Error String :=
  match Field.text value with
  | .error defect => .error ⟨"text", defect⟩
  | .ok "" => .error ⟨"text", .emptyText⟩
  | .ok text => .ok text

/-- The operator that a value stands for. -/
def operatorOf (value : Value) : Except Field.Error Operator :=
  let found := match value with
    | .text s =>
      match s.toList with
      | [c] => Operator.ofSymbol? c
      | _ => none
    | _ => none
  match found with
  | some o => .ok o
  | none => .error ⟨"symbol", .notOperator⟩

/-- The literal that a value stands for. -/
def Token.literalOf (value : Value) : Except Field.Error Token :=
  match literalTextOf value with
  | .ok text => .ok (.literal text)
  | .error e => .error e

/-- The operator token that a value stands for. -/
def Token.operatorOf (value : Value) : Except Field.Error Token :=
  match Postfix.operatorOf value with
  | .ok o => .ok (.operator o)
  | .error e => .error e

end Reckoner.Postfix
