import Reckoner.Proofs.Calculator.Finite
import Reckoner.Proofs.Calculator.Outcome
import Reckoner.Proofs.Decimal.Printing
import Reckoner.Proofs.Decimal.Reading

namespace Reckoner

/-!
# Integer arithmetic is exact

Integers up to `2 ^ 53` are doubles, and a rounded operation whose exact result is a double gives
that result.  So as long as no part of an expression leaves this range, nothing is ever rounded.
Zeros may be negative in between, but their sign is seen in no quotient and in no text.

* `Expression.integer`: the integer of an expression.
* `Expression.StaysInteger`: its literals are digits, its parts stay in the range, and every
  quotient is an integer.
* `Expression.value_of_staysInteger`: the value is the integer.
* `calculate_integer`: so are the answers to statements, which are shown as integers.
-/

/-- What an operator does with integers; a quotient is meant to be an integer. -/
def Operator.onIntegers : Operator → Int → Int → Int
  | .plus, m, n => m + n
  | .minus, m, n => m - n
  | .times, m, n => m * n
  | .over, m, n => m / n

namespace Expression

/-- The integer of an expression whose literals are digits. -/
def integer : Expression → Int
  | .literal text => Decimal.digitsValue text.toList
  | .operation o left right => o.onIntegers left.integer right.integer

/-- Every literal consists of digits, every part is an integer up to `2 ^ 53`, and nothing is
    divided by zero or with a remainder. -/
def StaysInteger : Expression → Prop
  | .literal text => text.toList ≠ [] ∧ Decimal.Digits text.toList ∧
      Decimal.digitsValue text.toList ≤ 2 ^ 53
  | .operation o left right => left.StaysInteger ∧ right.StaysInteger ∧
      (o = .over → right.integer ≠ 0 ∧ right.integer ∣ left.integer) ∧
      (o.onIntegers left.integer right.integer).natAbs ≤ 2 ^ 53

instance decidableStaysInteger : (x : Expression) → Decidable x.StaysInteger
  | .literal _ => inferInstanceAs (Decidable (_ ∧ _ ∧ _))
  | .operation _ left right =>
    have := decidableStaysInteger left
    have := decidableStaysInteger right
    inferInstanceAs (Decidable (_ ∧ _ ∧ (_ → _ ∧ _) ∧ _))

end Expression

open Binary64

/-! ### Operations on integers -/

/-- **An operation with an integral result** up to `2 ^ 53` gives that result. -/
theorem Operator.signedUnits?_apply {o : Operator} {x y : Binary64} {m n : Int}
    (hx : x.signedUnits? = some (m * perOne)) (hy : y.signedUnits? = some (n * perOne))
    (hexact : o = .over → n ≠ 0 ∧ n ∣ m) (hsize : (o.onIntegers m n).natAbs ≤ 2 ^ 53) :
    (o.apply x y).signedUnits? = some (o.onIntegers m n * perOne) := by
  have hrep := representable_integer hsize
  rw [← within_self_iff]
  cases o with
  | plus =>
    have hsum : (m + n) * (perOne : Int) = m * perOne + n * perOne := by ring
    exact within_add hx hy hrep hrep (Int.le_of_eq hsum) (Int.le_of_eq hsum.symm)
  | minus =>
    have hdifference : (m - n) * (perOne : Int) = m * perOne - n * perOne := by ring
    exact within_sub hx hy hrep hrep (Int.le_of_eq hdifference) (Int.le_of_eq hdifference.symm)
  | times =>
    have hproduct : m * n * perOne * perOne = m * perOne * (n * (perOne : Int)) := by ring
    exact within_mul hx hy hrep hrep (Int.le_of_eq hproduct) (Int.le_of_eq hproduct.symm)
  | _ =>
    -- A quotient without a remainder.
    obtain ⟨hn, c, rfl⟩ := hexact rfl
    have hone : (perOne : Int) ≠ 0 := by exact_mod_cast Nat.ne_of_gt perOne_pos
    have hc : Operator.over.onIntegers (n * c) n = c := Int.mul_ediv_cancel_left c hn
    rw [hc] at hrep ⊢
    have hquotient : c * perOne * ((n * (perOne : Int)).natAbs : Int) =
        n * c * perOne * (n * (perOne : Int)).sign * perOne := by
      rw [← Int.mul_sign_self]
      ring
    exact within_div hx hy (Int.mul_ne_zero hn hone) hrep hrep (Int.le_of_eq hquotient)
      (Int.le_of_eq hquotient.symm)

/-- **The value of an expression that stays integer** is its integer, by induction over the tree. -/
theorem Expression.value_of_staysInteger {x : Expression} (h : x.StaysInteger) :
    ∃ v, x.value = .ok v ∧ v.signedUnits? = some (x.integer * perOne) := by
  induction x with
  | literal text =>
    obtain ⟨hne, hdigits, hsize⟩ := h
    have hdenotes : Decimal.Denotes text.toList (Decimal.decimalValue text.toList []) :=
      .whole hdigits hne
    have hvalue : Decimal.decimalValue text.toList [] * (1 : Nat) =
        (Decimal.digitsValue text.toList : Int) := by
      rw [Decimal.decimalValue_nil, Nat.cast_one, mul_one, Int.cast_natCast]
    refine ⟨ofInt (Decimal.digitsValue text.toList), ?_, ?_⟩
    · unfold value Postfix.literalValue
      rw [Postfix.literalValue?_of_denotes hdenotes Nat.one_pos hvalue]
      rfl
    · exact signedUnits?_ofInt (by rw [Int.natAbs_natCast]; exact hsize)
  | operation o left right ihl ihr =>
    obtain ⟨hleft, hright, hexact, hsize⟩ := h
    obtain ⟨l, hl, hlunits⟩ := ihl hleft
    obtain ⟨r, hr, hrunits⟩ := ihr hright
    refine ⟨o.apply l r, ?_, Operator.signedUnits?_apply hlunits hrunits hexact hsize⟩
    simp only [value, hl, hr]

/-! ### Statements -/

/-- **Integer arithmetic is exact.**  A statement of the grammar whose expression stays integer has,
    with every precision, its integer as its value, and the canonical text of the integer is
    shown. -/
theorem calculate_integer (p : Precision) {s : String} {ls : List Lexeme} {x : Expression}
    (hs : Statement.Spells s ls) (hx : Expression.Derives .expr ls x) (h : x.StaysInteger) :
    ∃ v, (calculate p (some s)).outcome = .ok ⟨v, toString x.integer⟩ ∧
      v.signedUnits? = some (x.integer * perOne) ∧
      Decimal.Canonical (toString x.integer).toList x.integer := by
  obtain ⟨v, hv, hunits⟩ := Expression.value_of_staysInteger h
  exact ⟨v, calculate_of_derives hs hx hv (Display.format_of_integral hunits), hunits,
    Decimal.canonical_toString x.integer⟩

/-- A negative zero on the way is not seen in the answer. -/
theorem calculate_integer_zero :
    ∃ v, (calculate 4 (some "0*(0 - 5)")).outcome = .ok ⟨v, "0"⟩ ∧ v.signedUnits? = some 0 := by
  have hspells : Statement.Spells "0*(0 - 5)" [.literal "0", .operator .times, .opening,
      .literal "0", .operator .minus, .literal "5", .closing] := by
    unfold Statement.Spells
    decide
  have hproper (text : String) (hne : text.toList ≠ [])
      (hall : text.toList.all Statement.isLiteralChar = true) : (Lexeme.literal text).IsProper :=
    ⟨hne, List.all_eq_true.1 hall⟩
  have hzero : Expression.Derives .factor [.literal "0"] (.literal "0") :=
    .literal (hproper "0" (by decide) (by decide))
  have hfive : Expression.Derives .factor [.literal "5"] (.literal "5") :=
    .literal (hproper "5" (by decide) (by decide))
  have hdifference : Expression.Derives .expr [.literal "0", .operator .minus, .literal "5"]
      (.operation .minus (.literal "0") (.literal "5")) :=
    .sum (.inr rfl) (.term (.factor hzero)) (.factor hfive)
  have hinteger : Expression.StaysInteger
      (.operation .times (.literal "0") (.operation .minus (.literal "0") (.literal "5"))) := by
    decide
  have hvalue : Expression.integer (.operation .times (.literal "0")
      (.operation .minus (.literal "0") (.literal "5"))) = 0 := by decide
  obtain ⟨v, hanswer, hunits, _⟩ := calculate_integer 4 hspells
    (.term (.product (.inl rfl) (.factor hzero) (.bracket hdifference))) hinteger
  rw [hvalue] at hanswer
  rw [hvalue, Int.zero_mul] at hunits
  exact ⟨v, hanswer, hunits⟩

end Reckoner
