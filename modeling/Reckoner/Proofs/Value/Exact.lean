import Mathlib.Algebra.Order.Field.Rat
import Mathlib.Order.WithBot
import Reckoner.Proofs.Binary64.Error
import Reckoner.Value.Order

namespace Reckoner.Value

/-!
# Numbers are ordered by their exact values

Truth values, integers and doubles are compared with each other without any rounding: the order is
that of the rational numbers that they stand for, with the two infinities at its ends.

* `IsNumber v`: a truth value, an integer, or a double that is a number.
* `exactValue v`: the rational number or infinity that a number stands for.
* `less?_of_isNumber`: the order of numbers is that of their exact values.
-/

/-- A truth value, an integer of any size, or a double other than the not-a-number. -/
def IsNumber : Value → Prop
  | .bool _ => True
  | .integer _ => True
  | .real x => x ≠ .nan
  | _ => False

instance : DecidablePred IsNumber
  | .bool _ => isTrue trivial
  | .integer _ => isTrue trivial
  | .real x => inferInstanceAs (Decidable (x ≠ .nan))
  | .null => isFalse id
  | .text _ => isFalse id
  | .list _ => isFalse id
  | .record _ => isFalse id

/-- What is above and below all rational numbers. -/
def infinite (negative : Bool) : WithBot (WithTop Rat) := if negative then ⊥ else ⊤

/-- The rational number or infinity that a number stands for; zero for what is no number. -/
def exactValue : Value → WithBot (WithTop Rat)
  | .bool b => ((if b then 1 else 0 : Rat) : WithTop Rat)
  | .integer n => ((n : Rat) : WithTop Rat)
  | .real (.finite negative units _) =>
    ((Binary64.signed negative units / Binary64.perOne : Rat) : WithTop Rat)
  | .real (.infinity negative) => infinite negative
  | _ => ((0 : Rat) : WithTop Rat)

/-- The rational number or infinity of a scalar. -/
def Scalar.value : Scalar → WithBot (WithTop Rat)
  | .exact units => ((units / Binary64.perOne : Rat) : WithTop Rat)
  | .infinity negative => infinite negative
  | .nan => ((0 : Rat) : WithTop Rat)

/-- Rational numbers are below the upper infinity. -/
theorem coe_lt_infinite (q : Rat) : ((q : WithTop Rat) : WithBot (WithTop Rat)) < infinite false :=
  WithBot.coe_lt_coe.2 (WithTop.coe_lt_top q)

/-- The order of scalars is that of their values. -/
theorem Scalar.less_eq {x y : Scalar} (hx : x ≠ .nan) (hy : y ≠ .nan) :
    x.less y = decide (x.value < y.value) := by
  cases x with
  | nan => exact absurd rfl hx
  | infinity a =>
    cases y with
    | nan => exact absurd rfl hy
    | infinity b => cases a <;> cases b <;> rfl
    | exact v =>
      cases a with
      | false => exact (decide_eq_false (not_lt_of_gt (coe_lt_infinite _))).symm
      | true => exact (decide_eq_true (WithBot.bot_lt_coe _)).symm
  | exact u =>
    cases y with
    | nan => exact absurd rfl hy
    | infinity b =>
      cases b with
      | false => exact (decide_eq_true (coe_lt_infinite _)).symm
      | true => exact (decide_eq_false not_lt_bot).symm
    | exact v =>
      have hone := Binary64.perOne_pos_rat
      simp only [less, value, WithBot.coe_lt_coe, WithTop.coe_lt_coe,
        div_lt_div_iff_of_pos_right hone, Int.cast_lt]

/-- The value of the scalar of an integer. -/
theorem Scalar.value_ofInt (n : Int) : (ofInt n).value = ((n : Rat) : WithTop Rat) := by
  have hone := Binary64.perOne_pos_rat.ne'
  have hquotient : ((n * (Binary64.perOne : Int) : Int) : Rat) / Binary64.perOne = n := by
    rw [Int.cast_mul, Int.cast_natCast, mul_div_cancel_right₀ _ hone]
  exact congrArg (fun q : Rat => ((q : WithTop Rat) : WithBot (WithTop Rat))) hquotient

/-- A number has a scalar of its exact value. -/
theorem exists_scalar {v : Value} (h : v.IsNumber) :
    ∃ x, scalar? v = some x ∧ x ≠ .nan ∧ x.value = v.exactValue := by
  cases v with
  | bool b =>
    refine ⟨_, rfl, nofun, ?_⟩
    rw [Scalar.value_ofInt]
    cases b <;> rfl
  | integer n => exact ⟨_, rfl, nofun, Scalar.value_ofInt n⟩
  | real x =>
    cases x with
    | nan => exact absurd rfl h
    | infinity negative => exact ⟨.infinity negative, rfl, nofun, rfl⟩
    | finite negative units _ => exact ⟨.exact _, rfl, nofun, rfl⟩
  | null => cases h
  | text s => cases h
  | list items => cases h
  | record fields => cases h

/-- Values that have scalars are compared by these. -/
theorem less?_of_scalar? {a b : Value} {x y : Scalar} (ha : scalar? a = some x)
    (hb : scalar? b = some y) : less? a b = some (x.less y) := by
  cases a <;> cases ha <;> cases b <;> cases hb <;> rfl

/-- **The order of numbers is that of their exact values.** -/
theorem less?_of_isNumber (a b : Value) (ha : a.IsNumber) (hb : b.IsNumber) :
    less? a b = some (decide (a.exactValue < b.exactValue)) := by
  obtain ⟨x, hx, hxnan, hxvalue⟩ := exists_scalar ha
  obtain ⟨y, hy, hynan, hyvalue⟩ := exists_scalar hb
  rw [less?_of_scalar? hx hy, Scalar.less_eq hxnan hynan, hxvalue, hyvalue]

end Reckoner.Value
