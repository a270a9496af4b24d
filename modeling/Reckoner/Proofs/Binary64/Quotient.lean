import Mathlib.Algebra.Order.Field.Rat
import Mathlib.Order.WithBot
import Reckoner.Binary64.Division
import Reckoner.Proofs.Binary64.Closest

namespace Reckoner.Binary64

/-!
# The quotient of the floating-point standard

What the standard asks of a quotient, without a word on how it is found: the exact quotient of the
magnitudes, infinite ones included, is rounded once, and the signs multiply.  Two zeros have no exact
quotient, nor have two infinities, nor has anything with the not-a-number.

* `Binary64.exactQuotient? x y`: the exact quotient of the magnitudes of `x` and `y`.
* `Binary64.Rounds s x`: `x` is the double nearest to the magnitude `s`.
* `Binary64.IsQuotient x y q`: `q` is the quotient that the standard asks for.
* `Binary64.isQuotient_iff`: there is one such quotient, and it is the one that is computed.
* `Binary64.div_neg_left`, `Binary64.div_neg_right`: an operand with the other sign.
* `Binary64.divide?_of_isZero`, `Binary64.divide?_eq`: the look at the divisor makes no difference
  but that nothing is refused.
-/

variable {x y q r : Binary64} {s : WithTop Rat} {u v : Nat}

/-! ### The standard -/

/-- The exact magnitude of a number; the not-a-number has none. -/
def size? : Binary64 → Option (WithTop Rat)
  | .nan => none
  | .infinity _ => some ⊤
  | .finite _ u _ => some (u / perOne : Rat)

/-- The exact quotient of the magnitudes of two numbers.  An infinite dividend stays infinite, an infinite divisor
    leaves nothing, and a zero divisor makes any other dividend infinite.  Two infinities have no
    quotient, nor have two zeros. -/
def exactQuotient? (x y : Binary64) : Option (WithTop Rat) :=
  match x.size?, y.size? with
  | none, _ | _, none => none
  | some ⊤, some ⊤ => none
  | some ⊤, some (_ : Rat) => some ⊤
  | some (_ : Rat), some ⊤ => some (0 : Rat)
  | some (a : Rat), some (b : Rat) =>
    if b = 0 then
      if a = 0 then none else some ⊤
    else some (a / b : Rat)

/-- The double nearest to an exact magnitude.  Nothing but an infinity is near to an infinite one. -/
inductive Rounds : WithTop Rat → Binary64 → Prop
  | number {a : Rat} {x : Binary64} (nearest : IsNearest a x) : Rounds a x
  | infinite : Rounds ⊤ (.infinity false)

/-- The quotient that the floating-point standard asks for, with one not-a-number for all: that of an
    invalid operation, and else the exact quotient, rounded, with the exclusive or of the signs. -/
inductive IsQuotient (x y : Binary64) : Binary64 → Prop
  | invalid (undefined : exactQuotient? x y = none) : IsQuotient x y .nan
  | rounded {s : WithTop Rat} {q : Binary64} (defined : exactQuotient? x y = some s)
      (nearest : Rounds s q) : IsQuotient x y (q.withSign (x.isNegative != y.isNegative))

/-! ### Rounded magnitudes -/

/-- An infinite magnitude is rounded to the infinity. -/
theorem rounds_top_iff : Rounds ⊤ r ↔ r = .infinity false := by
  constructor
  · rintro (_ | _)
    rfl
  · rintro rfl
    exact .infinite

/-- A quotient of units is rounded to the nearest double. -/
theorem rounds_iff {n d : Nat} (hd : 0 < d) :
    Rounds ((n / (d * perOne) : Rat) : WithTop Rat) r ↔ r = round false n d := by
  constructor
  · rintro (hnearest | _)
    exact hnearest.eq_round hd
  · intro h
    rw [h]
    exact .number (isNearest_round hd)

/-- The magnitude zero is rounded to zero. -/
theorem rounds_zero_iff : Rounds ((0 : Rat) : WithTop Rat) r ↔ r = zero false := by
  have hzero : round false 0 1 = zero false := by decide +kernel
  have hquotient : (0 : Rat) = (0 : Nat) / ((1 : Nat) * perOne) := by rw [Nat.cast_zero, zero_div]
  rw [hquotient, rounds_iff Nat.one_pos, hzero]

/-! ### The computed quotient -/

/-- The sign of a rounded quotient is put in front of its magnitude. -/
theorem withSign_round (negative negative' : Bool) (n d : Nat) :
    (round negative n d).withSign negative' = round negative' n d := by
  unfold round
  split <;> rfl

/-- The exact quotient of finite numbers. -/
theorem exactQuotient?_finite (a b : Bool) (hu : Representable u) (hv : Representable v) :
    exactQuotient? (.finite a u hu) (.finite b v hv) =
      if v = 0 then
        if u = 0 then none else some ⊤
      else some (((u * perOne : Nat) / (v * perOne) : Rat) : WithTop Rat) := by
  have hone : (perOne : Rat) ≠ 0 := ne_of_gt perOne_pos_rat
  have hzero (w : Nat) : (w : Rat) / perOne = 0 ↔ w = 0 := by
    rw [div_eq_zero_iff, Nat.cast_eq_zero, or_iff_left hone]
  have hquotient : (u : Rat) / perOne / (v / perOne) = (u * perOne : Nat) / (v * perOne) := by
    rw [Nat.cast_mul, mul_div_mul_right _ _ hone, div_div_div_cancel_right₀ hone]
  show (if (v : Rat) / perOne = 0 then _ else _) = _
  simp only [hzero, hquotient]

/-- An invalid operation has the not-a-number as its one quotient. -/
theorem isQuotient_of_none (h : exactQuotient? x y = none) : IsQuotient x y q ↔ q = .nan := by
  constructor
  · rintro (_ | ⟨defined, _⟩)
    · rfl
    · rw [h] at defined
      cases defined
  · rintro rfl
    exact .invalid h

/-- An exact quotient that is rounded to one double only leaves one quotient. -/
theorem isQuotient_of_some (h : exactQuotient? x y = some s) (hs : ∀ r', Rounds s r' ↔ r' = r) :
    IsQuotient x y q ↔ q = r.withSign (x.isNegative != y.isNegative) := by
  constructor
  · rintro (undefined | ⟨defined, nearest⟩)
    · rw [h] at undefined
      cases undefined
    · obtain rfl := Option.some.inj (h.symm.trans defined)
      rw [(hs _).1 nearest]
  · rintro rfl
    exact .rounded h ((hs r).2 rfl)

/-- **The computed quotient is the one of the standard.** -/
theorem isQuotient_iff : IsQuotient x y q ↔ q = div x y := by
  cases x with
  | nan => exact isQuotient_of_none rfl
  | infinity a =>
    cases y with
    | nan => exact isQuotient_of_none rfl
    | infinity b => exact isQuotient_of_none rfl
    | finite b v hv => exact isQuotient_of_some rfl fun _ => rounds_top_iff
  | finite a u hu =>
    cases y with
    | nan => exact isQuotient_of_none rfl
    | infinity b => exact isQuotient_of_some rfl fun _ => rounds_zero_iff
    | finite b v hv =>
      -- Here alone the magnitudes decide: invalid, infinite or rounded.
      have hexact := exactQuotient?_finite a b hu hv
      by_cases hv0 : v = 0
      · by_cases hu0 : u = 0
        · rw [if_pos hv0, if_pos hu0] at hexact
          simp only [div, if_pos hv0, if_pos hu0]
          exact isQuotient_of_none hexact
        · rw [if_pos hv0, if_neg hu0] at hexact
          simp only [div, if_pos hv0, if_neg hu0]
          exact isQuotient_of_some hexact fun _ => rounds_top_iff
      · rw [if_neg hv0] at hexact
        simp only [div, if_neg hv0]
        rw [isQuotient_of_some hexact fun _ => rounds_iff (Nat.pos_of_ne_zero hv0), withSign_round]
        rfl

/-! ### Operands with the other sign -/

/-- The sign is not part of the magnitude. -/
theorem size?_neg (x : Binary64) : x.neg.size? = x.size? := by
  cases x <;> rfl

/-- All but the not-a-number have a sign to change. -/
theorem isNegative_neg (h : x.size? ≠ none) : x.neg.isNegative = !x.isNegative := by
  cases x with
  | nan => exact absurd rfl h
  | infinity a => rfl
  | finite a u hu => rfl

/-- The other sign in front of a magnitude. -/
theorem neg_withSign (negative : Bool) (x : Binary64) :
    (x.withSign negative).neg = x.withSign (!negative) := by
  cases x <;> rfl

/-- Operands of an exact quotient are numbers. -/
theorem size?_ne_none (h : exactQuotient? x y = some s) : x.size? ≠ none ∧ y.size? ≠ none := by
  unfold exactQuotient? at h
  constructor
  · intro hx
    rw [hx] at h
    cases h
  · intro hy
    rw [hy] at h
    cases hx : x.size? with
    | none =>
      rw [hx] at h
      cases h
    | some a =>
      rw [hx] at h
      cases h

/-- The same magnitudes with the other sign have the same quotient with the other sign. -/
theorem IsQuotient.neg {x' y' : Binary64} (h : IsQuotient x y q) (hx : x'.size? = x.size?)
    (hy : y'.size? = y.size?)
    (hsign : x.size? ≠ none → y.size? ≠ none →
      (x'.isNegative != y'.isNegative) = !(x.isNegative != y.isNegative)) :
    IsQuotient x' y' q.neg := by
  have hexact : exactQuotient? x' y' = exactQuotient? x y := by
    unfold exactQuotient?
    rw [hx, hy]
  cases h with
  | invalid undefined => exact .invalid (hexact.trans undefined)
  | rounded defined nearest =>
    -- The not-a-number, whose sign does not change, is no operand here.
    obtain ⟨hx0, hy0⟩ := size?_ne_none defined
    rw [neg_withSign, ← hsign hx0 hy0]
    exact .rounded (hexact.trans defined) nearest

/-- **A dividend with the other sign** gives the quotient with the other sign. -/
theorem div_neg_left (x y : Binary64) : div x.neg y = (div x y).neg := by
  have hquotient : IsQuotient x y (div x y) := isQuotient_iff.2 rfl
  refine (isQuotient_iff.1 (hquotient.neg (size?_neg x) rfl ?_)).symm
  intro hx _
  rw [isNegative_neg hx, Bool.not_bne]

/-- **A divisor with the other sign** gives the quotient with the other sign. -/
theorem div_neg_right (x y : Binary64) : div x y.neg = (div x y).neg := by
  have hquotient : IsQuotient x y (div x y) := isQuotient_iff.2 rfl
  refine (isQuotient_iff.1 (hquotient.neg rfl (size?_neg y) ?_)).symm
  intro _ hy
  rw [isNegative_neg hy, Bool.bne_not]

/-! ### The look at the divisor -/

/-- There is one not-a-number. -/
theorem isNaN_iff : x.isNaN = true ↔ x = .nan := by
  cases x <;> simp [isNaN]

/-- The quotient by a zero. -/
theorem div_of_isZero (hy : y.isZero = true) :
    div x y = if x.isZero = true ∨ x = .nan then .nan
      else .infinity (x.isNegative != y.isNegative) := by
  cases y with
  | nan => cases hy
  | infinity b => cases hy
  | finite b v hv =>
    obtain rfl : v = 0 := by simpa [isZero] using hy
    cases x with
    | nan => rfl
    | infinity a => rfl
    | finite a u hu => simp [div, isZero, isNegative]

/-- An infinity times one, with a sign each. -/
theorem infinity_mul_one (negative negative' : Bool) :
    mul (.infinity negative) (withSign negative' (ofInt 1)) = .infinity (negative != negative') := by
  rw [ofInt_one]
  show (if perOne = 0 then nan else infinity (negative != negative')) = _
  rw [if_neg (Nat.ne_of_gt perOne_pos)]

/-- **What is put together by hand** for a zero divisor is the quotient by it. -/
theorem divide?_of_isZero (hy : y.isZero = true) : divide? x y = some (div x y) := by
  unfold divide?
  rw [if_pos hy, div_of_isZero hy]
  by_cases hx : x.isZero = true ∨ x = .nan
  · have hinvalid : (x.isZero || x.isNaN) = true := by rwa [Bool.or_eq_true, isNaN_iff]
    rw [if_pos hinvalid, if_pos hx]
  · have hvalid : ¬ (x.isZero || x.isNaN) = true := by rwa [Bool.or_eq_true, isNaN_iff]
    rw [if_neg hvalid, if_neg hx]
    show some (mul (infinity x.isNegative) (withSign y.isNegative (ofInt 1))) = _
    rw [infinity_mul_one]

/-- Any other divisor is left to the plain division, which does not refuse it. -/
theorem divide?_of_not_isZero (hy : y.isZero = false) :
    divide? x y = quotient? x y ∧ quotient? x y = some (div x y) := by
  unfold divide? quotient?
  rw [hy]
  exact ⟨rfl, rfl⟩

/-- **The look at the divisor** makes no difference but that nothing is refused. -/
theorem divide?_eq (x y : Binary64) : divide? x y = some (div x y) := by
  cases hy : y.isZero with
  | true => exact divide?_of_isZero hy
  | false =>
    obtain ⟨hplain, hquotient⟩ := divide?_of_not_isZero (x := x) hy
    exact hplain.trans hquotient

end Reckoner.Binary64
