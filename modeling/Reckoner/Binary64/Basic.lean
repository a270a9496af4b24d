import Reckoner.Rounding

namespace Reckoner

/-!
# Binary64 numbers

The double-precision format as a type of its own.  Every finite number of the format is an
integral multiple of the least positive one, `2 ^ -1074`, so a magnitude is kept as that multiple:
a natural number of *units*.  Sums, products and quotients are then exact integer arithmetic
followed by one rounding, and two numbers are equal exactly when they have the same sign and the
same units.

Main definitions:
* `Binary64.perOne`: how many units make one
* `Binary64.Representable u`: `u` units are a number of the format
* `Binary64`: a number of the format, or an infinity, or the one not-a-number
* `Binary64.onGrid n d`: the quotient `n / d` of units, rounded to 53 significant bits
* `Binary64.round negative n d`: the number nearest to a signed quotient of units

Main statements: `Binary64.onGrid_dvd` (what `onGrid` gives has at most 53 significant bits) and
`Binary64.onGrid_representable`.
-/

namespace Binary64

/-- The number of units of `2 ^ -1074` that make one. -/
def perOne : Nat := 2 ^ (1074 : Nat)

/-- The magnitudes from here on, `2 ^ 1024` and above, are beyond the format. -/
def limit : Nat := 2 ^ (2098 : Nat)

/-- The exponent of the spacing of the format at `u` units: the numbers below `2 ^ 53` units lie
    one unit apart, and the spacing doubles with each further bit. -/
def spacing (u : Nat) : Nat := u.log2 - 52

/-- The magnitude of `u` units is a number of the format: below the limit, and a multiple of the
    spacing at its own size, which leaves 53 significant bits. -/
def Representable (u : Nat) : Prop := u < limit ∧ 2 ^ spacing u ∣ u

instance (u : Nat) : Decidable (Representable u) :=
  inferInstanceAs (Decidable (_ ∧ _))

end Binary64

/-- A double-precision number.  The sign of a zero counts, and there is one not-a-number. -/
inductive Binary64 where
  | nan
  | infinity (negative : Bool)
  | finite (negative : Bool) (units : Nat) (representable : Binary64.Representable units)
  deriving DecidableEq

namespace Binary64

/-! ### Rounding -/

/-- The quotient `n / d` of units, rounded to the nearest multiple of the spacing at its size. -/
def onGrid (n d : Nat) : Nat :=
  let step := 2 ^ spacing (n / d)
  nearestEven n (d * step) * step

/-- Powers of two divide along their exponents. -/
theorem two_pow_dvd_mul {a b : Nat} (m : Nat) (h : a ≤ b) : 2 ^ a ∣ m * 2 ^ b :=
  Nat.dvd_trans (Nat.pow_dvd_pow 2 h) (Nat.dvd_mul_left _ _)

/-- A number below `2 ^ 53` on a grid of spacing `2 ^ k` keeps that spacing. -/
theorem spacing_mul_le {m k : Nat} (h : m < 2 ^ (53 : Nat)) : spacing (m * 2 ^ k) ≤ k := by
  rcases Nat.eq_zero_or_pos m with hm | hm
  · simp [hm, spacing]
  · have hpos : m * 2 ^ k ≠ 0 := Nat.ne_of_gt (Nat.mul_pos hm (Nat.two_pow_pos k))
    have hlt : m * 2 ^ k < 2 ^ (53 + k) := by
      rw [Nat.pow_add]
      exact Nat.mul_lt_mul_of_pos_right h (Nat.two_pow_pos k)
    have := (Nat.log2_lt hpos).2 hlt
    simp only [spacing]
    omega

/-- Up to `2 ^ 53` steps of a grid of spacing `2 ^ k` are on the grid at their own size. -/
theorem two_pow_spacing_dvd {m : Nat} (k : Nat) (h : m ≤ 2 ^ (53 : Nat)) :
    2 ^ spacing (m * 2 ^ k) ∣ m * 2 ^ k := by
  rcases Nat.lt_or_eq_of_le h with hlt | heq
  · exact two_pow_dvd_mul m (spacing_mul_le hlt)
  · -- The carry to the next binade: the result is a power of two.
    subst heq
    rw [← Nat.pow_add]
    apply Nat.pow_dvd_pow
    simp only [spacing, Nat.log2_two_pow]
    omega

/-- The steps of the grid at the size of a quotient that fit below the quotient. -/
theorem div_mul_two_pow_spacing_lt (n d : Nat) :
    n / (d * 2 ^ spacing (n / d)) < 2 ^ (53 : Nat) := by
  rw [← Nat.div_div_eq_div_mul]
  apply Nat.div_lt_of_lt_mul
  rw [← Nat.pow_add]
  rcases Nat.eq_zero_or_pos (n / d) with hq | hq
  · rw [hq]; exact Nat.two_pow_pos _
  · apply (Nat.log2_lt (Nat.ne_of_gt hq)).1
    simp only [spacing]
    omega

/-- Rounding leaves at most 53 significant bits. -/
theorem onGrid_dvd (n d : Nat) : 2 ^ spacing (onGrid n d) ∣ onGrid n d := by
  have hfloor : n / (d * 2 ^ spacing (n / d)) < 2 ^ (53 : Nat) := div_mul_two_pow_spacing_lt n d
  simp only [onGrid]
  exact two_pow_spacing_dvd _ (nearestEven_le hfloor)

/-- Below the limit, rounding gives a magnitude of the format. -/
theorem onGrid_representable {n d : Nat} (h : onGrid n d < limit) : Representable (onGrid n d) :=
  ⟨h, onGrid_dvd n d⟩

/-- The double nearest to the quotient `n / d` of units with the given sign: ties go to the even
    neighbour, and a magnitude that would round to `2 ^ 1024` or more is an infinity. -/
def round (negative : Bool) (n d : Nat) : Binary64 :=
  if h : onGrid n d < limit then .finite negative (onGrid n d) (onGrid_representable h)
  else .infinity negative

/-! ### Constants and parts -/

/-- The format has room: its limit is positive. -/
theorem limit_pos : 0 < limit := by simp only [limit, Nat.two_pow_pos]

/-- Zero units are a magnitude of the format. -/
theorem representable_zero : Representable 0 := ⟨limit_pos, Nat.dvd_zero _⟩

/-- The zero of the given sign. -/
def zero (negative : Bool) : Binary64 := .finite negative 0 representable_zero

/-- Neither an infinity nor the not-a-number. -/
def isFinite : Binary64 → Bool
  | .finite .. => true
  | _ => false

/-- A number of units with a sign. -/
def signed (negative : Bool) (units : Nat) : Int := if negative then -(units : Int) else units

/-- The signed number of units of a finite number, the same for both zeros; none for the others. -/
def signedUnits? : Binary64 → Option Int
  | .finite negative units _ => some (signed negative units)
  | _ => none

/-- The double nearest to the quotient `n / d` of an integer and a positive integer.  A zero
    quotient is the positive zero. -/
def ofRatio (n : Int) (d : Nat) : Binary64 := round (n < 0) (n.natAbs * perOne) d

/-- The double nearest to an integer. -/
def ofInt (n : Int) : Binary64 := ofRatio n 1

end Binary64

end Reckoner
