import Mathlib.Algebra.Order.Field.Rat
import Mathlib.Data.Rat.Floor
import Mathlib.Tactic.Linarith
import Reckoner.Proofs.Binary64.Arithmetic

namespace Reckoner.Binary64

/-!
# Doubles as rational numbers

Where the exact result is a whole number of units, as a sum and a product with an integer are, its
rounding has a relative error of at most `2 ^ -53` at any size, subnormal numbers included.

* `value? x`: the number that a finite double stands for.
* `value?_half`, `floor?_of_value?`: one half and the floor.
* `error_add`, `error_mul`: the error of a sum and of a product with an integer.
-/

/-- The number that a finite double stands for. -/
def value? (x : Binary64) : Option Rat := x.signedUnits?.map fun m : Int => (m : Rat) / perOne

variable {x y : Binary64} {m n : Int} {a b c q : Rat}

/-- One is not nothing, as a rational number. -/
theorem perOne_pos_rat : (0 : Rat) < perOne := by exact_mod_cast perOne_pos

/-- A number and its units. -/
theorem value?_eq_some_iff :
    x.value? = some q ↔ ∃ m, x.signedUnits? = some m ∧ (m : Rat) / perOne = q := by
  simp only [value?, Option.map_eq_some_iff]

/-- The number of some units. -/
theorem value?_of_signedUnits? (hx : x.signedUnits? = some m) :
    x.value? = some ((m : Rat) / perOne) := value?_eq_some_iff.2 ⟨m, hx, rfl⟩

/-- One half. -/
theorem value?_half : half.value? = some (1 / 2) := by
  obtain ⟨h, hone, hh⟩ := signedUnits?_half
  have hpos : (h : Rat) ≠ 0 := by
    have hone' := perOne_pos
    exact_mod_cast (by omega : h ≠ 0)
  rw [value?_of_signedUnits? hh, hone]
  push_cast
  rw [mul_comm, div_mul_cancel_left₀ hpos, one_div]

/-- The floor of a finite double is that of its number. -/
theorem floor?_of_value? (hx : x.value? = some q) : x.floor? = some ⌊q⌋ := by
  obtain ⟨m, hm, rfl⟩ := value?_eq_some_iff.1 hx
  rw [floor?_of_signedUnits? hm, Rat.floor_intCast_div_natCast]

/-! ### Errors -/

/-- The error of a rounded number of units, as a part of one. -/
theorem error_roundedUnits (z : Int) {d : Nat} (hd : 0 < d) :
    2 ^ 53 * |((roundedUnits (z * d) d : Int) : Rat) / perOne - z / perOne| ≤
      |(z : Rat) / perOne| := by
  have hunits : 2 ^ 53 * |roundedUnits (z * d) d - z| ≤ |z| := by
    rw [Int.abs_eq_natAbs, Int.abs_eq_natAbs]
    exact_mod_cast roundedUnits_error z hd
  have hrat : 2 ^ 53 * |((roundedUnits (z * d) d : Int) : Rat) - z| ≤ |(z : Rat)| := by
    exact_mod_cast hunits
  rw [← sub_div, abs_div, abs_div, ← mul_div_assoc]
  exact div_le_div_of_nonneg_right hrat (abs_nonneg _)

/-- **The error of a sum.** -/
theorem error_add (hx : x.value? = some a) (hy : y.value? = some b)
    (hsum : (add x y).value? = some c) : 2 ^ 53 * |c - (a + b)| ≤ |a + b| := by
  obtain ⟨m, hm, rfl⟩ := value?_eq_some_iff.1 hx
  obtain ⟨n, hn, rfl⟩ := value?_eq_some_iff.1 hy
  obtain ⟨w, hw, rfl⟩ := value?_eq_some_iff.1 hsum
  have herror := error_roundedUnits (m + n) Nat.one_pos
  rw [Nat.cast_one, Int.mul_one, ← units_add hm hn hw] at herror
  rw [← add_div, ← Int.cast_add]
  exact herror

/-- **The error of a product with an integer.** -/
theorem error_mul (hx : x.value? = some a) (hy : y.signedUnits? = some (n * perOne))
    (hproduct : (mul x y).value? = some c) : 2 ^ 53 * |c - a * n| ≤ |a * n| := by
  obtain ⟨m, hm, rfl⟩ := value?_eq_some_iff.1 hx
  obtain ⟨w, hw, rfl⟩ := value?_eq_some_iff.1 hproduct
  have herror := error_roundedUnits (m * n) perOne_pos
  rw [Int.mul_assoc, ← units_mul hm hy hw] at herror
  rw [div_mul_eq_mul_div, ← Int.cast_mul]
  exact herror

end Reckoner.Binary64
