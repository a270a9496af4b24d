import Mathlib.Algebra.Group.Nat.Even
import Mathlib.Data.Nat.Sqrt
import Mathlib.Tactic.Ring
import Reckoner.Pyramid

namespace Reckoner.Pyramid

/-!
# The height of a pyramid

A pyramid of height `h` has as many elements as the numbers from one to `h` have together.  The height
is found from the square root of eight times that number and one, which is `2 * h + 1`.

* `triangular h`: the number of elements of a pyramid of height `h`.
* `squareRoot_eq`: the square root bit by bit is the integer square root.
* `height?_eq_some_iff`: the height of a number of elements.
* `heightOrMinusOne_natCast`: an integer that is not negative has its height, or minus one.
* `heightOrMinusOne_decides`: which integers are triangular.
-/

/-! ### The number of elements -/

/-- The number of elements of a pyramid. -/
def triangular (h : Nat) : Nat := h * (h + 1) / 2

/-- Without rounding. -/
theorem two_mul_triangular (h : Nat) : 2 * triangular h = h * (h + 1) :=
  Nat.mul_div_cancel' (Nat.even_mul_succ_self h).two_dvd

/-- Each further row has one element more. -/
theorem triangular_succ (h : Nat) : triangular (h + 1) = triangular h + (h + 1) := by
  have hnext := two_mul_triangular (h + 1)
  have hprevious := two_mul_triangular h
  have hproduct : (h + 1) * (h + 1 + 1) = h * (h + 1) + 2 * (h + 1) := by ring
  omega

/-- There are more elements in higher pyramids. -/
theorem triangular_mono {g h : Nat} (hle : g ≤ h) : triangular g ≤ triangular h :=
  Nat.div_le_div_right (Nat.mul_le_mul hle (Nat.succ_le_succ hle))

/-- A pyramid has room for each of its rows behind the ones before. -/
theorem triangular_add_le {r h : Nat} (hr : r < h) : triangular r + (r + 1) ≤ triangular h := by
  rw [← triangular_succ]
  exact triangular_mono hr

/-! ### The square root -/

/-- Each bit halves the room above the root. -/
theorem refineRoot_bounds {n root bits : Nat} (hlower : root * root ≤ n)
    (hupper : n < (root + 2 ^ bits) * (root + 2 ^ bits)) :
    refineRoot n root bits * refineRoot n root bits ≤ n ∧
      n < (refineRoot n root bits + 1) * (refineRoot n root bits + 1) := by
  induction bits generalizing root with
  | zero => exact ⟨hlower, hupper⟩
  | succ bits ih =>
    have hroom : root + 2 ^ (bits + 1) = root + 2 ^ bits + 2 ^ bits := by
      rw [Nat.pow_succ]
      omega
    rw [hroom] at hupper
    rw [refineRoot]
    by_cases hfits : (root + 2 ^ bits) * (root + 2 ^ bits) ≤ n
    · rw [if_pos hfits]
      exact ih hfits hupper
    · rw [if_neg hfits]
      exact ih hlower (Nat.lt_of_not_le hfits)

/-- **The square root bit by bit** is the integer square root. -/
theorem squareRoot_eq (n : Nat) : squareRoot n = Nat.sqrt n := by
  have hupper : n < (0 + 2 ^ (n.log2 / 2 + 1)) * (0 + 2 ^ (n.log2 / 2 + 1)) := by
    rw [Nat.zero_add, ← Nat.pow_add]
    calc n < 2 ^ (n.log2 + 1) := Nat.lt_log2_self
      _ ≤ 2 ^ (n.log2 / 2 + 1 + (n.log2 / 2 + 1)) := Nat.pow_le_pow_right (by decide) (by omega)
  exact Nat.eq_sqrt.2 (refineRoot_bounds (Nat.zero_le n) hupper)

/-! ### The height -/

/-- Eight times the number of elements and one is a square. -/
theorem eight_mul_triangular (h : Nat) : 8 * triangular h + 1 = (2 * h + 1) * (2 * h + 1) := by
  have htwice := two_mul_triangular h
  have hsquare : (2 * h + 1) * (2 * h + 1) = 4 * (h * (h + 1)) + 1 := by ring
  omega

/-- **The height of a number of elements** is the one of the pyramid that has so many. -/
theorem height?_eq_some_iff {count h : Nat} : height? count = some h ↔ triangular h = count := by
  rw [height?, squareRoot_eq]
  constructor
  · intro hheight
    by_cases hsquare : (8 * count + 1).sqrt * (8 * count + 1).sqrt = 8 * count + 1
    · rw [if_pos hsquare] at hheight
      -- The square is odd, and so is its root.
      obtain ⟨g, hg⟩ : ∃ g, (8 * count + 1).sqrt = 2 * g + 1 := by
        rcases Nat.even_or_odd' (8 * count + 1).sqrt with ⟨g, hg | hg⟩
        · have hproduct : 2 * g * (2 * g) = 4 * (g * g) := by ring
          rw [hg, hproduct] at hsquare
          omega
        · exact ⟨g, hg⟩
      rw [hg, ← eight_mul_triangular] at hsquare
      have hroot : g = h := by
        rw [hg] at hheight
        have hhalf := Option.some.inj hheight
        omega
      rw [← hroot]
      omega
    · rw [if_neg hsquare] at hheight
      cases hheight
  · rintro rfl
    have hroot : (8 * triangular h + 1).sqrt = 2 * h + 1 := by
      rw [eight_mul_triangular, Nat.sqrt_eq]
    rw [hroot, if_pos (eight_mul_triangular h).symm]
    congr 1
    omega

/-! ### Any integer -/

/-- No two heights have the same number of elements. -/
theorem triangular_injective : Function.Injective triangular := by
  intro g h heq
  exact Option.some.inj ((height?_eq_some_iff.2 heq).symm.trans (height?_eq_some_iff.2 rfl))

/-- A count that is not negative has its height, or minus one. -/
theorem heightOrMinusOne_natCast (count : Nat) :
    heightOrMinusOne count = .ok ((height? count).elim (-1) fun h => (h : Int)) := by
  have hnonneg : ¬ 8 * (count : Int) + 1 < 0 := by omega
  have htoNat : (8 * (count : Int) + 1).toNat = 8 * count + 1 := by omega
  have hsquare (root : Nat) :
      (root : Int) * root = 8 * count + 1 ↔ root * root = 8 * count + 1 := by
    norm_cast
  simp only [heightOrMinusOne, integerRoot, height?, if_neg hnonneg, htoNat, hsquare]
  by_cases h : squareRoot (8 * count + 1) * squareRoot (8 * count + 1) = 8 * count + 1
  · -- The root of a positive number is positive, so one can be taken away on either side.
    have hpos : 1 ≤ squareRoot (8 * count + 1) := by
      by_contra hzero
      rw [Nat.lt_one_iff.1 (Nat.lt_of_not_le hzero)] at h
      omega
    rw [if_pos h, if_pos h, Option.elim_some, Int.natCast_ediv, Nat.cast_sub hpos]
    rfl
  · rw [if_neg h, if_neg h, Option.elim_none]

/-- What is refused are the negative integers: eight times such a one is below minus one. -/
theorem heightOrMinusOne_eq_error_iff {count : Int} :
    heightOrMinusOne count = .error .negative ↔ count < 0 := by
  simp only [heightOrMinusOne, integerRoot]
  by_cases hdiscriminant : 8 * count + 1 < 0
  · rw [if_pos hdiscriminant]
    exact ⟨fun _ => by omega, fun _ => rfl⟩
  · rw [if_neg hdiscriminant]
    exact ⟨nofun, fun hneg => by omega⟩

/-- The height of an integer is the one of the pyramid that has so many elements. -/
theorem heightOrMinusOne_eq_ok_iff {count : Int} {h : Nat} :
    heightOrMinusOne count = .ok (h : Int) ↔ (triangular h : Int) = count := by
  rcases Int.lt_or_le count 0 with hneg | hnonneg
  · rw [heightOrMinusOne_eq_error_iff.2 hneg]
    exact ⟨nofun, fun heq => by omega⟩
  · obtain ⟨n, rfl⟩ := Int.eq_ofNat_of_zero_le hnonneg
    rw [heightOrMinusOne_natCast, Except.ok.injEq, Nat.cast_inj, ← height?_eq_some_iff]
    cases height? n with
    | none => simp
    | some g => simp

/-- Minus one is said of all other integers. -/
theorem heightOrMinusOne_eq_minusOne_iff {count : Int} :
    heightOrMinusOne count = .ok (-1) ↔
      0 ≤ count ∧ ¬ ∃ h : Nat, (triangular h : Int) = count := by
  rcases Int.lt_or_le count 0 with hneg | hnonneg
  · rw [heightOrMinusOne_eq_error_iff.2 hneg]
    exact ⟨nofun, fun ⟨hnonneg, _⟩ => by omega⟩
  · simp only [← heightOrMinusOne_eq_ok_iff]
    obtain ⟨n, rfl⟩ := Int.eq_ofNat_of_zero_le hnonneg
    rw [heightOrMinusOne_natCast]
    cases height? n with
    | none => simp
    | some g => simp

/-- **Which integers are triangular** is decided for all of them: the height is the one whose pyramid
    has so many elements, minus one says that there is no such height, and what is refused are the
    negative integers.  There is no second height, and a height is found again from its number of
    elements. -/
theorem heightOrMinusOne_decides (count : Int) :
    (∀ h : Nat, heightOrMinusOne count = .ok (h : Int) ↔ (triangular h : Int) = count) ∧
    (heightOrMinusOne count = .ok (-1) ↔
      0 ≤ count ∧ ¬ ∃ h : Nat, (triangular h : Int) = count) ∧
    (heightOrMinusOne count = .error .negative ↔ count < 0) ∧
    Function.Injective triangular ∧
    ∀ h : Nat, heightOrMinusOne (triangular h) = .ok (h : Int) :=
  ⟨fun _ => heightOrMinusOne_eq_ok_iff, heightOrMinusOne_eq_minusOne_iff,
    heightOrMinusOne_eq_error_iff, triangular_injective,
    fun _ => heightOrMinusOne_eq_ok_iff.2 rfl⟩

end Reckoner.Pyramid
