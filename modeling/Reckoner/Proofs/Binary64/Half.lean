import Reckoner.Proofs.Binary64.Error

namespace Reckoner.Binary64

/-!
# One half added on the way to the floor

Of a double at most one half away from an integer `e` the floor of its sum with one half is `e`, as
it should be below `e + 1 / 2`, with one exception.  Away from zero the sum is exact where it
matters: below a negative tie it is smaller than the double, and below a positive one the double has
a grid that reaches to the next integer.  Only next to zero the sum needs a coarser grid than the
double, and there the greatest double below one half is taken to one.

* `floor?_of_tie`, `floor?_of_neg`, `floor?_of_zero`, `floor?_of_pos`: the cases.
* `floor?_add_half`: the floor of the sum.
-/

variable {y : Binary64} {w e : Int} {h : Nat}

/-! ### The number below one half -/

/-- The greatest double below one half. -/
def belowHalf : Binary64 := finite false ((2 ^ 53 - 1) * 2 ^ (1020 : Nat)) (by decide +kernel)

/-- With one half it adds up to one: the exact sum lies halfway between two doubles, and one is the
    even one. -/
theorem floor?_belowHalf_add_half : (belowHalf.add half).floor? = some 1 := by decide +kernel

/-- The double below one half, in units. -/
theorem eq_belowHalf_iff (hy : y.signedUnits? = some w) :
    y = belowHalf ↔ 2 ^ 54 * w = (2 ^ 53 - 1) * perOne := by
  constructor
  · rintro rfl
    obtain rfl := Option.some.inj hy
    decide +kernel
  · intro hw
    obtain ⟨k, hk⟩ : ∃ k, 54 + k = 1074 := ⟨1020, rfl⟩
    have hgrid : perOne = 2 ^ 54 * 2 ^ k := perOne_eq_mul hk
    have hpos : 0 < 2 ^ k := Nat.two_pow_pos k
    obtain ⟨negative, u, hu, rfl, rfl⟩ := exists_finite_of_signedUnits? hy
    cases negative with
    | true =>
      simp only [signed, if_true] at hw
      omega
    | false =>
      simp only [signed, Bool.false_eq_true, if_false] at hw
      obtain rfl : u = (2 ^ 53 - 1) * 2 ^ k := by omega
      obtain rfl : k = 1020 := by omega
      rfl

/-- The number of the double below one half. -/
theorem value?_belowHalf : belowHalf.value? = some (1 / 2 - 1 / 2 ^ 54) := by
  obtain ⟨w, hw⟩ : ∃ w, belowHalf.signedUnits? = some w := ⟨_, rfl⟩
  have hunits : (2 ^ 54 * w : Rat) = (2 ^ 53 - 1) * perOne := by
    exact_mod_cast (eq_belowHalf_iff hw).1 rfl
  rw [value?_of_signedUnits? hw, Option.some_inj, div_eq_iff perOne_pos_rat.ne']
  linarith

/-! ### The cases -/

/-- Multiples of one half, in units. -/
theorem representable_half (hone : perOne = 2 * h) {c : Int} (hc : c.natAbs ≤ 2 ^ 53) :
    Representable (c * (h : Int)).natAbs := by
  obtain ⟨q, -, hq, hrep⟩ := exists_part (j := 1) (by decide)
  have hh : h = q := by omega
  rw [hh]
  exact hrep c hc

/-- One half added to a number below `2 ^ 52` is exact if the sum needs no coarser grid. -/
theorem add_half_exact (hone : perOne = 2 * h) (hh : half.signedUnits? = some (h : Int))
    (hy : y.signedUnits? = some w) (hsmall : w.natAbs < 2 ^ (52 : Nat) * perOne)
    (hfit : (w + h).natAbs ≤ 2 ^ (53 + spacing w.natAbs)) :
    (y.add half).signedUnits? = some (w + h) := by
  obtain ⟨k, hk⟩ : ∃ k, k + 1 = 1074 := ⟨1073, rfl⟩
  have hpow : h = 2 ^ k := by
    have hsplit := perOne_eq_mul hk
    omega
  have hspacing : spacing w.natAbs ≤ k := by
    obtain ⟨j, hj⟩ : ∃ j, 52 + 1074 = j := ⟨_, rfl⟩
    rw [two_pow_mul_perOne hj] at hsmall
    rcases Nat.eq_zero_or_pos w.natAbs with hzero | hpos
    · rw [hzero]
      exact Nat.zero_le k
    · have hlog : w.natAbs.log2 < j := (Nat.log2_lt (Nat.ne_of_gt hpos)).2 hsmall
      unfold spacing
      omega
  have hgrid : 2 ^ spacing w.natAbs ∣ w.natAbs := by
    obtain ⟨negative, u, hu, -, rfl⟩ := exists_finite_of_signedUnits? hy
    rw [natAbs_signed]
    exact hu.2
  apply signedUnits?_add hy hh hgrid _ (by omega) hfit
  rw [Int.natAbs_natCast, hpow]
  exact Nat.pow_dvd_pow 2 hspacing

/-- The floor of an exact sum. -/
theorem floor?_of_exact (hone : perOne = 2 * h) (hsum : (y.add half).signedUnits? = some (w + h))
    (hlower : (2 * e - 1) * perOne ≤ 2 * w) (hupper : 2 * w < (2 * e + 1) * perOne) :
    (y.add half).floor? = some e := by
  have hlow : (2 * e - 1) * (perOne : Int) = 2 * (e * perOne) - perOne := by ring
  have hhigh : (2 * e + 1) * (perOne : Int) = 2 * (e * perOne) + perOne := by ring
  have hnext : (e + 1) * (perOne : Int) = e * perOne + perOne := by ring
  exact floor?_of_within ⟨w + h, hsum, by omega, by omega⟩

/-- At a tie the sum is the next integer. -/
theorem floor?_of_tie (hy : y.signedUnits? = some w) (he : (e + 1).natAbs ≤ 2 ^ 53)
    (hw : 2 * w = (2 * e + 1) * perOne) : (y.add half).floor? = some (e + 1) := by
  obtain ⟨h, hone, hh⟩ := signedUnits?_half
  have hhigh : (2 * e + 1) * (perOne : Int) = 2 * (e * perOne) + perOne := by ring
  have hnext : (e + 1) * (perOne : Int) = e * perOne + perOne := by ring
  have hafter : (e + 1 + 1) * (perOne : Int) = e * perOne + perOne + perOne := by ring
  have hpos := perOne_pos
  have hrep : Representable ((e + 1) * (perOne : Int)).natAbs := representable_integer he
  apply floor?_of_within
  exact (within_add hy hh hrep hrep (by omega) (by omega)).mono (by omega) (by omega)

/-- Below a negative tie the sum is exact: it is smaller than the number. -/
theorem floor?_of_neg (hy : y.signedUnits? = some w) (he : e.natAbs < 2 ^ 52) (hneg : e < 0)
    (hlower : (2 * e - 1) * perOne ≤ 2 * w) (hupper : 2 * w < (2 * e + 1) * perOne) :
    (y.add half).floor? = some e := by
  obtain ⟨h, hone, hh⟩ := signedUnits?_half
  have hbelow : (2 * e + 1) * (perOne : Int) ≤ -1 * perOne :=
    Int.mul_le_mul_of_nonneg_right (by omega) (by omega)
  have hsmall : (1 - 2 ^ 53) * (perOne : Int) ≤ (2 * e - 1) * perOne :=
    Int.mul_le_mul_of_nonneg_right (by omega) (by omega)
  -- One half brings the number closer to zero, where its own grid holds it.
  have hgrid := lt_two_pow_spacing w.natAbs
  exact floor?_of_exact hone (add_half_exact hone hh hy (by omega) (by omega)) hlower hupper

/-- The grid of a number above a positive integer reaches to the next integer: it ends at a power of
    two, which is an integer itself. -/
theorem succ_mul_perOne_le {u n : Nat} (hn : 0 < n) (h : n * perOne < u) :
    (n + 1) * perOne ≤ 2 ^ (53 + spacing u) := by
  have hlt : n * perOne < 2 ^ (53 + spacing u) := Nat.lt_trans h (lt_two_pow_spacing u)
  obtain ⟨c, hc⟩ : perOne ∣ 2 ^ (53 + spacing u) := by
    obtain ⟨j, hone⟩ : ∃ j, perOne = 2 ^ j := ⟨1074, rfl⟩
    have hle : perOne ≤ n * perOne := Nat.le_mul_of_pos_left _ hn
    have hpow : 2 ^ j < 2 ^ (53 + spacing u) := by omega
    rw [hone]
    exact Nat.pow_dvd_pow 2 (Nat.le_of_lt ((Nat.pow_lt_pow_iff_right (by decide)).1 hpow))
  rw [hc, Nat.mul_comm] at hlt ⊢
  exact Nat.mul_le_mul_left _ (Nat.lt_of_mul_lt_mul_left hlt)

/-- Below a positive tie the sum is exact, unless the number is below the integer and so the sum
    is below the tie. -/
theorem floor?_of_pos (hy : y.signedUnits? = some w) (he : e.natAbs < 2 ^ 52) (hpos : 0 < e)
    (hlower : (2 * e - 1) * perOne ≤ 2 * w) (hupper : 2 * w < (2 * e + 1) * perOne) :
    (y.add half).floor? = some e := by
  obtain ⟨h, hone, hh⟩ := signedUnits?_half
  obtain ⟨n, rfl⟩ := Int.eq_ofNat_of_zero_le (Int.le_of_lt hpos)
  have hlow : (2 * n - 1) * (perOne : Int) = 2 * (n * perOne) - perOne := by ring
  have hhigh : (2 * n + 1) * (perOne : Int) = 2 * (n * perOne) + perOne := by ring
  by_cases hint : w ≤ n * perOne
  · -- The tie above the integer is in the format, and the sum is rounded to no more than it.
    have hrep : Representable (n * (perOne : Int)).natAbs := representable_integer (by omega)
    have htie : Representable ((2 * n + 1) * (h : Int)).natAbs :=
      representable_half hone (by omega)
    have hhalf : (2 * n + 1) * (h : Int) = n * perOne + h := by
      rw [hone]
      push_cast
      ring
    have hnext : (n + 1) * (perOne : Int) = n * perOne + perOne := by ring
    apply floor?_of_within
    exact (within_add hy hh hrep htie (by omega) (by omega)).mono (by omega) (by omega)
  · have hsmall : (2 * n + 1) * (perOne : Int) ≤ (2 ^ 53 - 1) * perOne :=
      Int.mul_le_mul_of_nonneg_right (by omega) (by omega)
    have hnonneg : 0 ≤ n * (perOne : Int) := Int.mul_nonneg (by omega) (by omega)
    have hfit : (w + h).natAbs ≤ 2 ^ (53 + spacing w.natAbs) := by
      have hreach : (n + 1) * perOne ≤ 2 ^ (53 + spacing w.natAbs) :=
        succ_mul_perOne_le (by omega) (by omega)
      rw [Nat.succ_mul] at hreach
      omega
    exact floor?_of_exact hone (add_half_exact hone hh hy (by omega) hfit) hlower hupper

/-- Next below one half there are `belowHalf` and a number that has one half less a multiple of the
    spacing below one. -/
theorem le_of_ne_belowHalf (hy : y.signedUnits? = some w) (hupper : 2 * w < perOne)
    (hbelow : y ≠ belowHalf) : 2 ^ 53 * w ≤ (2 ^ 52 - 1) * perOne := by
  rw [Ne, eq_belowHalf_iff hy] at hbelow
  by_contra hlarge
  obtain ⟨k, hk⟩ : ∃ k, 54 + k = 1074 := ⟨1020, rfl⟩
  have hgrid : perOne = 2 ^ 54 * 2 ^ k := perOne_eq_mul hk
  obtain ⟨negative, u, hu, -, rfl⟩ := exists_finite_of_signedUnits? hy
  have habs : (signed negative u).natAbs = u := natAbs_signed negative u
  -- So close to one half the grid has the spacing of `belowHalf`.
  have hle : 2 ^ (52 + k) ≤ u := by
    rw [Nat.pow_add]
    omega
  obtain ⟨c, hc⟩ := two_pow_dvd_of_le hu.2 hle
  have hunits : signed negative u = c * (2 ^ k : Nat) := by
    have hcomm : ((2 ^ k * c : Nat) : Int) = c * (2 ^ k : Nat) := by push_cast; ring
    omega
  rw [hunits] at hlarge hupper hbelow
  have hmore : (2 ^ 53 - 2 : Int) < c := by
    apply Int.lt_of_mul_lt_mul_right (a := ((2 ^ k : Nat) : Int)) _ (by omega)
    omega
  have hless : (c : Int) < 2 ^ 53 := by
    apply Int.lt_of_mul_lt_mul_right (a := ((2 ^ k : Nat) : Int)) _ (by omega)
    omega
  obtain rfl : c = 2 ^ 53 - 1 := by omega
  apply hbelow
  rw [hgrid]
  push_cast
  ring

/-- Around zero the sum stays below one, unless the number is the greatest one below one half. -/
theorem floor?_of_zero (hy : y.signedUnits? = some w) (hlower : -(perOne : Int) ≤ 2 * w)
    (hupper : 2 * w < perOne) (hbelow : y ≠ belowHalf) : (y.add half).floor? = some 0 := by
  obtain ⟨h, hone, hh⟩ := signedUnits?_half
  obtain ⟨q, hq, hgrid, hrep⟩ := exists_part (j := 53) (by decide)
  have hw := le_of_ne_belowHalf hy hupper hbelow
  have hbound : Representable ((2 ^ 53 - 1 : Int) * (q : Int)).natAbs := hrep _ (by decide)
  have hsum : Within (y.add half) 0 ((2 ^ 53 - 1) * q) :=
    within_add hy hh representable_zero hbound (by omega) (by omega)
  exact floor?_of_within (hsum.mono (by omega) (by omega))

/-- Of a number between zero and one half zero is the nearest integer. -/
theorem eq_zero_of_between {one : Int} (hone : 0 < one) (hlower : (2 * e - 1) * one ≤ 2 * w)
    (hupper : 2 * w ≤ (2 * e + 1) * one) (hpos : 0 < w) (hlt : 2 * w < one) : e = 0 := by
  have hle : 2 * e - 1 < 1 := Int.lt_of_mul_lt_mul_right (a := one) (by omega) (by omega)
  have hge : 0 < 2 * e + 1 := Int.lt_of_mul_lt_mul_right (a := one) (by omega) (by omega)
  omega

/-! ### The floor of the sum -/

/-- **Where one half leads.**  For a double at most one half away from an integer `e` the floor of
    the sum is `e`, as it should be below `e + 1 / 2`, or the next integer. -/
theorem floor?_add_half (hy : y.signedUnits? = some w) (he : e.natAbs < 2 ^ 52)
    (hlower : (2 * e - 1) * perOne ≤ 2 * w) (hupper : 2 * w ≤ (2 * e + 1) * perOne) :
    (y.add half).floor? =
      some (e + if 2 * w = (2 * e + 1) * perOne ∨ y = belowHalf then 1 else 0) := by
  by_cases htie : 2 * w = (2 * e + 1) * perOne
  · rw [if_pos (.inl htie)]
    exact floor?_of_tie hy (by omega) htie
  have hlt : 2 * w < (2 * e + 1) * perOne := lt_of_le_of_ne hupper htie
  by_cases hbelow : y = belowHalf
  · obtain rfl : e = 0 := by
      have hunits := (eq_belowHalf_iff hy).1 hbelow
      exact eq_zero_of_between perOne_pos_int hlower hupper (by linarith) (by linarith)
    rw [if_pos (.inr hbelow), hbelow]
    exact floor?_belowHalf_add_half
  · rw [if_neg (not_or.2 ⟨htie, hbelow⟩), Int.add_zero]
    rcases Int.lt_trichotomy e 0 with hneg | rfl | hgt
    · exact floor?_of_neg hy he hneg hlower hlt
    · exact floor?_of_zero hy (by omega) (by omega) hbelow
    · exact floor?_of_pos hy he hgt hlower hlt

end Reckoner.Binary64
