import Reckoner.Proofs.Binary64.Rounding

namespace Reckoner

/-!
# Rounding gives a nearest number

No number of the format is nearer to a quotient than the one to which it is rounded.  From this come
two bounds that hold however coarse the grid is at the size of a result.

* `Binary64.onGrid_nearest`, `Binary64.roundedUnits_nearest`: no candidate is nearer.
* `Binary64.onGrid_mul_near`, `Binary64.roundedUnits_mul_near`: a product with an integer `s` is off
  by less than `s` steps of the grid at the other factor.
* `Binary64.roundedUnits_add_half`: adding one half goes up by one at most, and not down.
-/

/-- No integer is nearer to a quotient than the nearest integer. -/
theorem nearestEven_nearest {n d : Nat} (hd : 0 < d) (c : Nat) :
    (((nearestEven n d * d : Nat) : Int) - n).natAbs ≤ (((c * d : Nat) : Int) - n).natAbs := by
  have hupper := nearestEven_upper n d
  have hlower := nearestEven_lower n d hd
  generalize nearestEven n d = r at hupper hlower
  rcases Nat.lt_trichotomy c r with hlt | rfl | hgt
  · have hstep : (c + 1) * d ≤ r * d := Nat.mul_le_mul_right d hlt
    rw [Nat.succ_mul] at hstep
    omega
  · exact Nat.le_refl _
  · have hstep : (r + 1) * d ≤ c * d := Nat.mul_le_mul_right d hgt
    rw [Nat.succ_mul] at hstep
    omega

namespace Binary64

/-! ### The grid -/

/-- **No number on the grid is nearer** to a quotient than the one to which it is rounded.  On a
    finer part of the grid the candidates end at a power of two, which is on the coarser part. -/
theorem onGrid_nearest {n d v : Nat} (hd : 0 < d) (hv : 2 ^ spacing v ∣ v) :
    (((onGrid n d * d : Nat) : Int) - n).natAbs ≤ (((v * d : Nat) : Int) - n).natAbs := by
  have hstep : 0 < d * 2 ^ spacing (n / d) := Nat.mul_pos hd (Nat.two_pow_pos _)
  rw [onGrid_mul_eq]
  by_cases hcoarse : spacing (n / d) ≤ spacing v
  · -- The candidate is a number of the same steps.
    obtain ⟨c, hc⟩ := Nat.dvd_trans (Nat.pow_dvd_pow 2 hcoarse) hv
    have hcandidate : v * d = c * (d * 2 ^ spacing (n / d)) := by
      calc v * d = 2 ^ spacing (n / d) * c * d := congrArg (· * d) hc
        _ = c * (d * 2 ^ spacing (n / d)) := by ring
    rw [hcandidate]
    exact nearestEven_nearest hstep c
  · -- The candidate is not above `2 ^ 52` of these steps, and the quotient is not below.
    have hnearest := nearestEven_nearest (n := n) hstep (2 ^ 52)
    have hbelow : v ≤ 2 ^ (52 + spacing (n / d)) :=
      Nat.le_trans (Nat.le_of_lt (lt_two_pow_spacing v))
        (Nat.pow_le_pow_right (by decide) (by omega))
    have hpower : 2 ^ 52 * (d * 2 ^ spacing (n / d)) = 2 ^ (52 + spacing (n / d)) * d := by
      rw [Nat.pow_add]
      ring
    have hquotient : 2 ^ (52 + spacing (n / d)) * d ≤ n :=
      Nat.le_trans (Nat.mul_le_mul_right d (two_pow_le_of_spacing_pos (by omega)))
        (Nat.div_mul_le_self n d)
    have hcandidate : v * d ≤ 2 ^ (52 + spacing (n / d)) * d := Nat.mul_le_mul_right d hbelow
    rw [hpower] at hnearest
    omega

/-- The step at a product with an integer is less than twice as many steps at the factor: a product
    is at least half as long as both factors together. -/
theorem two_pow_spacing_mul_lt (u : Nat) {s : Nat} (hs : 0 < s) :
    2 ^ spacing (u * s) < 2 * (2 ^ spacing u * s) := by
  have hpos : 0 < 2 ^ spacing u * s := Nat.mul_pos (Nat.two_pow_pos _) hs
  rcases Nat.eq_zero_or_pos (spacing (u * s)) with hfine | hcoarse
  · rw [hfine, Nat.pow_zero]
    omega
  · apply Nat.lt_of_mul_lt_mul_left (a := 2 ^ 52)
    calc 2 ^ 52 * 2 ^ spacing (u * s) = 2 ^ (52 + spacing (u * s)) := (Nat.pow_add 2 52 _).symm
      _ ≤ u * s := two_pow_le_of_spacing_pos hcoarse
      _ < 2 ^ (53 + spacing u) * s := Nat.mul_lt_mul_of_pos_right (lt_two_pow_spacing u) hs
      _ = 2 ^ 52 * (2 * (2 ^ spacing u * s)) := by rw [Nat.pow_add]; ring

/-- **A product with an integer is off by less than that many steps at the factor.** -/
theorem onGrid_mul_near {u s d : Nat} (hs : 0 < s) (hd : 0 < d) :
    onGrid (u * s * d) d < u * s + 2 ^ spacing u * s ∧
      u * s < onGrid (u * s * d) d + 2 ^ spacing u * s := by
  obtain ⟨hupper, hlower⟩ := onGrid_half_step (n := u * s * d) hd
  rw [Nat.mul_div_cancel _ hd] at hupper hlower
  -- Half a step at the product, with the divisor as a factor of both sides.
  have hhalf : d * 2 ^ spacing (u * s) < 2 * (2 ^ spacing u * s * d) := by
    calc d * 2 ^ spacing (u * s) < d * (2 * (2 ^ spacing u * s)) :=
          Nat.mul_lt_mul_of_pos_left (two_pow_spacing_mul_lt u hs) hd
      _ = 2 * (2 ^ spacing u * s * d) := by ring
  constructor
  · apply Nat.lt_of_mul_lt_mul_right (a := d)
    rw [Nat.add_mul]
    omega
  · apply Nat.lt_of_mul_lt_mul_right (a := d)
    rw [Nat.add_mul]
    omega

/-! ### Signed numbers of units -/

/-- What is rounded is on the grid. -/
theorem roundedUnits_dvd (z : Int) (d : Nat) :
    2 ^ spacing (roundedUnits z d).natAbs ∣ (roundedUnits z d).natAbs := by
  unfold roundedUnits
  rw [natAbs_signed]
  exact onGrid_dvd _ _

/-- **No number of the format is nearer** to a signed quotient than the one to which it is
    rounded. -/
theorem roundedUnits_nearest {z v : Int} {d : Nat} (hd : 0 < d)
    (hv : 2 ^ spacing v.natAbs ∣ v.natAbs) :
    (roundedUnits z d * d - z).natAbs ≤ (v * d - z).natAbs := by
  have hsame : roundedUnits z d * d - z =
      signed (z < 0) (onGrid z.natAbs d * d) - signed (z < 0) z.natAbs := by
    rw [signed_mul, signed_natAbs]
    rfl
  have hsize : (v * d).natAbs = v.natAbs * d := by rw [Int.natAbs_mul, Int.natAbs_natCast]
  calc (roundedUnits z d * d - z).natAbs
      = (((onGrid z.natAbs d * d : Nat) : Int) - z.natAbs).natAbs := by
        rw [hsame, natAbs_signed_sub]
    _ ≤ (((v.natAbs * d : Nat) : Int) - z.natAbs).natAbs := onGrid_nearest hd hv
    _ ≤ (v * d - z).natAbs := by
        rw [← hsize]
        omega

/-- A signed product with an integer is off by less than that many steps at the factor. -/
theorem roundedUnits_mul_near (m : Int) {s d : Nat} (hs : 0 < s) (hd : 0 < d) :
    (roundedUnits (m * s * d) d - m * s).natAbs < 2 ^ spacing m.natAbs * s := by
  obtain ⟨hupper, hlower⟩ := onGrid_mul_near (u := m.natAbs) hs hd
  have hproduct : m * s = signed (m < 0) (m.natAbs * s) := by rw [signed_mul, signed_natAbs]
  rw [hproduct, ← signed_mul, roundedUnits_signed, natAbs_signed_sub]
  omega

/-- **Adding one half goes up by one at most, and not down**, however coarse the grid is: the number
    itself is on it, one half away from the sum. -/
theorem roundedUnits_add_half {w h : Int} (hh : 0 ≤ h) (hw : 2 ^ spacing w.natAbs ∣ w.natAbs) :
    w ≤ roundedUnits (w + h) 1 ∧ roundedUnits (w + h) 1 ≤ w + 2 * h := by
  have hnearest := roundedUnits_nearest (z := w + h) Nat.one_pos hw
  rw [Nat.cast_one, Int.mul_one, Int.mul_one] at hnearest
  generalize roundedUnits (w + h) 1 = z at hnearest
  omega

end Binary64

end Reckoner
