import Reckoner.Proofs.Binary64.Rounding

namespace Reckoner.Binary64

/-!
# Bounds on the results of operations

What an operation on finite numbers gives, in signed units: a result that is exact lies where it
should, and any other between the numbers of the format around it.  Signs of zeros are not seen.

* `within_add`, `within_sub`, `within_mul`, `within_div`: the four operations.
* `units_add`, `units_mul`: the units of a sum and of a product are those of the rounded exact one.
* `signedUnits?_add`: a sum is exact on a common grid that is fine enough for it.
* `within_ofRatio`: the double nearest to a quotient of integers.
* `signedUnits?_ofRatio_mul`, `signedUnits?_ofInt`: integers up to `2 ^ 53` are doubles.
* `infinity_mul`, `infinity_add`: what stays an infinity.
* `floor?_of_within`, `isIntegral_iff`: integral parts.
-/

/-- One is not nothing. -/
theorem perOne_pos : 0 < perOne := by simp only [perOne, Nat.two_pow_pos]

/-- The same for signed numbers of units. -/
theorem perOne_pos_int : (0 : Int) < perOne := by exact_mod_cast perOne_pos

/-- One as a product of powers of two. -/
theorem perOne_eq_mul {j k : Nat} (h : j + k = 1074) : perOne = 2 ^ j * 2 ^ k := by
  have hadd : 2 ^ (j + k) = 2 ^ j * 2 ^ k := Nat.pow_add 2 j k
  rw [h] at hadd
  exact hadd

/-- A power of two times one is a power of two. -/
theorem two_pow_mul_perOne {j k : Nat} (h : k + 1074 = j) : 2 ^ k * perOne = 2 ^ j := by
  obtain ⟨e, he, hone⟩ : ∃ e, e = 1074 ∧ perOne = 2 ^ e := ⟨1074, rfl, rfl⟩
  rw [hone, ← Nat.pow_add, he, h]

/-- Powers of two up to one. -/
theorem two_pow_le_perOne {k : Nat} (h : k ≤ 1074) : 2 ^ k ≤ perOne := by
  obtain ⟨j, hj⟩ : ∃ j, k + j = 1074 := ⟨1074 - k, by omega⟩
  rw [perOne_eq_mul hj]
  exact Nat.le_mul_of_pos_right _ (Nat.two_pow_pos j)

/-! ### Integers -/

/-- Integers up to `2 ^ 53` are in the format. -/
theorem representable_integer {n : Int} (h : n.natAbs ≤ 2 ^ 53) :
    Representable (n * (perOne : Int)).natAbs :=
  representable_mul_two_pow h (by decide)

/-- The parts of one by a power of two, in units, and their multiples. -/
theorem exists_part {j : Nat} (hj : j ≤ 1074) : ∃ q : Nat, 0 < q ∧ perOne = 2 ^ j * q ∧
    ∀ c : Int, c.natAbs ≤ 2 ^ 53 → Representable (c * (q : Int)).natAbs := by
  obtain ⟨k, hk⟩ : ∃ k, j + k = 1074 := ⟨1074 - j, by omega⟩
  exact ⟨2 ^ k, Nat.two_pow_pos k, perOne_eq_mul hk,
    fun c hc => representable_mul_two_pow hc (by omega)⟩

/-- The double nearest to a quotient of integers. -/
theorem within_ofRatio {n a b : Int} {d : Nat} (hd : 0 < d) (ha : Representable a.natAbs)
    (hb : Representable b.natAbs) (hlower : a * d ≤ n * perOne) (hupper : n * perOne ≤ b * d) :
    Within (ofRatio n d) a b := by
  have hunits : signed (n < 0) (n.natAbs * perOne) = n * perOne := by
    have hn : signed (n < 0) n.natAbs = n := signed_natAbs n
    unfold signed at hn ⊢
    split at hn
    · rw [if_pos ‹_›, Int.natCast_mul, ← Int.neg_mul, hn]
    · rw [if_neg ‹_›, Int.natCast_mul, hn]
  exact within_round hd ha hb (by rw [hunits]; exact hlower) (by rw [hunits]; exact hupper)

/-- The parts of a finite quotient of integers. -/
theorem ofRatio_eq_finite {n : Int} {d : Nat} {negative : Bool} {u : Nat} {hu : Representable u}
    (h : ofRatio n d = finite negative u hu) :
    decide (n < 0) = negative ∧ onGrid (n.natAbs * perOne) d = u := by
  unfold ofRatio round at h
  split at h
  · injection h with hnegative hunits
    exact ⟨hnegative, hunits⟩
  · cases h

/-- **A quotient that is an integer** up to `2 ^ 53` is that integer. -/
theorem signedUnits?_ofRatio_mul {n : Int} {d : Nat} (hd : 0 < d) (h : n.natAbs ≤ 2 ^ 53) :
    (ofRatio (d * n) d).signedUnits? = some (n * perOne) := by
  have hn : Representable (n * (perOne : Int)).natAbs := representable_integer h
  have hquotient : n * perOne * (d : Int) = d * n * perOne := by ring
  exact within_self_iff.1
    (within_ofRatio hd hn hn (Int.le_of_eq hquotient) (Int.le_of_eq hquotient.symm))

/-- Integers up to `2 ^ 53` are doubles. -/
theorem signedUnits?_ofInt {n : Int} (h : n.natAbs ≤ 2 ^ 53) :
    (ofInt n).signedUnits? = some (n * perOne) := by
  have hunits := signedUnits?_ofRatio_mul Nat.one_pos h
  rwa [Nat.cast_one, Int.one_mul] at hunits

/-- One half, in units. -/
theorem signedUnits?_half : ∃ h : Nat, perOne = 2 * h ∧ half.signedUnits? = some (h : Int) := by
  obtain ⟨h, -, hone, hrep⟩ := exists_part (j := 1) (by decide)
  have hh : Representable (h : Int).natAbs := by
    rw [← Int.one_mul (h : Int)]
    exact hrep 1 (by decide)
  refine ⟨h, by omega, ?_⟩
  exact within_self_iff.1 (within_ofRatio Nat.two_pos hh hh (by omega) (by omega))

/-! ### The four operations -/

variable {x y : Binary64} {m n w a b : Int}

/-- The sum. -/
theorem within_add (hx : x.signedUnits? = some m) (hy : y.signedUnits? = some n)
    (ha : Representable a.natAbs) (hb : Representable b.natAbs) (hlower : a ≤ m + n)
    (hupper : m + n ≤ b) : Within (add x y) a b := by
  obtain ⟨negative, u, hu, rfl, rfl⟩ := exists_finite_of_signedUnits? hx
  obtain ⟨negative', v, hv, rfl, rfl⟩ := exists_finite_of_signedUnits? hy
  simp only [add]
  generalize signed negative u + signed negative' v = sum at hlower hupper
  by_cases hsum : sum = 0
  · -- An exact zero, whatever its sign.
    rw [if_pos hsum]
    refine ⟨0, ?_, by omega, by omega⟩
    cases negative && negative' <;> rfl
  · rw [if_neg hsum]
    have hunits : signed (sum < 0) sum.natAbs = sum := signed_natAbs sum
    exact within_round Nat.one_pos ha hb (by rw [hunits]; omega) (by rw [hunits]; omega)

/-- **The units of a sum.** -/
theorem units_add (hx : x.signedUnits? = some m) (hy : y.signedUnits? = some n)
    (h : (add x y).signedUnits? = some w) : w = roundedUnits (m + n) 1 := by
  obtain ⟨negative, u, hu, rfl, rfl⟩ := exists_finite_of_signedUnits? hx
  obtain ⟨negative', v, hv, rfl, rfl⟩ := exists_finite_of_signedUnits? hy
  simp only [add] at h
  generalize signed negative u + signed negative' v = sum at h
  by_cases hsum : sum = 0
  · rw [if_pos hsum] at h
    have hzero : (zero (negative && negative')).signedUnits? = some 0 := by
      cases negative <;> cases negative' <;> rfl
    rw [hsum, ← Option.some.inj (hzero.symm.trans h)]
    rfl
  · rw [if_neg hsum] at h
    have hunits : signed (sum < 0) sum.natAbs = sum := signed_natAbs sum
    rw [units_of_round h, ← roundedUnits_signed, hunits]

/-- **A sum is exact** on a common grid that is fine enough for it. -/
theorem signedUnits?_add {k : Nat} (hx : x.signedUnits? = some m) (hy : y.signedUnits? = some n)
    (hm : (2 ^ k : Nat) ∣ m.natAbs) (hn : 2 ^ k ∣ n.natAbs) (hk : k ≤ 2044)
    (hsum : (m + n).natAbs ≤ 2 ^ (53 + k)) : (add x y).signedUnits? = some (m + n) := by
  obtain ⟨c, hc⟩ : ((2 ^ k : Nat) : Int) ∣ m + n :=
    Int.dvd_add (Int.natCast_dvd.2 hm) (Int.natCast_dvd.2 hn)
  have hcoeff : c.natAbs ≤ 2 ^ 53 := by
    apply Nat.le_of_mul_le_mul_left _ (Nat.two_pow_pos k)
    calc 2 ^ k * c.natAbs = (m + n).natAbs := by rw [hc, Int.natAbs_mul, Int.natAbs_natCast]
      _ ≤ 2 ^ (53 + k) := hsum
      _ = 2 ^ k * 2 ^ 53 := by rw [Nat.pow_add, Nat.mul_comm]
  have hrep : Representable (m + n).natAbs := by
    rw [hc, Int.mul_comm]
    exact representable_mul_two_pow hcoeff hk
  exact within_self_iff.1 (within_add hx hy hrep hrep (Int.le_refl _) (Int.le_refl _))

/-- The other sign. -/
theorem signedUnits?_neg (hx : x.signedUnits? = some m) : (neg x).signedUnits? = some (-m) := by
  obtain ⟨negative, u, hu, rfl, rfl⟩ := exists_finite_of_signedUnits? hx
  cases negative <;> simp [neg, signedUnits?, signed]

/-- The difference. -/
theorem within_sub (hx : x.signedUnits? = some m) (hy : y.signedUnits? = some n)
    (ha : Representable a.natAbs) (hb : Representable b.natAbs) (hlower : a ≤ m - n)
    (hupper : m - n ≤ b) : Within (sub x y) a b :=
  within_add hx (signedUnits?_neg hy) ha hb (by omega) (by omega)

/-- The product.  A product of units counts in units of units. -/
theorem within_mul (hx : x.signedUnits? = some m) (hy : y.signedUnits? = some n)
    (ha : Representable a.natAbs) (hb : Representable b.natAbs) (hlower : a * perOne ≤ m * n)
    (hupper : m * n ≤ b * perOne) : Within (mul x y) a b := by
  obtain ⟨negative, u, hu, rfl, rfl⟩ := exists_finite_of_signedUnits? hx
  obtain ⟨negative', v, hv, rfl, rfl⟩ := exists_finite_of_signedUnits? hy
  rw [signed_mul_signed] at hlower hupper
  exact within_round perOne_pos ha hb hlower hupper

/-- **The units of a product.** -/
theorem units_mul (hx : x.signedUnits? = some m) (hy : y.signedUnits? = some n)
    (h : (mul x y).signedUnits? = some w) : w = roundedUnits (m * n) perOne := by
  obtain ⟨negative, u, hu, rfl, rfl⟩ := exists_finite_of_signedUnits? hx
  obtain ⟨negative', v, hv, rfl, rfl⟩ := exists_finite_of_signedUnits? hy
  rw [signed_mul_signed, roundedUnits_signed]
  exact units_of_round h

/-- One. -/
theorem ofInt_one : ofInt 1 = finite false perOne (by decide +kernel) := by decide +kernel

/-- A number times one. -/
theorem mul_ofInt_one (hx : x.signedUnits? = some m) : mul x (ofInt 1) = x := by
  obtain ⟨negative, u, hu, rfl, rfl⟩ := exists_finite_of_signedUnits? hx
  have hgrid : onGrid (u * perOne) perOne = u := onGrid_mul_self perOne_pos hu.2
  rw [ofInt_one]
  simp only [mul, Bool.bne_false, round, hgrid, dif_pos hu.1]

/-- The quotient by a number other than zero. -/
theorem within_div (hx : x.signedUnits? = some m) (hy : y.signedUnits? = some n) (hn : n ≠ 0)
    (ha : Representable a.natAbs) (hb : Representable b.natAbs)
    (hlower : a * n.natAbs ≤ m * n.sign * perOne) (hupper : m * n.sign * perOne ≤ b * n.natAbs) :
    Within (div x y) a b := by
  obtain ⟨negative, u, hu, rfl, rfl⟩ := exists_finite_of_signedUnits? hx
  obtain ⟨negative', v, hv, rfl, rfl⟩ := exists_finite_of_signedUnits? hy
  rw [natAbs_signed] at hlower hupper
  have hv0 : v ≠ 0 := by
    rintro rfl
    apply hn
    cases negative' <;> rfl
  have hsign : (signed negative' v).sign = signed negative' 1 := by
    cases negative'
    · exact Int.sign_eq_one_of_pos (by simp only [signed, Bool.false_eq_true, if_false]; omega)
    · exact Int.sign_eq_neg_one_of_neg (by simp only [signed, if_true]; omega)
  have hunits : signed negative u * (signed negative' v).sign * perOne =
      signed (negative != negative') (u * perOne) := by
    have hone : (perOne : Int) = signed false perOne := rfl
    rw [hsign, hone, signed_mul_signed, signed_mul_signed, Nat.mul_one, Bool.bne_false]
  rw [hunits] at hlower hupper
  simp only [div, if_neg hv0]
  exact within_round (Nat.pos_of_ne_zero hv0) ha hb hlower hupper

/-! ### Infinities -/

/-- An infinity times a positive number is that infinity. -/
theorem infinity_mul (negative : Bool) (hy : y.signedUnits? = some n) (hn : 0 < n) :
    mul (infinity negative) y = infinity negative := by
  obtain ⟨negative', v, hv, rfl, rfl⟩ := exists_finite_of_signedUnits? hy
  cases negative'
  · have hv0 : v ≠ 0 := by
      rintro rfl
      exact absurd hn (by decide)
    simp [mul, hv0]
  · simp only [signed, if_true] at hn
    omega

/-- An infinity plus a finite number is that infinity. -/
theorem infinity_add (negative : Bool) (hy : y.signedUnits? = some n) :
    add (infinity negative) y = infinity negative := by
  obtain ⟨negative', v, hv, rfl, rfl⟩ := exists_finite_of_signedUnits? hy
  rfl

/-! ### Integral parts -/

/-- The floor, from the units. -/
theorem floor?_of_signedUnits? (hx : x.signedUnits? = some m) :
    x.floor? = some (m / (perOne : Int)) := by
  unfold floor?
  rw [hx, Option.map_some]

/-- From an integer on and below the next one, the floor is that integer. -/
theorem floor?_of_within (h : Within x (n * perOne) ((n + 1) * perOne - 1)) :
    x.floor? = some n := by
  obtain ⟨m, hm, hlower, hupper⟩ := h
  have hdiv : m / (perOne : Int) = n := by
    rw [Int.add_mul, Int.one_mul] at hupper
    rw [Int.ediv_eq_iff_of_pos perOne_pos_int]
    omega
  rw [floor?_of_signedUnits? hm, hdiv]

/-- Integral numbers are multiples of one. -/
theorem isIntegral_iff (hx : x.signedUnits? = some m) :
    x.isIntegral = true ↔ (perOne : Int) ∣ m := by
  obtain ⟨negative, u, hu, rfl, rfl⟩ := exists_finite_of_signedUnits? hx
  rw [← Int.natAbs_dvd_natAbs, Int.natAbs_natCast, natAbs_signed]
  simp [isIntegral, Nat.dvd_iff_mod_eq_zero]

end Reckoner.Binary64
