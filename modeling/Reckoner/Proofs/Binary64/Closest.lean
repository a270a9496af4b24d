import Mathlib.Algebra.Order.Field.Rat
import Mathlib.Tactic.FieldSimp
import Mathlib.Tactic.Linarith
import Reckoner.Proofs.Binary64.Error
import Reckoner.Proofs.Binary64.Nearest

namespace Reckoner

/-!
# The double nearest to a number

What it means for a double to be the rounded value of a number, without a word on how it is found:
no other one of the format is nearer, of two equally near ones it is the one with an even
significand, and from the middle between the largest finite double and `2 ^ 1024` on it is the
infinity.  Only one double is like this, and rounding gives it.

* `Binary64.IsNearest q x`: `x` is the double nearest to `q`, which is not negative.
* `nearestEven_tie`: of two equally near integers the even one is taken.
* `Binary64.onGrid_tie`: of two equally near numbers of the format the one with an even significand.
* `Binary64.onGrid_lt_limit_iff`: where the infinity begins.
* `Binary64.isNearest_round`, `Binary64.IsNearest.eq_round`: rounding gives the nearest double, and
  there is no other.
-/

/-- **Of two equally near integers the even one is taken,** and the other one is its neighbour. -/
theorem nearestEven_tie {n d c : Nat} (hd : 0 < d) (hc : c ≠ nearestEven n d)
    (h : (((nearestEven n d * d : Nat) : Int) - n).natAbs = (((c * d : Nat) : Int) - n).natAbs) :
    nearestEven n d % 2 = 0 ∧ c % 2 = 1 := by
  have hupper := nearestEven_upper n d
  have hlower := nearestEven_lower n d hd
  have heven := nearestEven_of_tie n d
  generalize nearestEven n d = r at *
  -- In the middle between an integer and the next one, the remainder is one half.
  have hmiddle (b : Nat) (hb : 2 * n = 2 * (b * d) + d) : 2 * (n % d) = d := by
    have hsplit : n / d * d + n % d = n := Nat.div_add_mod' n d
    have hlt : n % d < d := Nat.mod_lt n hd
    have hfloor : n / d = b := eq_of_mul_near (d := d) (by omega) (by omega)
    rw [hfloor] at hsplit
    omega
  rcases Nat.lt_or_gt_of_ne hc with hlt | hgt
  · have hstep : (c + 1) * d ≤ r * d := Nat.mul_le_mul_right d hlt
    rw [Nat.succ_mul] at hstep
    have hnext : r = c + 1 := by
      apply eq_of_mul_near (d := d)
      · rw [Nat.succ_mul]
        omega
      · rw [Nat.succ_mul]
        omega
    have hr : r * d = c * d + d := by rw [hnext, Nat.succ_mul]
    have hparity := heven (hmiddle c (by omega))
    omega
  · have hstep : (r + 1) * d ≤ c * d := Nat.mul_le_mul_right d hgt
    rw [Nat.succ_mul] at hstep
    have hnext : c = r + 1 := by
      apply eq_of_mul_near (d := d)
      · rw [Nat.succ_mul]
        omega
      · rw [Nat.succ_mul]
        omega
    have hc' : c * d = r * d + d := by rw [hnext, Nat.succ_mul]
    have hparity := heven (hmiddle r (by omega))
    omega

namespace Binary64

/-! ### Significands -/

/-- The last bit of the significand of a number of the format is zero. -/
def EvenSignificand (u : Nat) : Prop := u / 2 ^ spacing u % 2 = 0

/-- An even number of steps has an even significand. -/
theorem evenSignificand_of_even {m : Nat} (k : Nat) (hm : m ≤ 2 ^ 53) (heven : m % 2 = 0) :
    EvenSignificand (m * 2 ^ k) := by
  unfold EvenSignificand
  rcases Nat.lt_or_eq_of_le hm with hlt | rfl
  · -- The steps are multiples of the spacing at their own size.
    obtain ⟨j, hj⟩ := Nat.exists_eq_add_of_le (spacing_mul_le (k := k) hlt)
    have hsplit : m * 2 ^ k = 2 ^ spacing (m * 2 ^ k) * (m * 2 ^ j) := by
      conv_lhs => rw [hj, Nat.pow_add]
      ring
    have hquotient : m * 2 ^ k / 2 ^ spacing (m * 2 ^ k) = m * 2 ^ j :=
      Nat.div_eq_of_eq_mul_right (Nat.two_pow_pos _) hsplit
    rw [hquotient, Nat.mul_mod, heven, Nat.zero_mul, Nat.zero_mod]
  · -- The carry to the next binade leaves a power of two.
    have hspacing : spacing (2 ^ 53 * 2 ^ k) = k + 1 := by
      rw [← Nat.pow_add]
      simp only [spacing, Nat.log2_two_pow]
      omega
    have hsplit : 2 ^ 53 * 2 ^ k = 2 ^ (k + 1) * 2 ^ 52 := by
      rw [← Nat.pow_add, ← Nat.pow_add]
      congr 1
      omega
    rw [hspacing, hsplit, Nat.mul_div_cancel_left _ (Nat.two_pow_pos _)]
    decide

/-- An odd number of steps has an odd significand, if it is of the format. -/
theorem not_evenSignificand_of_odd {m k : Nat} (hodd : m % 2 = 1)
    (hk : k ≤ spacing (m * 2 ^ k)) (h : 2 ^ spacing (m * 2 ^ k) ∣ m * 2 ^ k) :
    ¬ EvenSignificand (m * 2 ^ k) := by
  have hspacing : spacing (m * 2 ^ k) = k := by
    by_contra hne
    -- A coarser spacing would divide the odd number by two.
    have htwo : 2 ^ (k + 1) ∣ m * 2 ^ k := Nat.dvd_trans (Nat.pow_dvd_pow 2 (by omega)) h
    rw [Nat.pow_succ, Nat.mul_comm m] at htwo
    have hdvd := Nat.dvd_of_mul_dvd_mul_left (Nat.two_pow_pos k) htwo
    omega
  unfold EvenSignificand
  rw [hspacing, Nat.mul_div_cancel _ (Nat.two_pow_pos k)]
  omega

/-- **Of two equally near numbers of the format the one with an even significand is taken.** -/
theorem onGrid_tie {n d v : Nat} (hd : 0 < d) (hv : 2 ^ spacing v ∣ v) (hne : v ≠ onGrid n d)
    (h : (((onGrid n d * d : Nat) : Int) - n).natAbs = (((v * d : Nat) : Int) - n).natAbs) :
    EvenSignificand (onGrid n d) ∧ ¬ EvenSignificand v := by
  have hstep : 0 < d * 2 ^ spacing (n / d) := Nat.mul_pos hd (Nat.two_pow_pos _)
  have hsteps : nearestEven n (d * 2 ^ spacing (n / d)) ≤ 2 ^ 53 :=
    nearestEven_le (div_mul_two_pow_spacing_lt n d)
  rw [onGrid_mul_eq] at h
  by_cases hcoarse : spacing (n / d) ≤ spacing v
  · -- The candidate is a number of the same steps, so one of both numbers is even.
    obtain ⟨c, hc⟩ := Nat.dvd_trans (Nat.pow_dvd_pow 2 hcoarse) hv
    rw [Nat.mul_comm] at hc
    have hcandidate : v * d = c * (d * 2 ^ spacing (n / d)) := by
      rw [hc]
      ring
    rw [hcandidate] at h
    have hdifferent : c ≠ nearestEven n (d * 2 ^ spacing (n / d)) := by
      rintro rfl
      exact hne hc
    obtain ⟨heven, hodd⟩ := nearestEven_tie hstep hdifferent h
    refine ⟨evenSignificand_of_even _ hsteps heven, ?_⟩
    rw [hc] at hcoarse hv ⊢
    exact not_evenSignificand_of_odd hodd hcoarse hv
  · -- The candidate is below `2 ^ 52` of these steps, which are nearer.
    have hnearest := nearestEven_nearest (n := n) hstep (2 ^ 52)
    have hpower : 2 ^ 52 * (d * 2 ^ spacing (n / d)) = 2 ^ (52 + spacing (n / d)) * d := by
      rw [Nat.pow_add]
      ring
    have hbelow : v < 2 ^ (52 + spacing (n / d)) :=
      Nat.lt_of_lt_of_le (lt_two_pow_spacing v) (Nat.pow_le_pow_right (by decide) (by omega))
    have hquotient : 2 ^ (52 + spacing (n / d)) * d ≤ n :=
      Nat.le_trans (Nat.mul_le_mul_right d (two_pow_le_of_spacing_pos (by omega)))
        (Nat.div_mul_le_self n d)
    have hcandidate : v * d < 2 ^ (52 + spacing (n / d)) * d := Nat.mul_lt_mul_of_pos_right hbelow hd
    rw [hpower] at hnearest
    omega

/-! ### Overflow -/

/-- The units from which on a number is rounded to an infinity: the middle between the largest
    finite double and the limit. -/
def overflow : Nat := limit - 2 ^ 2044

/-- The middle itself goes to the limit, which has the even significand. -/
theorem onGrid_overflow : onGrid overflow 1 = limit := by decide +kernel

/-- **Where the infinity begins.**  The largest finite double is nearer to what is below. -/
theorem onGrid_lt_limit_iff {n d : Nat} (hd : 0 < d) : onGrid n d < limit ↔ n < overflow * d := by
  constructor
  · intro h
    by_contra hge
    have hmono : onGrid overflow 1 ≤ onGrid n d := onGrid_mono Nat.one_pos hd (by omega)
    rw [onGrid_overflow] at hmono
    omega
  · intro h
    by_contra hge
    obtain ⟨largest, half, hpos, hgrid, hover, hlimit⟩ : ∃ largest half : Nat, 0 < half ∧
        2 ^ spacing largest ∣ largest ∧ overflow = largest + half ∧ limit = overflow + half :=
      ⟨limit - 2 ^ 2045, 2 ^ 2044, Nat.two_pow_pos _, by decide +kernel, by decide +kernel,
        by decide +kernel⟩
    have hnearest := onGrid_nearest (n := n) hd hgrid
    have hproduct : limit * d ≤ onGrid n d * d := Nat.mul_le_mul_right d (Nat.le_of_not_lt hge)
    have hhalf : 0 < half * d := Nat.mul_pos hpos hd
    rw [hlimit, hover, Nat.add_mul, Nat.add_mul] at hproduct
    rw [hover, Nat.add_mul] at h
    omega

/-! ### The nearest double -/

/-- The double nearest to a number that is not negative.  No other finite one is nearer, and one that
    is as near has an odd significand; from the middle between the largest finite one and `2 ^ 1024`
    on, it is the infinity. -/
inductive IsNearest (q : Rat) : Binary64 → Prop
  | finite {u : Nat} (representable : Representable u) (below : q < 2 ^ 1024 - 2 ^ 970)
      (nearest : ∀ v, Representable v → |(u : Rat) / perOne - q| ≤ |(v : Rat) / perOne - q|)
      (even : ∀ v, Representable v → v ≠ u →
        |(u : Rat) / perOne - q| = |(v : Rat) / perOne - q| → EvenSignificand u) :
      IsNearest q (.finite false u representable)
  | infinity (beyond : 2 ^ 1024 - 2 ^ 970 ≤ q) : IsNearest q (.infinity false)

/-- The middle between the largest finite double and `2 ^ 1024`, in units. -/
theorem overflow_eq : (overflow : Rat) = (2 ^ 1024 - 2 ^ 970) * perOne := by
  have hcast (a b : Nat) (h : overflow + 2 ^ b * perOne = 2 ^ a * perOne) :
      (overflow : Rat) + 2 ^ b * perOne = 2 ^ a * perOne := by exact_mod_cast h
  rw [sub_mul, eq_sub_iff_add_eq]
  exact hcast 1024 970 (by decide +kernel)

/-- The distance of a number of units from a quotient, as a number. -/
theorem abs_sub_eq {u n d : Nat} (hd : 0 < d) : |(u : Rat) / perOne - n / (d * perOne)| =
    ((((u * d : Nat) : Int) - n).natAbs : Rat) / (d * perOne) := by
  have hone := perOne_pos_rat
  have hd' : (0 : Rat) < d := by exact_mod_cast hd
  have hdifference : (u : Rat) / perOne - n / (d * perOne) =
      (((u * d : Nat) : Int) - n : Int) / (d * perOne) := by
    push_cast
    field_simp
  rw [hdifference, abs_div, abs_of_pos (mul_pos hd' hone), Nat.cast_natAbs, Int.cast_abs]

/-- Distances from a quotient are compared as integers. -/
theorem abs_sub_le_iff {u v n d : Nat} (hd : 0 < d) :
    |(u : Rat) / perOne - n / (d * perOne)| ≤ |(v : Rat) / perOne - n / (d * perOne)| ↔
      (((u * d : Nat) : Int) - n).natAbs ≤ (((v * d : Nat) : Int) - n).natAbs := by
  have hpos : (0 : Rat) < d * perOne := mul_pos (by exact_mod_cast hd) perOne_pos_rat
  rw [abs_sub_eq hd, abs_sub_eq hd, div_le_div_iff_of_pos_right hpos, Nat.cast_le]

/-- Equal distances are equal as integers. -/
theorem abs_sub_eq_iff {u v n d : Nat} (hd : 0 < d) :
    |(u : Rat) / perOne - n / (d * perOne)| = |(v : Rat) / perOne - n / (d * perOne)| ↔
      (((u * d : Nat) : Int) - n).natAbs = (((v * d : Nat) : Int) - n).natAbs := by
  rw [le_antisymm_iff, abs_sub_le_iff hd, abs_sub_le_iff hd, ← le_antisymm_iff]

/-- A quotient of units is below the infinity as its number is. -/
theorem lt_overflow_iff {n d : Nat} (hd : 0 < d) :
    (n : Rat) / (d * perOne) < 2 ^ 1024 - 2 ^ 970 ↔ n < overflow * d := by
  have hpos : (0 : Rat) < d * perOne := mul_pos (by exact_mod_cast hd) perOne_pos_rat
  have hproduct : (2 ^ 1024 - 2 ^ 970 : Rat) * (d * perOne) = (overflow * d : Nat) := by
    rw [Nat.cast_mul, overflow_eq, ← mul_assoc, mul_right_comm]
  rw [div_lt_iff₀ hpos, hproduct, Nat.cast_lt]

/-- The infinity is the nearest double from the middle on. -/
theorem IsNearest.eq_infinity_iff {q : Rat} {x : Binary64} (h : IsNearest q x) :
    x = .infinity false ↔ 2 ^ 1024 - 2 ^ 970 ≤ q := by
  cases h with
  | finite _ below _ _ => exact iff_of_false (by simp) (not_le_of_gt below)
  | infinity beyond => exact iff_of_true rfl beyond

/-- The nearest double to a number that is not negative has a value and no minus. -/
theorem IsNearest.sign {q : Rat} {x : Binary64} (h : IsNearest q x) :
    x ≠ .nan ∧ x.isNegative = false := by
  cases h <;> exact ⟨by simp, rfl⟩

/-- **Rounding gives the nearest double.** -/
theorem isNearest_round {n d : Nat} (hd : 0 < d) :
    IsNearest (n / (d * perOne)) (round false n d) := by
  unfold round
  split
  · rename_i h
    refine .finite (onGrid_representable h) ((lt_overflow_iff hd).2 ((onGrid_lt_limit_iff hd).1 h))
      ?_ ?_
    · intro v hv
      exact (abs_sub_le_iff hd).2 (onGrid_nearest hd hv.2)
    · intro v hv hne heq
      exact (onGrid_tie hd hv.2 hne ((abs_sub_eq_iff hd).1 heq)).1
  · rename_i h
    refine .infinity (le_of_not_gt ?_)
    intro hlt
    exact h ((onGrid_lt_limit_iff hd).2 ((lt_overflow_iff hd).1 hlt))

/-- **There is one nearest double.** -/
theorem IsNearest.eq_round {n d : Nat} {x : Binary64} (hd : 0 < d)
    (h : IsNearest (n / (d * perOne)) x) : x = round false n d := by
  unfold round
  cases h with
  | infinity beyond =>
    have hlimit : ¬ onGrid n d < limit := by
      rw [onGrid_lt_limit_iff hd, ← lt_overflow_iff hd]
      exact not_lt_of_ge beyond
    rw [dif_neg hlimit]
  | @finite u representable below nearest even =>
    have hlimit : onGrid n d < limit :=
      (onGrid_lt_limit_iff hd).2 ((lt_overflow_iff hd).1 below)
    have hgrid := onGrid_representable hlimit
    have hsame : u = onGrid n d := by
      by_contra hne
      -- Both are equally near, and the significand of only one of them is even.
      have heq := le_antisymm (nearest _ hgrid)
        ((abs_sub_le_iff hd).2 (onGrid_nearest hd representable.2))
      have htie := onGrid_tie hd representable.2 hne ((abs_sub_eq_iff hd).1 heq.symm)
      exact htie.2 (even _ hgrid (Ne.symm hne) heq)
    rw [dif_pos hlimit]
    subst hsame
    rfl

end Binary64

end Reckoner
