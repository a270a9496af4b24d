import Mathlib.Tactic.Ring
import Reckoner.Binary64.Arithmetic

namespace Reckoner

/-!
# Rounding keeps the order

Every operation on doubles is an exact quotient of units that is rounded once.  All bounds on
results come from two facts about that rounding: it keeps the order, and it leaves alone what the
format holds.  So a quotient between two numbers of the format is rounded to one between them.

* `nearestEven_mono`, `Binary64.onGrid_mono`: rounding keeps the order of quotients.
* `Binary64.onGrid_mul_self`: what is on the grid stays where it is.
* `Binary64.onGrid_error`: the relative error is at most `2 ^ -53`, from `2 ^ 52` units on;
  `Binary64.onGrid_mul_error` for whole numbers of units of any size.
* `Binary64.Within x a b`: `x` is finite and lies between `a` and `b` units.
* `Binary64.within_round`: a quotient between numbers of the format is rounded to one between them.
-/

/-! ### The nearest integer -/

/-- The floor keeps the order of quotients. -/
theorem div_mono {n d n' d' : Nat} (hd : 0 < d) (hd' : 0 < d') (h : n * d' ≤ n' * d) :
    n / d ≤ n' / d' := by
  rw [Nat.le_div_iff_mul_le hd']
  apply Nat.le_of_mul_le_mul_right _ hd
  calc n / d * d' * d = n / d * d * d' := by ring
    _ ≤ n * d' := Nat.mul_le_mul_right d' (Nat.div_mul_le_self n d)
    _ ≤ n' * d := h

/-- The larger one of two fractions is not below one half, or not at one half, if the smaller one
    is not. -/
theorem half_mono {r d r' d' : Nat} (hd : 0 < d) (hd' : 0 < d') (h : r * d' ≤ r' * d) :
    (d ≤ 2 * r → d' ≤ 2 * r') ∧ (d < 2 * r → d' < 2 * r') := by
  have hdouble : 2 * r * d' ≤ 2 * r' * d := by
    rw [Nat.mul_assoc, Nat.mul_assoc]
    exact Nat.mul_le_mul_left 2 h
  constructor
  · intro hle
    apply Nat.le_of_mul_le_mul_right _ hd
    calc d' * d = d * d' := Nat.mul_comm d' d
      _ ≤ 2 * r * d' := Nat.mul_le_mul_right d' hle
      _ ≤ 2 * r' * d := hdouble
  · intro hlt
    apply Nat.lt_of_mul_lt_mul_right (a := d)
    calc d' * d = d * d' := Nat.mul_comm d' d
      _ < 2 * r * d' := Nat.mul_lt_mul_of_pos_right hlt hd'
      _ ≤ 2 * r' * d := hdouble

/-- **The nearest integer keeps the order.**  With equal floors the remainders decide, and on a tie
    both go the same way. -/
theorem nearestEven_mono {n d n' d' : Nat} (hd : 0 < d) (hd' : 0 < d') (h : n * d' ≤ n' * d) :
    nearestEven n d ≤ nearestEven n' d' := by
  have hfloor : n / d ≤ n' / d' := div_mono hd hd' h
  rcases Nat.lt_or_eq_of_le hfloor with hlt | heq
  · have hle : nearestEven n d ≤ n' / d' := nearestEven_le hlt
    rcases nearestEven_eq_or n' d' with e | e <;> omega
  · have hrest : n % d * d' ≤ n' % d' * d := by
      have hn : n / d * d + n % d = n := Nat.div_add_mod' n d
      have hn' : n / d * d' + n' % d' = n' := by rw [heq]; exact Nat.div_add_mod' n' d'
      have hsplit : (n / d * d + n % d) * d' ≤ (n / d * d' + n' % d') * d := by
        rw [hn, hn']
        exact h
      have hcomm : n / d * d * d' = n / d * d' * d := by ring
      rw [Nat.add_mul, Nat.add_mul, hcomm] at hsplit
      omega
    obtain ⟨hhalf, hmore⟩ := half_mono hd hd' hrest
    simp only [nearestEven, ← heq]
    generalize n / d = q
    by_cases hbelow : 2 * (n % d) < d
    · rw [if_pos hbelow]
      split
      · exact Nat.le_refl q
      · split <;> omega
    · have hle := hhalf (by omega)
      rw [if_neg hbelow, if_neg (by omega : ¬ 2 * (n' % d') < d')]
      by_cases habove : d < 2 * (n % d)
      · rw [if_pos habove, if_pos (hmore habove)]
      · rw [if_neg habove]
        split <;> omega

/-- Two integers whose multiples are less than one multiple apart are the same. -/
theorem eq_of_mul_near {a b d : Nat} (hlower : a * d < b * d + d) (hupper : b * d < a * d + d) :
    a = b := by
  have hle : a < b + 1 := by
    apply Nat.lt_of_mul_lt_mul_right (a := d)
    rwa [Nat.succ_mul]
  have hge : b < a + 1 := by
    apply Nat.lt_of_mul_lt_mul_right (a := d)
    rwa [Nat.succ_mul]
  omega

/-- What is less than half a unit away from an integer is rounded to it. -/
theorem nearestEven_eq_of_near {n d m : Nat} (hd : 0 < d) (hlower : 2 * (m * d) < 2 * n + d)
    (hupper : 2 * n < 2 * (m * d) + d) : nearestEven n d = m := by
  have hle := nearestEven_upper n d
  have hge := nearestEven_lower n d hd
  exact eq_of_mul_near (d := d) (by omega) (by omega)

namespace Binary64

/-! ### The grid -/

/-- The spacing grows with the size. -/
theorem spacing_mono {u v : Nat} (h : u ≤ v) : spacing u ≤ spacing v := by
  rcases Nat.eq_zero_or_pos u with hu | hu
  · simp [hu, spacing]
  · have hle : 2 ^ u.log2 ≤ v := Nat.le_trans (Nat.log2_self_le (Nat.ne_of_gt hu)) h
    have hlog : u.log2 ≤ v.log2 := (Nat.le_log2 (Nat.ne_of_gt (Nat.lt_of_lt_of_le hu h))).2 hle
    exact Nat.sub_le_sub_right hlog 52

/-- Each number has less than `2 ^ 53` steps of its own grid. -/
theorem lt_two_pow_spacing (u : Nat) : u < 2 ^ (53 + spacing u) := by
  rcases Nat.eq_zero_or_pos u with rfl | hu
  · exact Nat.two_pow_pos _
  · apply (Nat.log2_lt (Nat.ne_of_gt hu)).1
    unfold spacing
    omega

/-- What is on the grid from `2 ^ 52` steps on is a number of these steps. -/
theorem two_pow_dvd_of_le {u k : Nat} (h : 2 ^ spacing u ∣ u) (hle : 2 ^ (52 + k) ≤ u) :
    2 ^ k ∣ u := by
  have hpos : 0 < u := Nat.lt_of_lt_of_le (Nat.two_pow_pos _) hle
  have hlog : 52 + k ≤ u.log2 := (Nat.le_log2 (Nat.ne_of_gt hpos)).2 hle
  have hspacing : k ≤ spacing u := by
    unfold spacing
    omega
  exact Nat.dvd_trans (Nat.pow_dvd_pow 2 hspacing) h

/-- Nothing is rounded to nothing. -/
theorem onGrid_zero (d : Nat) : onGrid 0 d = 0 := by
  simp [onGrid, nearestEven]

/-- **What is on the grid stays where it is.** -/
theorem onGrid_mul_self {u d : Nat} (hd : 0 < d) (h : 2 ^ spacing u ∣ u) :
    onGrid (u * d) d = u := by
  unfold onGrid
  rw [Nat.mul_div_cancel _ hd]
  generalize spacing u = k at h
  obtain ⟨m, rfl⟩ := h
  have hcomm : 2 ^ k * m * d = m * (d * 2 ^ k) := by ring
  show nearestEven (2 ^ k * m * d) (d * 2 ^ k) * 2 ^ k = 2 ^ k * m
  rw [hcomm, nearestEven_mul_self m _ (Nat.mul_pos hd (Nat.two_pow_pos k)), Nat.mul_comm]

/-- A coarse part of the grid is far from zero. -/
theorem two_pow_le_of_spacing_pos {u : Nat} (h : 0 < spacing u) : 2 ^ (52 + spacing u) ≤ u := by
  have hlog : 52 + spacing u = u.log2 := by
    unfold spacing at h ⊢
    omega
  have hne : u ≠ 0 := by
    rintro rfl
    exact absurd h (by decide)
  rw [hlog]
  exact Nat.log2_self_le hne

/-- What is rounded on a coarse part of the grid is large. -/
theorem le_onGrid_of_spacing_pos {n d : Nat} (h : 0 < spacing (n / d)) :
    2 ^ (52 + spacing (n / d)) ≤ onGrid n d := by
  have hsteps : 2 ^ 52 ≤ n / (d * 2 ^ spacing (n / d)) := by
    rw [← Nat.div_div_eq_div_mul, Nat.le_div_iff_mul_le (Nat.two_pow_pos _), ← Nat.pow_add]
    exact two_pow_le_of_spacing_pos h
  rw [Nat.pow_add]
  apply Nat.mul_le_mul_right
  rcases nearestEven_eq_or n (d * 2 ^ spacing (n / d)) with e | e <;> rw [e] <;> omega

/-- **Rounding to the grid keeps the order.**  Where the spacing changes, a power of two lies
    between the two results. -/
theorem onGrid_mono {n d n' d' : Nat} (hd : 0 < d) (hd' : 0 < d') (h : n * d' ≤ n' * d) :
    onGrid n d ≤ onGrid n' d' := by
  have hfloor : n / d ≤ n' / d' := div_mono hd hd' h
  rcases Nat.lt_or_eq_of_le (spacing_mono hfloor) with hlt | heq
  · have hupper : nearestEven n (d * 2 ^ spacing (n / d)) ≤ 2 ^ 53 :=
      nearestEven_le (div_mul_two_pow_spacing_lt n d)
    calc onGrid n d ≤ 2 ^ 53 * 2 ^ spacing (n / d) := Nat.mul_le_mul_right _ hupper
      _ = 2 ^ (53 + spacing (n / d)) := (Nat.pow_add 2 53 _).symm
      _ ≤ 2 ^ (52 + spacing (n' / d')) := Nat.pow_le_pow_right (by decide) (by omega)
      _ ≤ onGrid n' d' := le_onGrid_of_spacing_pos (by omega)
  · unfold onGrid
    rw [heq]
    generalize spacing (n' / d') = k
    apply Nat.mul_le_mul_right
    have hpow : 0 < 2 ^ k := Nat.two_pow_pos k
    apply nearestEven_mono (Nat.mul_pos hd hpow) (Nat.mul_pos hd' hpow)
    calc n * (d' * 2 ^ k) = n * d' * 2 ^ k := by ring
      _ ≤ n' * d * 2 ^ k := Nat.mul_le_mul_right _ h
      _ = n' * (d * 2 ^ k) := by ring

/-- How a quotient is written makes no difference to what it is rounded to. -/
theorem onGrid_congr {n d n' d' : Nat} (hd : 0 < d) (hd' : 0 < d') (h : n * d' = n' * d) :
    onGrid n d = onGrid n' d' :=
  Nat.le_antisymm (onGrid_mono hd hd' (Nat.le_of_eq h)) (onGrid_mono hd' hd (Nat.le_of_eq h.symm))

/-- The same for doubles. -/
theorem round_congr (negative : Bool) {n d n' d' : Nat} (hd : 0 < d) (hd' : 0 < d')
    (h : n * d' = n' * d) : round negative n d = round negative n' d' := by
  simp only [round, onGrid_congr hd hd' h]

/-- The rounded quotient in steps of the grid at its size. -/
theorem onGrid_mul_eq (n d : Nat) : onGrid n d * d =
    nearestEven n (d * 2 ^ spacing (n / d)) * (d * 2 ^ spacing (n / d)) := by
  unfold onGrid
  ring

/-- Rounding is off by half a step at most. -/
theorem onGrid_half_step {n d : Nat} (hd : 0 < d) :
    2 * (onGrid n d * d) ≤ 2 * n + d * 2 ^ spacing (n / d) ∧
      2 * n ≤ 2 * (onGrid n d * d) + d * 2 ^ spacing (n / d) := by
  rw [onGrid_mul_eq]
  exact ⟨nearestEven_upper n _, nearestEven_lower n _ (Nat.mul_pos hd (Nat.two_pow_pos _))⟩

/-- **The relative error** of rounding is at most `2 ^ -53`, from the size on at which a number has
    53 significant bits. -/
theorem onGrid_error {n d : Nat} (hd : 0 < d) (h : 2 ^ 52 * d ≤ n) :
    2 ^ 53 * (onGrid n d * d) ≤ 2 ^ 53 * n + n ∧ 2 ^ 53 * n ≤ 2 ^ 53 * (onGrid n d * d) + n := by
  have hlog : (n / d).log2 = 52 + spacing (n / d) := by
    have hle : 2 ^ 52 ≤ n / d := (Nat.le_div_iff_mul_le hd).2 h
    have hbits : 52 ≤ (n / d).log2 := (Nat.le_log2 (by omega)).2 hle
    simp only [spacing]
    omega
  -- Half a step is at most this part of the quotient.
  have hstep : 2 ^ 52 * (d * 2 ^ spacing (n / d)) ≤ n := by
    have hne : n / d ≠ 0 := by
      intro h0
      rw [h0, Nat.log2_zero] at hlog
      omega
    calc 2 ^ 52 * (d * 2 ^ spacing (n / d)) = 2 ^ (52 + spacing (n / d)) * d := by
          rw [Nat.pow_add]; ring
      _ ≤ n / d * d := Nat.mul_le_mul_right d (hlog ▸ Nat.log2_self_le hne)
      _ ≤ n := Nat.div_mul_le_self n d
  obtain ⟨hupper, hlower⟩ := onGrid_half_step (n := n) hd
  omega

/-- A whole number of units is rounded with a relative error of at most `2 ^ -53`, whatever its
    size. -/
theorem onGrid_mul_error {u d : Nat} (hd : 0 < d) :
    2 ^ 53 * onGrid (u * d) d ≤ 2 ^ 53 * u + u ∧ 2 ^ 53 * u ≤ 2 ^ 53 * onGrid (u * d) d + u := by
  by_cases hu : 2 ^ 52 ≤ u
  · obtain ⟨hupper, hlower⟩ := onGrid_error hd (Nat.mul_le_mul_right d hu)
    constructor
    · apply Nat.le_of_mul_le_mul_right _ hd
      rw [Nat.add_mul, Nat.mul_assoc, Nat.mul_assoc]
      exact hupper
    · apply Nat.le_of_mul_le_mul_right _ hd
      rw [Nat.add_mul, Nat.mul_assoc, Nat.mul_assoc]
      exact hlower
  · -- Below that a number is on the grid.
    have hspacing : spacing u = 0 := by
      rcases Nat.eq_zero_or_pos u with rfl | hpos
      · rfl
      · have hlog : u.log2 < 52 := (Nat.log2_lt (Nat.ne_of_gt hpos)).2 (by omega)
        unfold spacing
        omega
    have hgrid : 2 ^ spacing u ∣ u := by
      rw [hspacing]
      exact Nat.one_dvd u
    rw [onGrid_mul_self hd hgrid]
    omega

/-! ### Signed numbers of units -/

/-- The magnitude of a signed number of units. -/
@[simp] theorem natAbs_signed (negative : Bool) (u : Nat) : (signed negative u).natAbs = u := by
  cases negative <;> simp [signed]

/-- A number of units with its own sign. -/
theorem signed_natAbs (z : Int) : signed (z < 0) z.natAbs = z := by
  unfold signed
  by_cases hz : z < 0
  · rw [decide_eq_true hz, if_pos rfl]
    omega
  · rw [decide_eq_false hz, if_neg Bool.false_ne_true]
    omega

/-- Signs multiply. -/
theorem signed_mul_signed (negative negative' : Bool) (u v : Nat) :
    signed negative u * signed negative' v = signed (negative != negative') (u * v) := by
  cases negative <;> cases negative' <;> simp [signed]

/-- A sign passes through a product with a magnitude. -/
theorem signed_mul (negative : Bool) (u v : Nat) :
    signed negative (u * v) = signed negative u * v := by
  cases negative <;> simp [signed]

/-- A sign on both sides of a distance goes. -/
theorem natAbs_signed_sub (negative : Bool) (u v : Nat) :
    (signed negative u - signed negative v).natAbs = ((u : Int) - v).natAbs := by
  cases negative <;> simp only [signed, Bool.false_eq_true, if_true, if_false]
  omega

/-- What has units is finite. -/
theorem exists_finite_of_signedUnits? {x : Binary64} {m : Int} (h : x.signedUnits? = some m) :
    ∃ negative u, ∃ hu : Representable u, x = finite negative u hu ∧ signed negative u = m := by
  cases x with
  | nan => cases h
  | infinity negative => cases h
  | finite negative u hu => exact ⟨negative, u, hu, rfl, Option.some.inj h⟩

/-- Units of a number are units of the format. -/
theorem representable_of_signedUnits? {x : Binary64} {m : Int} (hx : x.signedUnits? = some m) :
    Representable m.natAbs := by
  obtain ⟨negative, u, hu, -, rfl⟩ := exists_finite_of_signedUnits? hx
  rwa [natAbs_signed]

/-- The signed number of units to which a signed quotient of units is rounded. -/
def roundedUnits (z : Int) (d : Nat) : Int := signed (z < 0) (onGrid z.natAbs d)

/-- The sign of a zero makes no difference to what it is rounded to. -/
theorem roundedUnits_signed (negative : Bool) (u d : Nat) :
    roundedUnits (signed negative u) d = signed negative (onGrid u d) := by
  unfold roundedUnits
  rw [natAbs_signed]
  rcases Nat.eq_zero_or_pos u with rfl | hu
  · rw [onGrid_zero]
    cases negative <;> rfl
  · have hsign : decide (signed negative u < 0) = negative := by
      cases negative
      · exact decide_eq_false (by simp [signed])
      · exact decide_eq_true (by simp only [signed, if_true]; omega)
    rw [hsign]

/-- What the format holds stays where it is. -/
theorem roundedUnits_mul_self {z : Int} {d : Nat} (hd : 0 < d) (h : Representable z.natAbs) :
    roundedUnits (z * d) d = z := by
  have hsign : z * d < 0 ↔ z < 0 := by
    have hd' : (0 : Int) < d := by exact_mod_cast hd
    constructor
    · intro hz
      by_contra hnot
      have hmul : 0 ≤ z * d := Int.mul_nonneg (by omega) (by omega)
      omega
    · intro hz
      exact Int.mul_neg_of_neg_of_pos hz hd'
  unfold roundedUnits
  rw [Int.natAbs_mul, Int.natAbs_natCast, onGrid_mul_self hd h.2, decide_eq_decide.2 hsign]
  exact signed_natAbs z

/-- **Rounding keeps the order of signed quotients.** -/
theorem roundedUnits_mono {z z' : Int} {d d' : Nat} (hd : 0 < d) (hd' : 0 < d')
    (h : z * d' ≤ z' * d) : roundedUnits z d ≤ roundedUnits z' d' := by
  unfold roundedUnits signed
  by_cases hz : z < 0
  · rw [decide_eq_true hz, if_pos rfl]
    by_cases hz' : z' < 0
    · -- Both are negative, so the magnitudes are in the other order.
      have habs : (z'.natAbs : Int) * d ≤ z.natAbs * d' := by
        rw [Int.ofNat_natAbs_of_nonpos (Int.le_of_lt hz),
          Int.ofNat_natAbs_of_nonpos (Int.le_of_lt hz'), Int.neg_mul, Int.neg_mul]
        exact Int.neg_le_neg h
      have hmono := onGrid_mono hd' hd (by exact_mod_cast habs)
      rw [decide_eq_true hz', if_pos rfl]
      omega
    · rw [decide_eq_false hz', if_neg Bool.false_ne_true]
      omega
  · have hz' : ¬ z' < 0 := by
      intro hneg
      have hlt : z' * d < 0 := Int.mul_neg_of_neg_of_pos hneg (by exact_mod_cast hd)
      have hge : 0 ≤ z * d' := Int.mul_nonneg (by omega) (by omega)
      omega
    have habs : (z.natAbs : Int) * d' ≤ z'.natAbs * d := by
      rw [Int.natAbs_of_nonneg (by omega), Int.natAbs_of_nonneg (by omega)]
      exact h
    have hmono := onGrid_mono hd hd' (by exact_mod_cast habs)
    rw [decide_eq_false hz, decide_eq_false hz', if_neg Bool.false_ne_true,
      if_neg Bool.false_ne_true]
    omega

/-- A rounded quotient below the limit, in units. -/
theorem signedUnits?_round {negative : Bool} {n d : Nat} (h : onGrid n d < limit) :
    (round negative n d).signedUnits? = some (signed negative (onGrid n d)) := by
  unfold round
  rw [dif_pos h]
  rfl

/-- The units of a rounded quotient, if it is finite. -/
theorem units_of_round {negative : Bool} {u d : Nat} {m : Int}
    (h : (round negative u d).signedUnits? = some m) : m = signed negative (onGrid u d) := by
  unfold round at h
  split at h
  · exact (Option.some.inj h).symm
  · cases h

/-- **The error of a signed number of units** is a part of `2 ^ 53` at most, whatever its size. -/
theorem roundedUnits_error (z : Int) {d : Nat} (hd : 0 < d) :
    2 ^ 53 * (roundedUnits (z * d) d - z).natAbs ≤ z.natAbs := by
  obtain ⟨hupper, hlower⟩ := onGrid_mul_error (u := z.natAbs) hd
  have hproduct : z * d = signed (z < 0) (z.natAbs * d) := by rw [signed_mul, signed_natAbs]
  have hdistance := natAbs_signed_sub (z < 0) (onGrid (z.natAbs * d) d) z.natAbs
  rw [signed_natAbs] at hdistance
  rw [hproduct, roundedUnits_signed, hdistance]
  omega

/-! ### Bounds on results -/

/-- A finite number between two bounds, in units. -/
def Within (x : Binary64) (a b : Int) : Prop := ∃ m, x.signedUnits? = some m ∧ a ≤ m ∧ m ≤ b

/-- **Between numbers of the format rounding stays between them.** -/
theorem within_round {negative : Bool} {u d : Nat} {a b : Int} (hd : 0 < d)
    (ha : Representable a.natAbs) (hb : Representable b.natAbs)
    (hlower : a * d ≤ signed negative u) (hupper : signed negative u ≤ b * d) :
    Within (round negative u d) a b := by
  have hge : a ≤ roundedUnits (signed negative u) d := by
    rw [← roundedUnits_mul_self (d := d) hd ha]
    exact roundedUnits_mono hd hd (Int.mul_le_mul_of_nonneg_right hlower (by omega))
  have hle : roundedUnits (signed negative u) d ≤ b := by
    rw [← roundedUnits_mul_self (d := d) hd hb]
    exact roundedUnits_mono hd hd (Int.mul_le_mul_of_nonneg_right hupper (by omega))
  rw [roundedUnits_signed] at hge hle
  have hlimit : onGrid u d < limit := by
    have habs : (signed negative (onGrid u d)).natAbs = onGrid u d := natAbs_signed _ _
    have hlower := ha.1
    have hupper := hb.1
    omega
  exact ⟨signed negative (onGrid u d), signedUnits?_round hlimit, hge, hle⟩

/-- Bounds that meet leave one number. -/
theorem within_self_iff {x : Binary64} {a : Int} : Within x a a ↔ x.signedUnits? = some a := by
  constructor
  · rintro ⟨m, hm, hle, hge⟩
    rw [hm, Int.le_antisymm hge hle]
  · intro h
    exact ⟨a, h, Int.le_refl a, Int.le_refl a⟩

/-- Wider bounds hold too. -/
theorem Within.mono {x : Binary64} {a b a' b' : Int} (h : Within x a b) (ha : a' ≤ a)
    (hb : b ≤ b') : Within x a' b' := by
  obtain ⟨m, hm, hle, hge⟩ := h
  exact ⟨m, hm, Int.le_trans ha hle, Int.le_trans hge hb⟩

/-- Up to `2 ^ 53` steps of a power of two are in the format, if that power is. -/
theorem representable_mul_two_pow {m : Int} {k : Nat} (hm : m.natAbs ≤ 2 ^ 53) (hk : k ≤ 2044) :
    Representable (m * (2 ^ k : Nat)).natAbs := by
  rw [Int.natAbs_mul, Int.natAbs_natCast]
  refine ⟨?_, two_pow_spacing_dvd k hm⟩
  calc m.natAbs * 2 ^ k ≤ 2 ^ 53 * 2 ^ k := Nat.mul_le_mul_right _ hm
    _ = 2 ^ (53 + k) := (Nat.pow_add 2 53 k).symm
    _ < limit := by
      rw [limit, Nat.pow_lt_pow_iff_right (by decide)]
      omega

end Binary64

end Reckoner
