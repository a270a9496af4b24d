import Reckoner.Proofs.Binary64.Nearest
import Reckoner.Proofs.Calculator.RoundTrip

namespace Reckoner.Display

open Binary64

/-!
# The number that is shown

The floor of the scaled number with its half is divided by the scale, rounded to a double and
printed with its places.  What is printed is again a number of last places, settled by the units of
the double and the precision alone.

* `scaledUnits p m`, `scaledFloor p m`: the scaled number and the floor for `m` units.
* `printedMagnitude p a`, `printed p n`: the number of last places that is printed for the floor.
* `shownPlaces p m`: the number of last places that is shown of `m` units.
* `canonical_finiteText`, `format_eq_printed`, `format_eq_shown`: the text that is shown is the
  canonical text of these places.
* `exists_rounded`: the double that is printed.
* `printed_error`: what is printed is off from the floor by a part of `2 ^ 52` at most.
* `printed_mono`, `printed_mul_scale`: it keeps the order, and integers stay.
* `not_dvd_nearestEven_onGrid`: a double that is not integral is not printed as an integer.
-/

variable {p : Precision} {x : Binary64} {m n : Int}

/-- The product of `m` units with the scale, in units. -/
def scaledUnits (p : Precision) (m : Int) : Int :=
  roundedUnits (m * (10 ^ p.val : Nat) * perOne) perOne

/-- The floor of the product of `m` units with the scale and one half. -/
def scaledFloor (p : Precision) (m : Int) : Int :=
  roundedUnits (scaledUnits p m + (perOne / 2 : Nat)) 1 / perOne

/-- How many last places are printed for a magnitude of `a` last places: the double nearest to
    `a / 10 ^ p`, taken to the nearest number with `p` places. -/
def printedMagnitude (p : Precision) (a : Nat) : Nat :=
  nearestEven (onGrid (a * perOne) (10 ^ p.val) * 10 ^ p.val) perOne

/-- The same for the floor `n` of a scaled number, with its sign. -/
def printed (p : Precision) (n : Int) : Int := signed (n < 0) (printedMagnitude p n.natAbs)

/-- How many last places are shown of `m` units: an integer is exact. -/
def shownPlaces (p : Precision) (m : Int) : Int :=
  if (perOne : Int) ∣ m then m / perOne * (10 ^ p.val : Nat) else printed p (scaledFloor p m)

/-! ### The text -/

/-- A signed multiple by that number. -/
theorem signed_mul_div (negative : Bool) (c : Nat) {d : Nat} (hd : 0 < d) :
    ((signed negative (c * d) : Int) : Rat) / d = signed negative c := by
  have hne : (d : Rat) ≠ 0 := by exact_mod_cast Nat.ne_of_gt hd
  rw [signed_mul, Int.cast_mul, Int.cast_natCast, mul_div_cancel_right₀ _ hne]

/-- **The text of a finite number is canonical** and denotes the number nearest to it with the given
    places, if it is not a fraction that is printed as zero. -/
theorem canonical_finiteText {p : Precision} (negative : Bool) {u n : Nat}
    (hplaces : p.val = 0 → perOne ∣ u) (hn : nearestEven (u * 10 ^ p.val) perOne = n)
    (hpos : ¬ perOne ∣ u → 0 < n) :
    Decimal.Canonical (finiteText p negative u).toList
      (signed negative n / (10 ^ p.val : Nat)) := by
  unfold finiteText
  by_cases hdvd : perOne ∣ u
  · rw [if_pos (Nat.mod_eq_zero_of_dvd hdvd)]
    obtain ⟨c, hc⟩ := hdvd
    have hunits : signed negative u = signed negative c * perOne := by
      rw [hc, Nat.mul_comm, signed_mul]
    have hscaled : n = c * 10 ^ p.val := by
      rw [← hn, hc, Nat.mul_assoc, Nat.mul_comm]
      exact nearestEven_mul_self _ _ perOne_pos
    unfold integerText
    rw [hscaled, signed_mul_div negative c (Nat.pow_pos (by decide)), hunits,
      Int.mul_ediv_cancel _ perOne_pos_int.ne']
    exact Decimal.canonical_toString _
  · rw [if_neg (fun hmod => hdvd (Nat.dvd_of_mod_eq_zero hmod))]
    exact canonical_fractionText negative (fun hp => hdvd (hplaces hp)) hn (hpos hdvd)

/-- What is off by a part of `2 ^ 53` and then taken to the nearest integer. -/
theorem nearestEven_error {one u d a : Nat} (hone : 0 < one)
    (hupper : 2 ^ 53 * (u * d) ≤ 2 ^ 53 * (a * one) + a * one)
    (hlower : 2 ^ 53 * (a * one) ≤ 2 ^ 53 * (u * d) + a * one) :
    2 ^ 52 * nearestEven (u * d) one ≤ 2 ^ 52 * a + a ∧
      2 ^ 52 * a ≤ 2 ^ 52 * nearestEven (u * d) one + a := by
  have habove := nearestEven_upper (u * d) one
  have hbelow := nearestEven_lower (u * d) one hone
  generalize nearestEven (u * d) one = n at habove hbelow
  have hle : 2 ^ 53 * n ≤ 2 ^ 53 * a + a + 2 ^ 52 := by
    apply Nat.le_of_mul_le_mul_right _ hone
    linarith
  have hge : 2 ^ 53 * a ≤ 2 ^ 53 * n + a + 2 ^ 52 := by
    apply Nat.le_of_mul_le_mul_right _ hone
    linarith
  -- Below `2 ^ 52` the two errors make less than one, so there is none.
  by_cases ha : a < 2 ^ 52
  · have hsame : n = a := by omega
    omega
  · omega

/-- **The printed number is off** by a part of `2 ^ 52` at most, so it is exact below `2 ^ 52`. -/
theorem printed_error (p : Precision) (n : Int) :
    2 ^ 52 * (printed p n - n).natAbs ≤ n.natAbs := by
  obtain ⟨habove, hbelow⟩ :=
    onGrid_scale_error (a := n.natAbs) (Nat.pow_pos (by decide)) (ten_pow_le p)
  obtain ⟨hupper, hlower⟩ := nearestEven_error perOne_pos habove hbelow
  have hdistance := natAbs_signed_sub (n < 0) (printedMagnitude p n.natAbs) n.natAbs
  rw [signed_natAbs] at hdistance
  show 2 ^ 52 * (signed (n < 0) (printedMagnitude p n.natAbs) - n).natAbs ≤ n.natAbs
  rw [hdistance, printedMagnitude]
  omega

/-- **Rounding to some places** gives the double nearest to the floor by the scale. -/
theorem exists_rounded (hx : x.signedUnits? = some m) (hm : m.natAbs ≤ 2 ^ 52 * perOne)
    (hfloor : ((x.mul (ofInt (10 ^ p.val))).add half).floor? = some n) :
    ∃ h : Representable (onGrid (n.natAbs * perOne) (10 ^ p.val)),
      roundedHalfUp p x = finite (n < 0) (onGrid (n.natAbs * perOne) (10 ^ p.val)) h ∧
      (p.val = 0 → perOne ∣ onGrid (n.natAbs * perOne) (10 ^ p.val)) := by
  obtain ⟨r, hr, -⟩ := within_roundedHalfUp p hx hm
  obtain ⟨negative, u, hu, hrounded, -⟩ := exists_finite_of_signedUnits? hr
  have hratio : ofRatio n (10 ^ p.val) = finite negative u hu := by
    rw [← roundedHalfUp_of_floor? hfloor, hrounded]
  obtain ⟨rfl, rfl⟩ := ofRatio_eq_finite hratio
  refine ⟨hu, hrounded, ?_⟩
  -- With no places the rounded number is the double next to an integer.
  intro hp
  rw [hp, Nat.pow_zero]
  exact perOne_dvd_onGrid n.natAbs

/-- **What is shown once the floor is taken** is the canonical text of the printed number. -/
theorem format_eq_printed (hx : x.signedUnits? = some m) (hint : x.isIntegral = false)
    (hm : m.natAbs ≤ 2 ^ 52 * perOne)
    (hfloor : ((x.mul (ofInt (10 ^ p.val))).add half).floor? = some n) :
    ∃ text, format p x = .ok text ∧
      Decimal.Canonical text.toList (printed p n / (10 ^ p.val : Nat)) := by
  obtain ⟨h, hrounded, hplaces⟩ := exists_rounded hx hm hfloor
  refine ⟨_, format_of_rounded hint hrounded, canonical_finiteText _ hplaces rfl ?_⟩
  -- A fraction does not come from zero, so it is not printed as zero.
  intro hdvd
  have hne : n.natAbs ≠ 0 := by
    intro hzero
    rw [hzero, Nat.zero_mul, onGrid_zero] at hdvd
    exact hdvd (Nat.dvd_zero _)
  have herror := printed_error p n
  have hsize : (printed p n).natAbs = printedMagnitude p n.natAbs := natAbs_signed _ _
  show 0 < printedMagnitude p n.natAbs
  omega

/-- **The floor** that is taken is settled by the units. -/
theorem floor?_eq_scaledFloor (hx : x.signedUnits? = some m) (hm : m.natAbs ≤ 2 ^ 52 * perOne) :
    ((x.mul (ofInt (10 ^ p.val))).add half).floor? = some (scaledFloor p m) := by
  obtain ⟨w, hw, -⟩ := within_product p hx hm
  obtain ⟨z, hz, -⟩ := within_scaled p hx hm
  obtain ⟨h, hone, hh⟩ := signedUnits?_half
  have hhalf : perOne / 2 = h := by omega
  rw [floor?_of_signedUnits? hz, units_add hw hh hz, units_mul hx (signedUnits?_scale p) hw,
    ← Int.mul_assoc, scaledFloor, scaledUnits, hhalf]

/-- **What is shown** of a finite double is the canonical text of its shown places. -/
theorem format_eq_shown (p : Precision) (hx : x.signedUnits? = some m) :
    ∃ text, format p x = .ok text ∧
      Decimal.Canonical text.toList (shownPlaces p m / (10 ^ p.val : Nat)) := by
  unfold shownPlaces
  by_cases hdvd : (perOne : Int) ∣ m
  · have hne : ((10 ^ p.val : Nat) : Rat) ≠ 0 := by positivity
    rw [if_pos hdvd, Int.cast_mul, Int.cast_natCast, mul_div_cancel_right₀ _ hne]
    refine ⟨toString (m / (perOne : Int)), format_of_integral ?_, Decimal.canonical_toString _⟩
    rw [Int.ediv_mul_cancel hdvd]
    exact hx
  · rw [if_neg hdvd]
    have hfraction : x.isIntegral = false := by rwa [Bool.eq_false_iff, Ne, isIntegral_iff hx]
    have hsize : m.natAbs ≤ 2 ^ 52 * perOne := natAbs_le_of_not_integral hx hfraction
    exact format_eq_printed hx hfraction hsize (floor?_eq_scaledFloor hx hsize)

/-! ### Order and integers -/

/-- What keeps the order of magnitudes keeps the order of numbers with their signs. -/
theorem signed_mono {g : Nat → Nat} (hg : Monotone g) {a b : Int} (h : a ≤ b) :
    signed (a < 0) (g a.natAbs) ≤ signed (b < 0) (g b.natAbs) := by
  by_cases ha : a < 0
  · rw [decide_eq_true ha, signed, if_pos rfl]
    by_cases hb : b < 0
    · have hle : g b.natAbs ≤ g a.natAbs := hg (by omega)
      rw [decide_eq_true hb, signed, if_pos rfl]
      omega
    · rw [decide_eq_false hb, signed, if_neg Bool.false_ne_true]
      omega
  · have hle : g a.natAbs ≤ g b.natAbs := hg (by omega)
    rw [decide_eq_false ha, decide_eq_false (by omega : ¬ b < 0), signed, signed,
      if_neg Bool.false_ne_true, if_neg Bool.false_ne_true]
    omega

/-- Both roundings keep the order. -/
theorem printedMagnitude_mono (p : Precision) {a b : Nat} (h : a ≤ b) :
    printedMagnitude p a ≤ printedMagnitude p b := by
  have hscale : 0 < 10 ^ p.val := Nat.pow_pos (by decide)
  have hgrid : onGrid (a * perOne) (10 ^ p.val) ≤ onGrid (b * perOne) (10 ^ p.val) :=
    onGrid_mono hscale hscale (Nat.mul_le_mul_right _ (Nat.mul_le_mul_right _ h))
  exact nearestEven_mono perOne_pos perOne_pos
    (Nat.mul_le_mul_right _ (Nat.mul_le_mul_right _ hgrid))

/-- **Printing keeps the order of floors.** -/
theorem printed_mono (p : Precision) {a b : Int} (h : a ≤ b) : printed p a ≤ printed p b :=
  signed_mono (fun _ _ => printedMagnitude_mono p) h

/-- **Integers are printed as they are.** -/
theorem printed_mul_scale (p : Precision) {c : Int} (hc : c.natAbs ≤ 2 ^ 53) :
    printed p (c * (10 ^ p.val : Nat)) = c * (10 ^ p.val : Nat) := by
  have hscale : 0 < 10 ^ p.val := Nat.pow_pos (by decide)
  have hinteger : Representable (c.natAbs * perOne) := by
    have hrep := representable_integer hc
    rwa [Int.natAbs_mul, Int.natAbs_natCast] at hrep
  have hsize : (c * (10 ^ p.val : Nat)).natAbs = c.natAbs * 10 ^ p.val := by
    rw [Int.natAbs_mul, Int.natAbs_natCast]
  have hswap : c.natAbs * 10 ^ p.val * perOne = c.natAbs * perOne * 10 ^ p.val := by ring
  have hback : c.natAbs * perOne * 10 ^ p.val = c.natAbs * 10 ^ p.val * perOne := by ring
  unfold printed printedMagnitude
  rw [hsize, hswap, onGrid_mul_self hscale hinteger.2, hback,
    nearestEven_mul_self _ _ perOne_pos, ← hsize, signed_natAbs]

/-! ### Fractions -/

/-- The steps of a grid that holds a fraction are parts of one. -/
theorem two_pow_dvd_perOne {u k : Nat} (hu : 2 ^ k ∣ u) (hfraction : ¬ perOne ∣ u) :
    2 ^ k ∣ perOne := by
  obtain ⟨e, he⟩ : ∃ e, perOne = 2 ^ e := ⟨1074, rfl⟩
  rw [he] at hfraction ⊢
  apply Nat.pow_dvd_pow
  by_contra hlarge
  exact hfraction (Nat.dvd_trans (Nat.pow_dvd_pow 2 (by omega)) hu)

/-- **A double that is not integral is not printed as an integer.**  Its distance from that integer
    is a step of the grid or more, so half a last place would be as much.  Then only the integer
    itself is so near that the quotient by the scale is rounded to the double. -/
theorem not_dvd_nearestEven_onGrid {a s : Nat} (hs : 0 < s)
    (hfraction : ¬ perOne ∣ onGrid (a * perOne) s) :
    ¬ s ∣ nearestEven (onGrid (a * perOne) s * s) perOne := by
  rintro ⟨j, hj⟩
  have hone : 0 < perOne := perOne_pos
  have hgrid : 2 ^ spacing (a * perOne / s) ∣ onGrid (a * perOne) s := Nat.dvd_mul_left _ _
  have hinteger : 2 ^ spacing (a * perOne / s) ∣ j * perOne :=
    Nat.dvd_trans (two_pow_dvd_perOne hgrid hfraction) (Nat.dvd_mul_left _ _)
  obtain ⟨hupper, hlower⟩ := onGrid_half_step (n := a * perOne) hs
  have habove := nearestEven_upper (onGrid (a * perOne) s * s) perOne
  have hbelow := nearestEven_lower (onGrid (a * perOne) s * s) perOne hone
  rw [hj, Nat.mul_comm s j, Nat.mul_right_comm] at habove hbelow
  have hplace : 2 * (s * 2 ^ spacing (a * perOne / s)) ≤ perOne := by
    by_contra hfine
    -- Otherwise the two multiples of the step are less than one step apart.
    have hle : onGrid (a * perOne) s ≤ j * perOne := by
      refine Nat.le_of_lt_add_of_dvd ?_ hgrid hinteger
      apply Nat.lt_of_mul_lt_mul_right (a := s)
      rw [Nat.add_mul, Nat.mul_comm (2 ^ _) s]
      omega
    have hge : j * perOne ≤ onGrid (a * perOne) s := by
      refine Nat.le_of_lt_add_of_dvd ?_ hinteger hgrid
      apply Nat.lt_of_mul_lt_mul_right (a := s)
      rw [Nat.add_mul, Nat.mul_comm (2 ^ _) s]
      omega
    rw [Nat.le_antisymm hle hge] at hfraction
    exact hfraction (Nat.dvd_mul_left perOne j)
  have ha : a = j * s := by
    apply eq_of_mul_near (d := perOne)
    · rw [Nat.mul_right_comm]
      omega
    · rw [Nat.mul_right_comm]
      omega
  apply hfraction
  have hsame : onGrid (a * perOne) s = onGrid (j * perOne) 1 := by
    have hquotient : a * perOne * 1 = j * perOne * s := by
      rw [ha]
      ring
    exact onGrid_congr hs Nat.one_pos hquotient
  rw [hsame]
  exact perOne_dvd_onGrid j

end Reckoner.Display
