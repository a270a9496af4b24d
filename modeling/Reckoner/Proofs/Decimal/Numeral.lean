import Mathlib.Algebra.Order.Field.Rat
import Mathlib.Data.List.DropRight
import Mathlib.Tactic.FieldSimp
import Mathlib.Tactic.Linarith
import Mathlib.Tactic.Positivity
import Mathlib.Tactic.Ring
import Reckoner.Decimal.Printing

namespace Reckoner.Decimal

/-!
# Numerals and the numbers they denote

A numeral without a sign is digits with at most one point.  Many numerals denote the same number,
and one of them is canonical: no zero in front but the one before a point, no zero at the end of a
fraction, no point without a fraction, and a minus before negative numbers only.

* `digitsValue ds`: the number that digits denote.
* `Denotes cs q`: the numeral `cs` denotes the rational number `q`.
* `Canonical cs q`: `cs` is the canonical text of `q`.
* `Canonical.unique`: a number has at most one canonical text.
* `reduced cs`: a numeral without its redundant zeros and point.
* `canonical_reduced`: what is left of a numeral is the canonical text of its number.
-/

/-! ### Digits -/

/-- Decimal digits only. -/
def Digits (ds : List Char) : Prop := ∀ c ∈ ds, c.isDigit = true

instance (ds : List Char) : Decidable (Digits ds) :=
  decidable_of_iff (ds.all Char.isDigit = true) List.all_eq_true

/-- The number that digits denote. -/
def digitsValue (ds : List Char) : Nat := Nat.ofDigitChars 10 ds 0

/-- Digits followed by digits. -/
theorem Digits.append {ds es : List Char} (hds : Digits ds) (hes : Digits es) :
    Digits (ds ++ es) := by
  intro c hc
  rcases List.mem_append.1 hc with hc | hc
  · exact hds c hc
  · exact hes c hc

/-- Digits that are taken from digits. -/
theorem Digits.subset {ds es : List Char} (hes : Digits es) (h : ds ⊆ es) : Digits ds :=
  fun c hc => hes c (h hc)

/-- Digits in front count for as many tens as there are digits behind them. -/
theorem digitsValue_append (ds es : List Char) :
    digitsValue (ds ++ es) = digitsValue ds * 10 ^ es.length + digitsValue es := by
  unfold digitsValue
  rw [Nat.ofDigitChars_append, Nat.ofDigitChars_eq_ofDigitChars_zero, Nat.mul_comm]

/-- A digit and its value. -/
theorem exists_digitChar {c : Char} (h : c.isDigit = true) :
    ∃ d < 10, c = Nat.digitChar d ∧ digitsValue [c] = d := by
  have hrange : 48 ≤ c.toNat ∧ c.toNat ≤ 57 := by
    simpa [Char.isDigit, UInt32.le_iff_toNat_le] using h
  refine ⟨c.toNat - 48, by omega, ?_, ?_⟩
  · apply Char.toNat_inj.1
    rw [Nat.toNat_digitChar_of_lt_ten (by omega)]
    omega
  · rw [digitsValue, Nat.ofDigitChars_cons, Nat.ofDigitChars_nil]
    show 10 * 0 + (c.toNat - 48) = c.toNat - 48
    omega

/-- The value of one digit. -/
theorem digitsValue_digitChar {d : Nat} (h : d < 10) : digitsValue [Nat.digitChar d] = d := by
  rw [digitsValue, Nat.ofDigitChars_cons_digitChar_of_lt_ten h, Nat.ofDigitChars_nil]
  omega

/-- Zeros denote nothing. -/
theorem digitsValue_zeros {ds : List Char} (h : ∀ c ∈ ds, c = '0') : digitsValue ds = 0 := by
  rw [List.eq_replicate_of_mem h, digitsValue, Nat.ofDigitChars_replicate_zero, Nat.mul_zero]

/-- The last digits of a number denote its remainder. -/
theorem digitsValue_lastDigits (places n : Nat) :
    digitsValue (lastDigits places n) = n % 10 ^ places := by
  induction places generalizing n with
  | zero => rw [Nat.pow_zero, Nat.mod_one]; rfl
  | succ places ih =>
    rw [lastDigits, digitsValue_append, ih, digitsValue_digitChar (Nat.mod_lt n (by decide)),
      Nat.pow_succ, Nat.mul_comm (10 ^ places) 10, Nat.mod_mul, List.length_singleton]
    omega

/-- Digits are the last digits of every number that ends in them. -/
theorem lastDigits_append {es : List Char} (ds : List Char) (h : Digits es) :
    lastDigits es.length (digitsValue (ds ++ es)) = es := by
  induction es using List.reverseRecOn with
  | nil => rfl
  | append_singleton es c ih =>
    obtain ⟨d, hd, rfl, hc⟩ := exists_digitChar (h c (by simp))
    have hsplit : digitsValue (ds ++ (es ++ [Nat.digitChar d])) =
        10 * digitsValue (ds ++ es) + d := by
      rw [← List.append_assoc, digitsValue_append, hc, List.length_singleton]
      omega
    rw [List.length_append, List.length_singleton, lastDigits, hsplit]
    have hdiv : (10 * digitsValue (ds ++ es) + d) / 10 = digitsValue (ds ++ es) := by omega
    have hmod : (10 * digitsValue (ds ++ es) + d) % 10 = d := by omega
    rw [hdiv, hmod, ih (h.subset (by simp))]

/-! ### Canonical parts -/

/-- The digits of a number: at least one, and no zero in front of others. -/
structure IsWhole (ds : List Char) : Prop where
  digits : Digits ds
  ne_nil : ds ≠ []
  leading : ds.head? = some '0' → ds = ['0']

/-- The places behind a point, or none at all: no zero at the end. -/
structure IsFraction (fs : List Char) : Prop where
  digits : Digits fs
  trailing : fs.getLast? ≠ some '0'

/-- Digits of a positive number may be followed by another digit. -/
theorem IsWhole.of_concat {ds : List Char} {c : Char} (h : IsWhole (ds ++ [c])) (hne : ds ≠ []) :
    IsWhole ds ∧ 0 < digitsValue ds := by
  have hdigits : Digits ds := h.digits.subset (List.subset_append_left ds [c])
  -- The first digit is not zero, as more than one digit follows.
  have hhead : ds.head? ≠ some '0' := by
    intro hzero
    have hwhole := h.leading (by rw [List.head?_append, hzero]; rfl)
    have hlength := congrArg List.length hwhole
    rw [List.length_append, List.length_singleton, List.length_singleton] at hlength
    exact hne (List.eq_nil_of_length_eq_zero (by omega))
  refine ⟨⟨hdigits, hne, fun hzero => absurd hzero hhead⟩, ?_⟩
  obtain ⟨first, rest, rfl⟩ := List.exists_cons_of_ne_nil hne
  obtain ⟨d, _, rfl, hvalue⟩ := exists_digitChar (hdigits first List.mem_cons_self)
  have hd : d ≠ 0 := by
    rintro rfl
    exact hhead rfl
  have hsplit := digitsValue_append [Nat.digitChar d] rest
  rw [List.singleton_append, hvalue] at hsplit
  rw [hsplit]
  exact Nat.add_pos_left (Nat.mul_pos (Nat.pos_of_ne_zero hd) (Nat.pow_pos (by decide))) _

/-- **Digits without zeros in front are the digits of their number.** -/
theorem IsWhole.toDigits {ds : List Char} (h : IsWhole ds) :
    Nat.toDigits 10 (digitsValue ds) = ds := by
  induction ds using List.reverseRecOn with
  | nil => exact absurd rfl h.ne_nil
  | append_singleton ds c ih =>
    obtain ⟨d, hd, rfl, hc⟩ := exists_digitChar (h.digits c (by simp))
    by_cases hne : ds = []
    · subst hne
      rw [List.nil_append, hc, Nat.toDigits_of_lt_base hd]
    · obtain ⟨hwhole, hpos⟩ := h.of_concat hne
      have hsplit : digitsValue (ds ++ [Nat.digitChar d]) = 10 * digitsValue ds + d := by
        rw [digitsValue_append, hc, List.length_singleton]
        omega
      rw [hsplit, ← Nat.toDigits_append_toDigits (by decide) hpos hd, ih hwhole,
        Nat.toDigits_of_lt_base hd]

/-- The digits of a number have no zero in front. -/
theorem isWhole_toDigits (n : Nat) : IsWhole (Nat.toDigits 10 n) where
  digits := fun _ hc => Nat.isDigit_of_mem_toDigits (by decide) (by decide) hc
  ne_nil := Nat.toDigits_ne_nil
  leading := by
    induction n using Nat.strongRecOn with
    | ind n ih =>
      rw [Nat.toDigits_eq_if (by decide)]
      intro hhead
      by_cases hn : n < 10
      · rw [if_pos hn] at hhead ⊢
        have hzero : n = 0 := by simpa using hhead
        rw [hzero]
        rfl
      · -- A first digit zero would be the first one of a smaller number.
        rw [if_neg hn, List.head?_append_of_ne_nil _ Nat.toDigits_ne_nil] at hhead
        have htens := ih (n / 10) (by omega) hhead
        have hvalue : digitsValue (Nat.toDigits 10 (n / 10)) = n / 10 :=
          Nat.ofDigitChars_ten_toDigits
        rw [htens] at hvalue
        have hnone : digitsValue ['0'] = 0 := rfl
        omega

/-- A fraction that is not empty does not end in zero, so its digits are no multiple of ten. -/
theorem IsFraction.mod_ten {fs : List Char} (h : IsFraction fs) (hne : fs ≠ []) (ds : List Char) :
    digitsValue (ds ++ fs) % 10 ≠ 0 := by
  obtain ⟨es, c, rfl⟩ := (List.eq_nil_or_concat' fs).resolve_left hne
  obtain ⟨d, hd, rfl, hc⟩ := exists_digitChar (h.digits c (by simp))
  have hd0 : d ≠ 0 := by
    rintro rfl
    exact h.trailing (by simp)
  rw [← List.append_assoc, digitsValue_append, hc, List.length_singleton]
  omega

/-! ### The number of a numeral -/

/-- A whole part and a fraction with a point between them, which goes if there is no fraction. -/
def withPoint (ds fs : List Char) : List Char := if fs = [] then ds else ds ++ '.' :: fs

/-- The number of digits of which some are behind the point. -/
def decimalValue (ds fs : List Char) : Rat := digitsValue (ds ++ fs) / (10 ^ fs.length : Nat)

/-- A numeral without a sign, and the number that it denotes: digits with a point before, between or
    behind them, or without a point. -/
inductive Denotes : List Char → Rat → Prop
  | whole {ds : List Char} (digits : Digits ds) (ne_nil : ds ≠ []) :
      Denotes ds (decimalValue ds [])
  | point {ds fs : List Char} (whole : Digits ds) (fraction : Digits fs) (ne_nil : ds ++ fs ≠ []) :
      Denotes (ds ++ '.' :: fs) (decimalValue ds fs)

/-- The canonical text of a number. -/
inductive Canonical : List Char → Rat → Prop
  | unsigned {ds fs : List Char} (whole : IsWhole ds) (fraction : IsFraction fs) :
      Canonical (withPoint ds fs) (decimalValue ds fs)
  | negative {cs : List Char} {q : Rat} (positive : 0 < q) (unsigned : Canonical cs q) :
      Canonical ('-' :: cs) (-q)

/-- What digits denote is not negative. -/
theorem decimalValue_nonneg (ds fs : List Char) : 0 ≤ decimalValue ds fs := by
  unfold decimalValue
  positivity

/-- Digits with places behind the point: the number of the digits by a power of ten. -/
theorem decimalValue_eq_iff {ds fs ds' fs' : List Char} :
    decimalValue ds fs = decimalValue ds' fs' ↔
      digitsValue (ds ++ fs) * 10 ^ fs'.length = digitsValue (ds' ++ fs') * 10 ^ fs.length := by
  have hpow (n : Nat) : ((10 ^ n : Nat) : Rat) ≠ 0 := by
    exact_mod_cast Nat.ne_of_gt (Nat.pow_pos (by decide))
  unfold decimalValue
  rw [div_eq_div_iff (hpow _) (hpow _)]
  exact_mod_cast Iff.rfl

/-- A fraction has no more places than its number needs: further ones would end in zero. -/
theorem IsFraction.length_le {ds fs : List Char} {places : Nat} (h : IsFraction fs)
    (hdvd : 10 ^ fs.length ∣ digitsValue (ds ++ fs) * 10 ^ places) : fs.length ≤ places := by
  by_contra hlt
  have hne : fs ≠ [] := by
    rintro rfl
    simp at hlt
  have hpow : 10 ^ fs.length = 10 * 10 ^ (fs.length - places - 1) * 10 ^ places := by
    rw [← Nat.pow_succ', ← Nat.pow_add]
    congr 1
    omega
  rw [hpow] at hdvd
  have hten := Nat.dvd_of_mul_dvd_mul_right (Nat.pow_pos (by decide)) hdvd
  exact h.mod_ten hne ds (Nat.mod_eq_zero_of_dvd (Nat.dvd_trans (Nat.dvd_mul_right 10 _) hten))

/-- Canonical parts are settled by the number. -/
theorem withPoint_unique {ds fs ds' fs' : List Char} (hds : IsWhole ds) (hfs : IsFraction fs)
    (hds' : IsWhole ds') (hfs' : IsFraction fs') (h : decimalValue ds fs = decimalValue ds' fs') :
    withPoint ds fs = withPoint ds' fs' := by
  have heq := decimalValue_eq_iff.1 h
  have hlength : fs.length = fs'.length :=
    Nat.le_antisymm (hfs.length_le (Dvd.intro_left _ heq.symm))
      (hfs'.length_le (Dvd.intro_left _ heq))
  have hdigits : digitsValue (ds ++ fs) = digitsValue (ds' ++ fs') := by
    rw [hlength] at heq
    exact Nat.eq_of_mul_eq_mul_right (Nat.pow_pos (by decide)) heq
  have hfraction : fs = fs' := by
    rw [← lastDigits_append ds hfs.digits, ← lastDigits_append ds' hfs'.digits, hdigits, hlength]
  subst hfraction
  rw [digitsValue_append, digitsValue_append] at hdigits
  have hwhole : digitsValue ds = digitsValue ds' :=
    Nat.eq_of_mul_eq_mul_right (Nat.pow_pos (by decide)) (Nat.add_right_cancel hdigits)
  have htext : ds = ds' := by rw [← hds.toDigits, ← hds'.toDigits, hwhole]
  rw [htext]

/-- **A number has one canonical text.** -/
theorem Canonical.unique {cs cs' : List Char} {q : Rat} (h : Canonical cs q)
    (h' : Canonical cs' q) : cs = cs' := by
  generalize hq : q = r at h'
  induction h generalizing cs' r with
  | @unsigned ds fs hds hfs =>
    cases h' with
    | unsigned hds' hfs' => exact withPoint_unique hds hfs hds' hfs' hq
    | negative hpos _ =>
      have hnonneg := decimalValue_nonneg ds fs
      linarith
  | @negative cs q hpos _ ih =>
    cases h' with
    | @unsigned ds' fs' _ _ =>
      have hnonneg := decimalValue_nonneg ds' fs'
      linarith
    | negative _ hunsigned => rw [ih _ (neg_inj.1 hq) hunsigned]

/-! ### Redundant zeros -/

/-- Digits without the zeros in front; one zero stays if there is nothing else. -/
def withoutLeading (ds : List Char) : List Char :=
  match ds.dropWhile (· = '0') with
  | [] => ['0']
  | c :: rest => c :: rest

/-- A numeral without its redundant zeros and point. -/
def reduced (cs : List Char) : List Char :=
  withPoint (withoutLeading (cs.takeWhile (· ≠ '.')))
    (((cs.dropWhile (· ≠ '.')).drop 1).rdropWhile (· = '0'))

/-- Zeros in front make no difference to a number. -/
theorem digitsValue_withoutLeading (ds : List Char) :
    digitsValue (withoutLeading ds) = digitsValue ds := by
  have hzeros : digitsValue (ds.takeWhile (· = '0')) = 0 := by
    apply digitsValue_zeros
    intro c hc
    simpa using List.mem_takeWhile_imp hc
  have hsplit := digitsValue_append (ds.takeWhile (· = '0')) (ds.dropWhile (· = '0'))
  rw [List.takeWhile_append_dropWhile, hzeros, Nat.zero_mul, Nat.zero_add] at hsplit
  rw [hsplit, withoutLeading]
  cases ds.dropWhile (· = '0') with
  | nil => rfl
  | cons c rest => rfl

/-- Digits without zeros in front. -/
theorem isWhole_withoutLeading {ds : List Char} (h : Digits ds) : IsWhole (withoutLeading ds) := by
  have hsubset : ds.dropWhile (· = '0') ⊆ ds := (List.dropWhile_suffix _).subset
  have hhead := List.head?_dropWhile_not (fun c : Char => decide (c = '0')) ds
  unfold withoutLeading
  cases hdrop : ds.dropWhile (· = '0') with
  | nil =>
    refine ⟨?_, by simp, fun _ => rfl⟩
    intro c hc
    rw [List.mem_singleton.1 hc]
    rfl
  | cons c rest =>
    rw [hdrop] at hsubset hhead
    refine ⟨h.subset hsubset, by simp, ?_⟩
    intro hzero
    have hc : c = '0' := by simpa using hzero
    simp [hc] at hhead

/-- Where there are no zeros in front, none are taken away. -/
theorem IsWhole.withoutLeading {ds : List Char} (h : IsWhole ds) : withoutLeading ds = ds := by
  rw [← (isWhole_withoutLeading h.digits).toDigits, digitsValue_withoutLeading, h.toDigits]

/-- Zeros at the end of a fraction make no difference to a number. -/
theorem decimalValue_rdropWhile (ds fs : List Char) :
    decimalValue ds (fs.rdropWhile (· = '0')) = decimalValue ds fs := by
  have hzeros : digitsValue (fs.rtakeWhile (· = '0')) = 0 := by
    apply digitsValue_zeros
    intro c hc
    simpa using List.mem_rtakeWhile_imp hc
  have hsplit := digitsValue_append (ds ++ fs.rdropWhile (· = '0')) (fs.rtakeWhile (· = '0'))
  have hlength :=
    congrArg List.length (List.rdropWhile_append_rtakeWhile (p := (· = '0')) (l := fs))
  rw [List.append_assoc, List.rdropWhile_append_rtakeWhile, hzeros, Nat.add_zero] at hsplit
  rw [List.length_append] at hlength
  rw [decimalValue_eq_iff, hsplit, ← hlength, Nat.pow_add]
  ring

/-- A fraction without zeros at the end. -/
theorem isFraction_rdropWhile {fs : List Char} (h : Digits fs) :
    IsFraction (fs.rdropWhile (· = '0')) where
  digits := h.subset (List.rdropWhile_prefix _ fs).subset
  trailing := by
    intro hzero
    have hne : fs.rdropWhile (· = '0') ≠ [] := by
      rintro hnil
      rw [hnil] at hzero
      simp at hzero
    have hlast := List.rdropWhile_last_not (fun c : Char => decide (c = '0')) fs hne
    rw [List.getLast?_eq_some_getLast hne] at hzero
    simp [Option.some.inj hzero] at hlast

/-- The number of digits does not depend on zeros in front of them. -/
theorem decimalValue_withoutLeading (ds fs : List Char) :
    decimalValue (withoutLeading ds) fs = decimalValue ds fs := by
  rw [decimalValue_eq_iff, digitsValue_append, digitsValue_append, digitsValue_withoutLeading]

/-- Digits hold no point. -/
theorem Digits.ne_point {ds : List Char} (h : Digits ds) : ∀ c ∈ ds, decide (c ≠ '.') = true := by
  intro c hc
  rw [decide_eq_true_eq]
  rintro rfl
  exact absurd (h '.' hc) (by decide)

/-- What is left of digits with a point. -/
theorem reduced_point {ds : List Char} (h : Digits ds) (fs : List Char) :
    reduced (ds ++ '.' :: fs) = withPoint (withoutLeading ds) (fs.rdropWhile (· = '0')) := by
  unfold reduced
  rw [List.takeWhile_append_of_pos h.ne_point, List.dropWhile_append_of_pos h.ne_point]
  simp

/-- What is left of digits without a point. -/
theorem reduced_whole {ds : List Char} (h : Digits ds) : reduced ds = withoutLeading ds := by
  unfold reduced
  rw [List.takeWhile_eq_self_iff.2 h.ne_point, List.dropWhile_eq_nil_iff.2 h.ne_point]
  rfl

/-- **What is left of a numeral without redundant zeros and point is the canonical text of its
    number.** -/
theorem canonical_reduced {cs : List Char} {q : Rat} (h : Denotes cs q) :
    Canonical (reduced cs) q := by
  cases h with
  | @whole ds hdigits _ =>
    have hempty : IsFraction [] := ⟨by simp [Digits], by simp⟩
    rw [reduced_whole hdigits, ← decimalValue_withoutLeading]
    exact Canonical.unsigned (isWhole_withoutLeading hdigits) hempty
  | @point ds fs hwhole hfraction _ =>
    rw [reduced_point hwhole, ← decimalValue_rdropWhile, ← decimalValue_withoutLeading]
    exact Canonical.unsigned (isWhole_withoutLeading hwhole) (isFraction_rdropWhile hfraction)

end Reckoner.Decimal
