namespace Reckoner

/-!
# Rounding a quotient to the nearest integer

Every exact result of this library that has to fit a grid, be it the grid of binary64 numbers or
of decimals with a fixed number of places, goes through one function.

Main definitions:
* `nearestEven n d`: the integer nearest to `n / d`, the even one of two equally near

Main statements: `nearestEven_lower` and `nearestEven_upper` (it is within half a unit of the
quotient), `nearestEven_of_tie` (a tie goes to an even number), `nearestEven_mul_self` (integers
stay), `nearestEven_le` (a bound on the floor of the quotient bounds it).
-/

/-- In this library powers with natural exponents are those of the core library, whatever other ones
    a module gets to see.  A numeral is taken for such an exponent if it is said to be one. -/
scoped instance (priority := high) instPowCore {α : Type} [NatPow α] : Pow α Nat := instPowNat

/-- The integer nearest to `n / d`; of two equally near ones, the even one.  The divisor is meant
    to be positive. -/
def nearestEven (n d : Nat) : Nat :=
  let q := n / d
  let r := n % d
  if 2 * r < d then q
  else if d < 2 * r then q + 1
  else q + q % 2

/-- The floor of the quotient or the integer above it. -/
theorem nearestEven_eq_or (n d : Nat) :
    nearestEven n d = n / d ∨ nearestEven n d = n / d + 1 := by
  simp only [nearestEven]
  split
  · exact .inl rfl
  · split
    · exact .inr rfl
    · omega

/-- Not more than half a unit above the quotient. -/
theorem nearestEven_upper (n d : Nat) : 2 * (nearestEven n d * d) ≤ 2 * n + d := by
  have hdiv : n / d * d + n % d = n := Nat.div_add_mod' n d
  simp only [nearestEven]
  generalize n / d = q at *
  generalize n % d = r at *
  have hsucc : (q + 1) * d = q * d + d := Nat.succ_mul q d
  split
  · omega
  · split
    · omega
    · rcases Nat.mod_two_eq_zero_or_one q with h | h <;> rw [h]
      · simp only [Nat.add_zero]; omega
      · omega

/-- Not more than half a unit below the quotient. -/
theorem nearestEven_lower (n d : Nat) (hd : 0 < d) : 2 * n ≤ 2 * (nearestEven n d * d) + d := by
  have hdiv : n / d * d + n % d = n := Nat.div_add_mod' n d
  have hlt : n % d < d := Nat.mod_lt n hd
  simp only [nearestEven]
  generalize n / d = q at *
  generalize n % d = r at *
  have hsucc : (q + 1) * d = q * d + d := Nat.succ_mul q d
  split
  · omega
  · split
    · omega
    · rcases Nat.mod_two_eq_zero_or_one q with h | h <;> rw [h]
      · simp only [Nat.add_zero]; omega
      · omega

/-- On a tie the result is even. -/
theorem nearestEven_of_tie (n d : Nat) (h : 2 * (n % d) = d) : nearestEven n d % 2 = 0 := by
  simp only [nearestEven, h, Nat.lt_irrefl, if_false]
  omega

/-- An integral quotient is its own nearest integer. -/
@[simp] theorem nearestEven_mul_self (m d : Nat) (hd : 0 < d) : nearestEven (m * d) d = m := by
  simp [nearestEven, Nat.mul_mod_left, Nat.mul_div_cancel _ hd, hd]

/-- A quotient below an integer rounds to at most that integer. -/
theorem nearestEven_le {n d b : Nat} (h : n / d < b) : nearestEven n d ≤ b := by
  rcases nearestEven_eq_or n d with e | e <;> omega

end Reckoner
