/-!
# Rounding a quotient

`halfEven n d` and `halfUp n d` are the whole number nearest to `n / d`. Of two equally near ones
the former is the even one, the latter the greater.
-/

namespace Checkout.Rounding

/-- The nearest whole number to `n / d`, a tie going to the even neighbour. -/
def halfEven (n d : Nat) : Nat :=
  let q := n / d
  let r := n % d
  if 2 * r < d then q
  else if d < 2 * r then q + 1
  else if q % 2 = 0 then q
  else q + 1

/-- Rounding never goes past the number divided. -/
theorem halfEven_le (n : Nat) {d : Nat} (hd : 0 < d) : halfEven n d ≤ n := by
  have hq : n / d ≤ n := Nat.div_le_self n d
  have hn : d * (n / d) + n % d = n := Nat.div_add_mod n d
  have hm : n / d ≤ d * (n / d) := Nat.le_mul_of_pos_left _ hd
  simp only [halfEven]
  split
  · exact hq
  · split
    · omega
    · split <;> omega

/-- The nearest whole number to `n / d`, a tie going to the greater neighbour. -/
def halfUp (n d : Nat) : Nat := (2 * n + d) / (2 * d)

theorem halfUp_le (n : Nat) {d : Nat} (hd : 0 < d) : halfUp n d ≤ n := by
  refine Nat.le_of_lt_succ ((Nat.div_lt_iff_lt_mul (by omega)).2 ?_)
  have : n * 1 ≤ n * d := Nat.mul_le_mul_left n hd
  rw [Nat.mul_left_comm, Nat.succ_mul n d]
  omega

end Checkout.Rounding
