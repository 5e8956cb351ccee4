/-!
# Rounding a quotient

A quotient of natural numbers is rounded to the nearest whole number; halfway between two of them
it goes to the even one. Main statements: the result is at most half a unit away, and on a tie it
is even.
-/

namespace ChipEight.Numeric

/-- `n / d`, rounded to the nearest whole number, a half to the even neighbour. -/
def roundDiv (n d : Nat) : Nat :=
  let q := n / d
  let r := n % d
  if 2 * r < d then q
  else if d < 2 * r then q + 1
  else if q % 2 = 0 then q
  else q + 1

theorem roundDiv_near (n : Nat) {d : Nat} (hd : 0 < d) :
    2 * (d * roundDiv n d) ≤ 2 * n + d ∧ 2 * n ≤ 2 * (d * roundDiv n d) + d := by
  have hn := Nat.div_add_mod n d
  have hr := Nat.mod_lt n hd
  have hm : d * (n / d + 1) = d * (n / d) + d := Nat.mul_succ d (n / d)
  simp only [roundDiv]
  split
  · omega
  · split
    · omega
    · split <;> omega

theorem roundDiv_tie {n d : Nat} (h : 2 * (n % d) = d) : roundDiv n d % 2 = 0 := by
  simp only [roundDiv]
  split
  · omega
  · split
    · omega
    · split <;> omega

end ChipEight.Numeric
