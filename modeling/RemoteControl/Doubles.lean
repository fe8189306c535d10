import Mathlib.Algebra.Group.Int.Defs
import Mathlib.Algebra.Group.Nat.Defs
import Mathlib.Data.Nat.Log
import Mathlib.Tactic.Common

/-!
# Integers as doubles

A `double` has 53 bits for a number, so an integer that needs more of them is rounded when it
is converted. The integer that comes out is exact below `2 ^ 53`, and an integer that is not
below stays so.

* `nearest` — the conversion of a natural number: the nearest double, of two the even one.
* `ofInt` — the conversion of an integer.
-/

namespace Doubles

/-- The distance between the doubles around `n`. -/
def spacing (n : ℕ) : ℕ := 2 ^ (n.log2 - 52)

/-- The double nearest to `n`; halfway between two of them, the one with an even mantissa. -/
def nearest (n : ℕ) : ℕ :=
  let below := n / spacing n
  let rest := n % spacing n
  if 2 * rest < spacing n ∨ 2 * rest = spacing n ∧ below % 2 = 0 then below * spacing n
  else (below + 1) * spacing n

/-- The conversion of an integer, rounded to the nearest double. -/
def ofInt (z : ℤ) : ℤ := if z < 0 then -nearest z.natAbs else nearest z.natAbs

theorem spacing_of_lt {n : ℕ} (h : n < 2 ^ 53) : spacing n = 1 := by
  have hlog : n.log2 ≤ 52 := by
    rcases Nat.eq_zero_or_pos n with rfl | hpos
    · exact Nat.zero_le _
    · exact Nat.le_of_lt_succ ((Nat.log2_lt (Nat.ne_of_gt hpos)).mpr h)
  rw [spacing, Nat.sub_eq_zero_of_le hlog, Nat.pow_zero]

/-- Up to 53 bits the conversion is exact. -/
theorem nearest_of_lt {n : ℕ} (h : n < 2 ^ 53) : nearest n = n := by
  simp [nearest, spacing_of_lt h, Nat.mod_one]

/-- The mantissa of a number with more bits. -/
theorem le_div_spacing {n : ℕ} (h : 2 ^ 53 ≤ n) : 2 ^ 52 ≤ n / spacing n ∧ 2 ≤ spacing n := by
  have hne : n ≠ 0 := by omega
  have hlog : 53 ≤ n.log2 := (Nat.le_log2 hne).mpr h
  have hsplit : n.log2 = 52 + (n.log2 - 52) := by omega
  constructor
  · rw [spacing, Nat.le_div_iff_mul_le (Nat.two_pow_pos _), ← Nat.pow_add, ← hsplit]
    exact Nat.log2_self_le hne
  · calc 2 = 2 ^ 1 := rfl
      _ ≤ spacing n := Nat.pow_le_pow_right Nat.two_pos (by omega)

/-- A number with more than 53 bits is not rounded to one with less. -/
theorem le_nearest {n : ℕ} (h : 2 ^ 53 ≤ n) : 2 ^ 53 ≤ nearest n := by
  obtain ⟨hbelow, hspacing⟩ := le_div_spacing h
  have hfloor : 2 ^ 53 ≤ n / spacing n * spacing n :=
    calc 2 ^ 53 = 2 ^ 52 * 2 := rfl
      _ ≤ n / spacing n * spacing n := Nat.mul_le_mul hbelow hspacing
  unfold nearest
  dsimp only
  split
  · exact hfloor
  · exact Nat.le_trans hfloor (Nat.mul_le_mul_right _ (Nat.le_succ _))

/-- The conversion of an integer is exact up to 53 bits. -/
theorem ofInt_of_lt {z : ℤ} (h : z.natAbs < 2 ^ 53) : ofInt z = z := by
  rw [ofInt, nearest_of_lt h]
  split <;> omega

theorem le_ofInt {z : ℤ} (h : 2 ^ 53 ≤ z) : 2 ^ 53 ≤ ofInt z := by
  have hnearest := le_nearest (n := z.natAbs) (by omega)
  rw [ofInt, if_neg (by omega)]
  omega

theorem ofInt_le {z : ℤ} (h : z ≤ -2 ^ 53) : ofInt z ≤ -2 ^ 53 := by
  have hnearest := le_nearest (n := z.natAbs) (by omega)
  rw [ofInt, if_pos (by omega)]
  omega

/-- Halfway between two doubles it is the even one, once below and once above. -/
example : ofInt (2 ^ 53 + 1) = 2 ^ 53 ∧ ofInt (2 ^ 53 + 3) = 2 ^ 53 + 4 := by decide

end Doubles
