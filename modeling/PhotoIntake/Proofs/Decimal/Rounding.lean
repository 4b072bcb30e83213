import PhotoIntake.Decimal.Rounding
import Mathlib.Tactic.Ring

/-!
# Rounding keeps the order

A rounded quotient is the quotient where there is no rest, and it grows with what is divided.
Doubles are the quotients by a unit that depends on the size, so rounding to the nearest double
keeps the order too, also where the unit changes.

* `nearestDouble_mono`: the greater number has the greater double.
* `four_mul_nearestDouble_le`: a double exceeds the number by a quarter at most.
-/

namespace PhotoIntake.Decimal

theorem wordBound_eq (bits : Nat) : wordBound bits = 2 ^ bits :=
  Nat.one_shiftLeft bits

theorem roundedQuotient_mul {unit : Nat} (h : 0 < unit) (n : Nat) :
    roundedQuotient (n * unit) unit = n := by
  rw [roundedQuotient, Nat.mul_div_cancel n h, Nat.mul_mod_left]
  exact if_pos (Or.inl (by omega))

theorem roundedQuotient_mono {unit m n : Nat} (h : m ≤ n) :
    roundedQuotient m unit ≤ roundedQuotient n unit := by
  have hquotient : m / unit ≤ n / unit := Nat.div_le_div_right h
  have hm := Nat.div_add_mod m unit
  have hn := Nat.div_add_mod n unit
  simp only [roundedQuotient]
  rcases Nat.lt_or_eq_of_le hquotient with hlt | heq
  · split_ifs <;> omega
  · -- In the same unit the rest decides, and the greater number has the greater rest.
    have hrest : m % unit ≤ n % unit := by
      rw [heq] at hm
      omega
    simp only [heq]
    split_ifs <;> omega

theorem roundedQuotient_le (n unit : Nat) : roundedQuotient n unit ≤ n / unit + 1 := by
  simp only [roundedQuotient]
  split_ifs <;> omega

/-- The unit of the last place of a number. -/
def unitOf (n : Nat) : Nat :=
  2 ^ (n.log2 - 52)

theorem unitOf_pos (n : Nat) : 0 < unitOf n :=
  Nat.two_pow_pos _

theorem nearestDouble_eq (n : Nat) :
    nearestDouble n = roundedQuotient n (unitOf n) * unitOf n := by
  rw [nearestDouble, unitOf, Nat.one_shiftLeft]

/-- A power of two that is no smaller than the unit is a multiple of it. -/
theorem roundedQuotient_two_pow {n k : Nat} (h : n.log2 - 52 ≤ k) :
    roundedQuotient (2 ^ k) (unitOf n) * unitOf n = 2 ^ k := by
  obtain ⟨rest, rfl⟩ := Nat.exists_eq_add_of_le' h
  rw [Nat.pow_add, ← unitOf, roundedQuotient_mul (unitOf_pos n)]

theorem two_pow_log2_le_nearestDouble {n : Nat} (h : n ≠ 0) : 2 ^ n.log2 ≤ nearestDouble n := by
  rw [nearestDouble_eq, ← roundedQuotient_two_pow (Nat.sub_le n.log2 52)]
  exact Nat.mul_le_mul_right _ (roundedQuotient_mono (Nat.log2_self_le h))

theorem nearestDouble_le_two_pow (n : Nat) : nearestDouble n ≤ 2 ^ (n.log2 + 1) := by
  have hle : n.log2 - 52 ≤ n.log2 + 1 := by omega
  rw [nearestDouble_eq, ← roundedQuotient_two_pow hle]
  exact Nat.mul_le_mul_right _ (roundedQuotient_mono (Nat.le_of_lt Nat.lt_log2_self))

/-- Rounding to the nearest double keeps the order. -/
theorem nearestDouble_mono {m n : Nat} (h : m ≤ n) : nearestDouble m ≤ nearestDouble n := by
  rcases Nat.eq_zero_or_pos m with rfl | hm
  · exact Nat.zero_le _
  · have hlog : m.log2 ≤ n.log2 :=
      (Nat.le_log2 (by omega)).2 (Nat.le_trans (Nat.log2_self_le (Nat.ne_of_gt hm)) h)
    rcases Nat.lt_or_eq_of_le hlog with hlt | heq
    · -- The power of two between the two numbers stays between them.
      calc nearestDouble m ≤ 2 ^ (m.log2 + 1) := nearestDouble_le_two_pow m
        _ ≤ 2 ^ n.log2 := Nat.pow_le_pow_right (by decide) hlt
        _ ≤ nearestDouble n := two_pow_log2_le_nearestDouble (by omega)
    · have hunit : unitOf m = unitOf n := by rw [unitOf, unitOf, heq]
      rw [nearestDouble_eq, nearestDouble_eq, hunit]
      exact Nat.mul_le_mul_right _ (roundedQuotient_mono h)

/-- Rounding adds a quarter at most. -/
theorem four_mul_nearestDouble_le (n : Nat) : 4 * nearestDouble n ≤ 5 * n := by
  rw [nearestDouble_eq]
  by_cases hsmall : n.log2 ≤ 52
  · -- Small numbers are doubles.
    have hunit : unitOf n = 1 := by rw [unitOf, Nat.sub_eq_zero_of_le hsmall, Nat.pow_zero]
    have hself : roundedQuotient n 1 = n := by simpa using roundedQuotient_mul Nat.one_pos n
    rw [hunit, hself]
    omega
  · have hn : n ≠ 0 := by
      rintro rfl
      exact hsmall (by decide)
    have hlog : 2 ^ n.log2 = 2 ^ 52 * unitOf n := by
      rw [unitOf, ← Nat.pow_add, Nat.add_sub_cancel' (by omega)]
    have hunit : 4 * unitOf n ≤ n := by
      have hle := hlog ▸ Nat.log2_self_le hn
      omega
    have hquotient : roundedQuotient n (unitOf n) * unitOf n ≤ n + unitOf n := by
      calc roundedQuotient n (unitOf n) * unitOf n
          ≤ (n / unitOf n + 1) * unitOf n := Nat.mul_le_mul_right _ (roundedQuotient_le _ _)
        _ = n / unitOf n * unitOf n + unitOf n := by rw [Nat.add_mul, Nat.one_mul]
        _ ≤ n + unitOf n := Nat.add_le_add_right (Nat.div_mul_le_self n _) _
    omega

end PhotoIntake.Decimal
