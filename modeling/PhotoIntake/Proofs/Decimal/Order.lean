import PhotoIntake.Proofs.Decimal.Digits

/-!
# The order of numbers as texts

Texts are compared character by character from the front.  Numbers that are padded to one width are
then in the order of their values, and so are several of them side by side, the first one first.

* `append_lt_append_iff`: texts with fronts of one length.
* `mul_add_lt_mul_add_iff`: numbers with the same number of digits, by the first one.
* `lt_iff_of_isDigit`: runs of digits of one length.
* `paddedDigits_append_lt_iff`: a padded number in front of anything.
-/

namespace PhotoIntake.Decimal

variable {xs ys s t : List Char}

/-- Where the fronts have one length, the rests count only if the fronts are the same. -/
theorem append_lt_append_iff (h : xs.length = ys.length) :
    xs ++ s < ys ++ t ↔ xs < ys ∨ xs = ys ∧ s < t := by
  induction xs generalizing ys with
  | nil =>
    obtain rfl := List.length_eq_zero_iff.1 h.symm
    simp
  | cons c xs ih =>
    cases ys with
    | nil => cases h
    | cons d ys =>
      rw [List.cons_append, List.cons_append, List.cons_lt_cons_iff, List.cons_lt_cons_iff,
        ih (Nat.succ.inj h), List.cons.injEq]
      tauto

/-- What is below the base counts only if the multiples of the base are the same. -/
theorem mul_add_lt_mul_add_iff {base m n u v : Nat} (hu : u < base) (hv : v < base) :
    base * m + u < base * n + v ↔ m < n ∨ m = n ∧ u < v := by
  rcases Nat.lt_trichotomy m n with hlt | rfl | hgt
  · have hnext := Nat.mul_le_mul_left base hlt
    rw [Nat.mul_succ] at hnext
    exact iff_of_true (by omega) (Or.inl hlt)
  · omega
  · have hnext := Nat.mul_le_mul_left base hgt
    rw [Nat.mul_succ] at hnext
    exact iff_of_false (by omega) (by omega)

theorem ofDigitChars_cons_zero (c : Char) (cs : List Char) :
    Nat.ofDigitChars 10 (c :: cs) 0 =
      10 ^ cs.length * (c.toNat - '0'.toNat) + Nat.ofDigitChars 10 cs 0 := by
  rw [Nat.ofDigitChars_cons, Nat.mul_zero, Nat.zero_add, Nat.ofDigitChars_eq_ofDigitChars_zero]

theorem toNat_of_isDigit {c : Char} (h : c.isDigit = true) :
    '0'.toNat ≤ c.toNat ∧ c.toNat - '0'.toNat < 10 := by
  have hrange : 48 ≤ c.toNat ∧ c.toNat ≤ 57 := by
    simpa [Char.isDigit, UInt32.le_iff_toNat_le] using h
  have hzero : '0'.toNat = 48 := rfl
  omega

theorem ofDigitChars_lt (h : ∀ c ∈ xs, c.isDigit = true) :
    Nat.ofDigitChars 10 xs 0 < 10 ^ xs.length := by
  induction xs with
  | nil => exact Nat.one_pos
  | cons c xs ih =>
    have hc := (toNat_of_isDigit (h c List.mem_cons_self)).2
    have hrest := ih fun d hd => h d (List.mem_cons_of_mem c hd)
    calc Nat.ofDigitChars 10 (c :: xs) 0
        = 10 ^ xs.length * (c.toNat - '0'.toNat) + Nat.ofDigitChars 10 xs 0 :=
          ofDigitChars_cons_zero c xs
      _ < 10 ^ xs.length * (c.toNat - '0'.toNat) + 10 ^ xs.length := Nat.add_lt_add_left hrest _
      _ = 10 ^ xs.length * (c.toNat - '0'.toNat + 1) := by ring
      _ ≤ 10 ^ xs.length * 10 := Nat.mul_le_mul_left _ hc
      _ = 10 ^ (c :: xs).length := (Nat.pow_succ ..).symm

/-- Runs of digits of one length are in the order of their values. -/
theorem lt_iff_of_isDigit (hxs : ∀ c ∈ xs, c.isDigit = true) (hys : ∀ c ∈ ys, c.isDigit = true)
    (h : xs.length = ys.length) :
    xs < ys ↔ Nat.ofDigitChars 10 xs 0 < Nat.ofDigitChars 10 ys 0 := by
  induction xs generalizing ys with
  | nil =>
    obtain rfl := List.length_eq_zero_iff.1 h.symm
    simp
  | cons c xs ih =>
    cases ys with
    | nil => cases h
    | cons d ys =>
      have hlength : xs.length = ys.length := Nat.succ.inj h
      have hxs' : ∀ c ∈ xs, c.isDigit = true := fun e he => hxs e (List.mem_cons_of_mem c he)
      have hys' : ∀ c ∈ ys, c.isDigit = true := fun e he => hys e (List.mem_cons_of_mem d he)
      have hx := ofDigitChars_lt hxs'
      have hy := ofDigitChars_lt hys'
      rw [hlength] at hx
      rw [List.cons_lt_cons_iff, ih hxs' hys' hlength, ofDigitChars_cons_zero,
        ofDigitChars_cons_zero, hlength, mul_add_lt_mul_add_iff hx hy]
      obtain ⟨hc, -⟩ := toNat_of_isDigit (hxs c List.mem_cons_self)
      obtain ⟨hd, -⟩ := toNat_of_isDigit (hys d List.mem_cons_self)
      have hless : c < d ↔ c.toNat - '0'.toNat < d.toNat - '0'.toNat := by
        rw [show c < d ↔ c.toNat < d.toNat from Iff.rfl]
        omega
      have hsame : c = d ↔ c.toNat - '0'.toNat = d.toNat - '0'.toNat := by
        rw [← Char.toNat_inj]
        omega
      rw [hless, hsame]

/-- Numbers that fill one width come first in a comparison, by their values. -/
theorem paddedDigits_append_lt_iff {width m n : Nat} (hwidth : 0 < width) (hm : m < 10 ^ width)
    (hn : n < 10 ^ width) :
    paddedDigits width m ++ s < paddedDigits width n ++ t ↔ m < n ∨ m = n ∧ s < t := by
  have hlength : (paddedDigits width m).length = (paddedDigits width n).length := by
    rw [length_paddedDigits hwidth hm, length_paddedDigits hwidth hn]
  have hless : paddedDigits width m < paddedDigits width n ↔ m < n := by
    rw [lt_iff_of_isDigit (fun _ => isDigit_of_mem_paddedDigits)
      (fun _ => isDigit_of_mem_paddedDigits) hlength, ofDigitChars_paddedDigits,
      ofDigitChars_paddedDigits]
  have hsame : paddedDigits width m = paddedDigits width n ↔ m = n :=
    ⟨fun h => padded_injective width (congrArg String.ofList h), fun h => h ▸ rfl⟩
  rw [append_lt_append_iff hlength, hless, hsame]

end PhotoIntake.Decimal
