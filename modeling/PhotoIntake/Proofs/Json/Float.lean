import PhotoIntake.Json.Float
import PhotoIntake.Proofs.Decimal.Digits
import PhotoIntake.Proofs.Decimal.Shortest
import PhotoIntake.Proofs.Json.RoundTrip

/-!
# Doubles are read back

The double that is read need not be the one that was written, since the digits are scaled in
floating point.  But every finite double is written as a number, and that number is no greater than
a reader takes.

* `Number.isSome_toFloat?_ofScaled`: every layout of a decimal has a value.
* `exists_float?_ofFloat`: what was written for a finite double is read as a double.
-/

namespace PhotoIntake.Json

open Decimal (digits wordBound)

/-! ## Leading digits -/

theorem le_ofDigitChars (cs : List Char) (start : Nat) : start ≤ Nat.ofDigitChars 10 cs start := by
  induction cs generalizing start with
  | nil => exact Nat.le_refl start
  | cons c cs ih =>
    rw [Nat.ofDigitChars_cons]
    exact (by omega : start ≤ 10 * start + (c.toNat - '0'.toNat)).trans (ih _)

namespace Leading

theorem value_push_lt {l : Leading} (h : l.value < wordBound 64) (c : Char) :
    (l.push c).value < wordBound 64 := by
  simp only [push]
  split_ifs with hfits
  · exact hfits.2
  · exact h

theorem dropped_push_le (l : Leading) (c : Char) : (l.push c).dropped ≤ l.dropped + 1 := by
  simp only [push]
  split_ifs <;> simp

theorem value_foldl_lt {l : Leading} (h : l.value < wordBound 64) (cs : List Char) :
    (cs.foldl push l).value < wordBound 64 := by
  induction cs generalizing l with
  | nil => exact h
  | cons c cs ih => exact ih (value_push_lt h c)

theorem dropped_foldl_le (l : Leading) (cs : List Char) :
    (cs.foldl push l).dropped ≤ l.dropped + cs.length := by
  induction cs generalizing l with
  | nil => exact Nat.le_refl _
  | cons c cs ih =>
    have hpush := dropped_push_le l c
    have hrest := ih (l.push c)
    rw [List.foldl_cons, List.length_cons]
    omega

/-- Digits of a number that fits are all taken. -/
theorem foldl_push (cs : List Char) {start : Nat}
    (h : Nat.ofDigitChars 10 cs start < wordBound 64) :
    cs.foldl push ⟨start, 0⟩ = ⟨Nat.ofDigitChars 10 cs start, 0⟩ := by
  induction cs generalizing start with
  | nil => rfl
  | cons c cs ih =>
    rw [Nat.ofDigitChars_cons] at h ⊢
    have hnext := (le_ofDigitChars cs _).trans_lt h
    have hpush : push ⟨start, 0⟩ c = ⟨10 * start + (c.toNat - '0'.toNat), 0⟩ := by
      rw [push, Nat.mul_comm start 10]
      exact if_pos ⟨rfl, hnext⟩
    rw [List.foldl_cons, hpush, ih h]

end Leading

/-! ## Scaling -/

/-- Digits that fit a word are scaled down without limit. -/
theorem isSome_scale?_of_nonpos {value : Nat} {power : Int} (hvalue : value < wordBound 64)
    (hpower : power ≤ 0) : (scale? value power).isSome = true := by
  have hword : Decimal.nearestDouble value * Decimal.nearestDouble (Decimal.tens 0) <
      Decimal.infinityBound := by
    have hmost : Decimal.nearestDouble (wordBound 64) * Decimal.nearestDouble (Decimal.tens 0) <
        Decimal.infinityBound := by decide +kernel
    exact (Nat.mul_le_mul_right _ (Decimal.nearestDouble_mono hvalue.le)).trans_lt hmost
  simp only [scale?]
  split_ifs with hup hzero hgreat
  · rfl
  · obtain rfl : power = 0 := by omega
    exact absurd hgreat (not_or_intro (by decide) (Nat.not_le_of_lt hword))
  · rfl
  · rfl

/-- The digits of a shortest decimal can be scaled by its power. -/
theorem isSome_scale?_of_fits {d : Decimal.Scaled} (h : d.Fits) :
    (scale? d.digits d.power).isSome = true := by
  have hmost := h.power_le
  simp only [scale?]
  split_ifs with hup hzero hgreat
  · rfl
  · have hproduct := h.product_lt hup
    rw [show d.power.toNat = d.power.natAbs by omega] at hproduct
    exact absurd hgreat (not_or_intro (by omega) (Nat.not_le_of_lt hproduct))
  · rfl
  · rfl

/-! ## Numbers -/

namespace Number

/-- A number without a power of ten has a value if its whole part fits. -/
theorem isSome_toFloat?_of_plain {n : Number} (hwhole : n.whole < wordBound 64)
    (hexponent : n.exponent = none) : n.toFloat?.isSome = true := by
  have hdigits : (digits n.whole).foldl Leading.push ⟨0, 0⟩ = ⟨n.whole, 0⟩ := by
    have hvalue := Decimal.ofDigitChars_digits n.whole
    rw [Leading.foldl_push _ (by rwa [hvalue]), hvalue]
  have hvalue := Leading.value_foldl_lt (l := ⟨n.whole, 0⟩) hwhole n.places
  have hdropped := Leading.dropped_foldl_le ⟨n.whole, 0⟩ n.places
  simp only [toFloat?, hdigits, hexponent, Option.isSome_map]
  split_ifs
  · rfl
  · exact isSome_scale?_of_nonpos hvalue (by simp only at hdropped; omega)

/-- Digits with a power of ten have a value if the reader can scale them. -/
theorem isSome_toFloat?_of_scaled {n : Number} {e : Int} (hexponent : n.exponent = some e)
    (hlength : e ≤ maxPower)
    (hvalue : Nat.ofDigitChars 10 n.places n.whole < wordBound 64)
    (hscale : (scale? (Nat.ofDigitChars 10 n.places n.whole) (e - n.places.length)).isSome = true) :
    n.toFloat?.isSome = true := by
  have hdigits : (digits n.whole).foldl Leading.push ⟨0, 0⟩ = ⟨n.whole, 0⟩ := by
    have hwhole := Decimal.ofDigitChars_digits n.whole
    rw [Leading.foldl_push _ (by rw [hwhole]; exact (le_ofDigitChars _ _).trans_lt hvalue), hwhole]
  have hplaces := Leading.foldl_push n.places hvalue
  simp only [toFloat?, isWhole, hexponent, Option.isNone_some, Bool.and_false, Bool.false_and,
    Bool.false_eq_true, if_false, hdigits, hplaces, Option.isSome_map]
  rw [if_neg (by omega)]
  split_ifs
  · rfl
  · have hpower : ((0 : Nat) : Int) - (n.places.length - (0 : Nat)) + e = e - n.places.length := by
      omega
    rw [hpower]
    exact hscale

/-- Every layout of a decimal has a value. -/
theorem isSome_toFloat?_ofScaled (negative : Bool) {d : Decimal.Scaled} (h : d.Fits) :
    (ofScaled negative d).toFloat?.isSome = true := by
  have hpower := h.power_le
  have hdigits := Decimal.ofDigitChars_digits d.digits
  have hlength : (digits d.digits).length ≤ 20 :=
    (Nat.length_toDigits_le_iff (by decide) (by decide)).2 (h.digits_lt.trans (by decide))
  -- The value of the leading digits is no greater than that of all.
  have hsplit (n : Nat) : Nat.ofDigitChars 10 ((digits d.digits).drop n)
      (Nat.ofDigitChars 10 ((digits d.digits).take n) 0) = d.digits := by
    rw [← Nat.ofDigitChars_append, List.take_append_drop, hdigits]
  have htake (n : Nat) : Nat.ofDigitChars 10 ((digits d.digits).take n) 0 < wordBound 64 :=
    ((le_ofDigitChars _ _).trans_eq (hsplit n)).trans_lt h.digits_lt
  simp only [ofScaled]
  split_ifs with hwhole hinside hbehind
  · refine isSome_toFloat?_of_plain ?_ rfl
    have hbound : d.digits < 10 ^ (digits d.digits).length :=
      (Nat.length_toDigits_le_iff (by decide) Nat.length_toDigits_pos).1 (Nat.le_refl _)
    calc d.digits * 10 ^ d.power.toNat
        < 10 ^ (digits d.digits).length * 10 ^ d.power.toNat :=
          Nat.mul_lt_mul_of_pos_right hbound (Nat.pow_pos (by decide))
      _ = 10 ^ ((digits d.digits).length + d.power.toNat) := (Nat.pow_add ..).symm
      _ ≤ 10 ^ 16 := Nat.pow_le_pow_right (by decide) (by rw [maxWholeDigits] at hwhole; omega)
      _ < wordBound 64 := by decide
  · exact isSome_toFloat?_of_plain (htake _) rfl
  · exact isSome_toFloat?_of_plain (Nat.two_pow_pos 64) rfl
  · have hpos : 0 < (digits d.digits).length :=
      List.length_pos_iff.2 (Decimal.digits_ne_nil d.digits)
    have hmost : maxPower = 2147483647 := rfl
    refine isSome_toFloat?_of_scaled rfl (by omega) ((hsplit 1).trans_lt h.digits_lt) ?_
    have hscale : (((digits d.digits).length : Int) + d.power - 1) -
        ((digits d.digits).drop 1).length = d.power := by
      rw [List.length_drop]
      omega
    rw [hsplit 1, hscale]
    exact isSome_scale?_of_fits h

/-- The places of a laid out decimal are digits. -/
theorem isDigit_of_mem_places {negative : Bool} {d : Decimal.Scaled} {c : Char}
    (h : c ∈ (ofScaled negative d).places) : c.isDigit = true := by
  simp only [ofScaled] at h
  split_ifs at h
  · obtain rfl := List.mem_singleton.1 h
    decide
  · exact Decimal.isDigit_of_mem_digits (List.mem_of_mem_drop h)
  · rcases List.mem_append.1 h with h | h
    · obtain rfl := (List.mem_replicate.1 h).2
      decide
    · exact Decimal.isDigit_of_mem_digits h
  · exact Decimal.isDigit_of_mem_digits (List.mem_of_mem_drop h)

end Number

theorem isProper_ofFloat (x : Float) : (ofFloat x).isProper = true := by
  unfold ofFloat
  split
  · exact List.all_eq_true.2 fun _ => Number.isDigit_of_mem_places
  · rfl

/-- What is written for a finite double is read as a double. -/
theorem exists_float?_ofFloat {x : Float} (h : x.isFinite = true) :
    ∃ y, float? (ofFloat x) = some y := by
  obtain ⟨d, hshortest, hd⟩ := Decimal.exists_shortest? h
  rw [ofFloat, hshortest]
  exact Option.isSome_iff_exists.1 (Number.isSome_toFloat?_ofScaled _ hd)

end PhotoIntake.Json
