import PhotoIntake.Decimal.Shortest
import PhotoIntake.Proofs.Decimal.Rounding
import Mathlib.Tactic.Ring

/-!
# Shortest decimals exist and are small

A grid whose step is no more than a quarter of the unit has a point above every double and inside
its interval, so the search for the coarsest grid succeeds.  The grid that is found is less than ten
times finer than such a grid, which bounds the digits, and its point lies no further than the upper
end of the interval, so that rounding the digits and the power of ten to doubles leads to no
infinity.

* `Binary.isSome_pointOnGrid?`: the grids that have a point.
* `Binary.exists_isCoarsest`: the grid that the search ends with.
* `exists_shortest?`: the shortest decimal of a finite double, and what `Scaled.Fits` says of it.
-/

namespace PhotoIntake.Decimal

namespace Binary

/-- What holds of a finite double that is not zero. -/
structure Fits (b : Binary) : Prop where
  mantissa : b.mantissa < 2 ^ 53
  lowest : -1074 ≤ b.power
  highest : b.power ≤ 971
  bottom : b.atBottom = true → b.mantissa = 2 ^ 52

theorem fits_of_ofBits? {bits : UInt64} {b : Binary} (h : ofBits? bits = some b) : b.Fits := by
  have hfraction : bits.toNat % wordBound 52 < 2 ^ 52 := Nat.mod_lt _ (by decide)
  have hbiased : bits.toNat / wordBound 52 % wordBound 11 < 2048 := Nat.mod_lt _ (by decide)
  have hword : wordBound 52 = 2 ^ 52 := wordBound_eq 52
  simp only [ofBits?] at h
  split_ifs at h with hinfinite hsmall hzero
  · obtain rfl := Option.some.inj h
    exact ⟨by simp only; omega, Int.le_refl _, by simp only; omega, by rintro ⟨⟩⟩
  · obtain rfl := Option.some.inj h
    refine ⟨by simp only; omega, by simp only; omega, by simp only; omega, fun hbottom => ?_⟩
    rw [Bool.and_eq_true, beq_iff_eq] at hbottom
    simp only
    omega

/-! ## The grids -/

variable {b : Binary} {power : Int}

theorem step_eq : b.step power = tens power.toNat * 2 ^ (2 - b.power).toNat :=
  Nat.shiftLeft_eq _ _

theorem quarter_eq : b.quarter power = tens (-power).toNat * 2 ^ (b.power - 2).toNat :=
  Nat.shiftLeft_eq _ _

theorem tens_pos (zeros : Nat) : 0 < tens zeros :=
  Nat.pow_pos (by decide)

theorem tens_mono {m n : Nat} (h : m ≤ n) : tens m ≤ tens n :=
  Nat.pow_le_pow_right (by decide) h

theorem wordBound_mono {m n : Nat} (h : m ≤ n) : wordBound m ≤ wordBound n := by
  rw [wordBound_eq, wordBound_eq]
  exact Nat.pow_le_pow_right (by decide) h

theorem step_pos : 0 < b.step power := by
  rw [step_eq]
  exact Nat.mul_pos (tens_pos _) (Nat.two_pow_pos _)

theorem quarter_pos : 0 < b.quarter power := by
  rw [quarter_eq]
  exact Nat.mul_pos (tens_pos _) (Nat.two_pow_pos _)

/-- The next grid has ten times the step. -/
theorem step_succ :
    b.step (power + 1) * b.quarter power = 10 * (b.step power * b.quarter (power + 1)) := by
  have htens : tens (power + 1).toNat * tens (-power).toNat =
      10 * (tens power.toNat * tens (-(power + 1)).toNat) := by
    simp only [tens, Nat.pow_eq, ← Nat.pow_add, ← Nat.pow_succ']
    congr 1
    omega
  rw [step_eq, quarter_eq, step_eq, quarter_eq, Nat.mul_mul_mul_comm, htens, Nat.mul_assoc,
    Nat.mul_mul_mul_comm]

/-- A point that rounds to the double lies no further than the upper end of the interval. -/
theorem le_of_isRoundedFrom {d : Nat} (h : b.isRoundedFrom power d = true) :
    d * b.step power ≤ b.highQuarters * b.quarter power := by
  simp only [isRoundedFrom] at h
  split_ifs at h <;> simp only [Bool.and_eq_true, decide_eq_true_eq] at h <;> omega

theorem isRoundedFrom_of_lt {d : Nat} (hlow : b.lowQuarters * b.quarter power < d * b.step power)
    (hhigh : d * b.step power < b.highQuarters * b.quarter power) :
    b.isRoundedFrom power d = true := by
  simp only [isRoundedFrom]
  split_ifs <;> simp only [Bool.and_eq_true, decide_eq_true_eq] <;> omega

/-- The point of a grid is one of the two around the value. -/
theorem pointOnGrid?_spec {d : Scaled} (h : b.pointOnGrid? power = some d) :
    d.power = power ∧ 0 < d.digits ∧ b.isRoundedFrom power d.digits = true := by
  simp only [pointOnGrid?] at h
  split_ifs at h with hboth hcloser hbelow habove
  all_goals obtain rfl := Option.some.inj h
  · simp only [Bool.and_eq_true, decide_eq_true_eq] at hboth
    exact ⟨rfl, hboth.1⟩
  · rw [Bool.and_eq_true] at hboth
    exact ⟨rfl, Nat.succ_pos _, hboth.2⟩
  · simp only [Bool.and_eq_true, decide_eq_true_eq] at hbelow
    exact ⟨rfl, hbelow⟩
  · exact ⟨rfl, Nat.succ_pos _, habove⟩

/-- A grid whose step is no more than a quarter of the unit has a point. -/
theorem isSome_pointOnGrid? (h : b.step power ≤ b.quarter power) :
    (b.pointOnGrid? power).isSome = true := by
  let value := 4 * b.mantissa * b.quarter power
  have hhigh : b.highQuarters * b.quarter power = value + 2 * b.quarter power := by
    rw [highQuarters, Nat.add_mul]
  have hlow : b.lowQuarters * b.quarter power ≤ value := Nat.mul_le_mul_right _ (Nat.sub_le _ _)
  -- The point above the value is at most a step away from it.
  have hnext : value < (value / b.step power + 1) * b.step power := by
    rw [Nat.mul_comm]
    exact Nat.lt_mul_div_succ value step_pos
  have hclose : (value / b.step power + 1) * b.step power ≤ value + b.step power := by
    rw [Nat.add_mul, Nat.one_mul]
    exact Nat.add_le_add_right (Nat.div_mul_le_self _ _) _
  have hquarter : 0 < b.quarter power := quarter_pos
  have habove : b.isRoundedFrom power (value / b.step power + 1) = true :=
    isRoundedFrom_of_lt (by omega) (by omega)
  simp only [pointOnGrid?]
  split_ifs <;> rfl

/-! ## The coarsest grid -/

/-- The decimal that the search ends with: its grid has a point, and no coarser one does. -/
structure IsCoarsest (b : Binary) (d : Scaled) : Prop where
  found : b.shortest? = some d
  point : b.pointOnGrid? d.power = some d
  power_le : d.power ≤ 310
  coarser : ∀ power, d.power < power → power ≤ 310 → b.quarter power < b.step power

theorem exists_isCoarsest (hb : b.Fits) : ∃ d, b.IsCoarsest d := by
  cases hsearch : b.shortest? with
  | none =>
    -- The last grid of the search is fine enough for every double.
    have hlast : b.pointOnGrid? (310 - (649 : Nat)) = none :=
      List.findSome?_eq_none_iff.1 hsearch 649 (List.mem_range.2 (by decide))
    have hlowest := hb.lowest
    have hfine : b.step (310 - (649 : Nat)) ≤ b.quarter (310 - (649 : Nat)) := by
      rw [step_eq, quarter_eq]
      calc tens 0 * 2 ^ (2 - b.power).toNat
          = wordBound (2 - b.power).toNat := by rw [wordBound_eq]; exact Nat.one_mul _
        _ ≤ wordBound 1076 := wordBound_mono (by omega)
        _ ≤ tens 339 := by decide +kernel
        _ ≤ tens 339 * 2 ^ (b.power - 2).toNat := Nat.le_mul_of_pos_right _ (Nat.two_pow_pos _)
    have hsome := isSome_pointOnGrid? hfine
    rw [hlast] at hsome
    exact absurd hsome Bool.false_ne_true
  | some d =>
    obtain ⟨before, i, after, hrange, hpoint, hbefore⟩ := List.findSome?_eq_some_iff.1 hsearch
    obtain ⟨hpower, -⟩ := pointOnGrid?_spec hpoint
    rw [← hpower] at hpoint
    refine ⟨d, hsearch, hpoint, by omega, fun power hlt hle => Nat.lt_of_not_le fun hfine => ?_⟩
    -- Every coarser grid came before and had no point.
    have hi : i < 650 := List.mem_range.1 (by rw [hrange]; simp)
    have hmem : (310 - power).toNat ∈ before ++ i :: after := by
      rw [← hrange, List.mem_range]
      omega
    have hsorted : (before ++ i :: after).Pairwise (· < ·) := hrange ▸ List.pairwise_lt_range
    obtain ⟨-, htail, -⟩ := List.pairwise_append.1 hsorted
    have hbeforeMem : (310 - power).toNat ∈ before := by
      rcases List.mem_append.1 hmem with hmem | hmem
      · exact hmem
      · rcases List.mem_cons.1 hmem with heq | hmem
        · omega
        · have hlater := (List.pairwise_cons.1 htail).1 _ hmem
          omega
    have hnone := hbefore _ hbeforeMem
    rw [Int.toNat_of_nonneg (by omega), Int.sub_sub_self] at hnone
    have hsome := isSome_pointOnGrid? hfine
    rw [hnone] at hsome
    exact absurd hsome Bool.false_ne_true

/-! ## The size of the shortest decimal -/

/-- The upper end of the interval of the greatest doubles, below the greatest of all. -/
def topLimit : Nat :=
  (2 ^ 55 - 6) * wordBound 969

namespace IsCoarsest

variable {d : Scaled}

theorem digits_pos (h : b.IsCoarsest d) : 0 < d.digits :=
  (pointOnGrid?_spec h.point).2.1

/-- A shortest decimal that is a whole number lies in the interval of its double. -/
theorem value_le (h : b.IsCoarsest d) (hpower : 0 ≤ d.power) :
    d.digits * tens d.power.toNat ≤ b.highQuarters * wordBound (b.power - 2).toNat := by
  have hend := le_of_isRoundedFrom (pointOnGrid?_spec h.point).2.2
  have hunit : tens (-d.power).toNat = 1 := by rw [Int.toNat_of_nonpos (by omega)]; rfl
  rw [step_eq, quarter_eq, hunit, Nat.one_mul, ← wordBound_eq (b.power - 2).toNat,
    ← Nat.mul_assoc] at hend
  exact (Nat.le_mul_of_pos_right _ (Nat.two_pow_pos _)).trans hend

theorem highQuarters_le (hb : b.Fits) : b.highQuarters ≤ 2 ^ 55 - 2 := by
  have := hb.mantissa
  rw [highQuarters]
  omega

/-- No double reaches `10 ^ 309`. -/
theorem power_le_max (h : b.IsCoarsest d) (hb : b.Fits) : d.power ≤ 308 := by
  by_contra hgreat
  have hhighest := hb.highest
  have hvalue := h.value_le (by omega)
  have htens : tens 309 ≤ tens d.power.toNat := tens_mono (by omega)
  have hbound : (2 ^ 55 - 2) * wordBound 969 < tens 309 := by decide +kernel
  have hend : b.highQuarters * wordBound (b.power - 2).toNat ≤ (2 ^ 55 - 2) * wordBound 969 :=
    Nat.mul_le_mul (highQuarters_le hb) (wordBound_mono (by omega))
  have hdigits : tens d.power.toNat ≤ d.digits * tens d.power.toNat :=
    Nat.le_mul_of_pos_left _ h.digits_pos
  omega

/-- The digits of a shortest decimal fit a word of 64 bits. -/
theorem digits_lt (h : b.IsCoarsest d) (hb : b.Fits) : d.digits < wordBound 64 := by
  have hmost := h.power_le_max hb
  have hend := le_of_isRoundedFrom (pointOnGrid?_spec h.point).2.2
  have hhigh := highQuarters_le hb
  -- The next grid is too coarse: its step is more than a quarter.
  have hnext := h.coarser (d.power + 1) (by omega) (by omega)
  let scale := b.quarter (d.power + 1) * b.quarter d.power
  have hscale : 0 < scale := Nat.mul_pos quarter_pos quarter_pos
  have hscaled : d.digits * scale ≤ 10 * b.highQuarters * scale := by
    calc d.digits * (b.quarter (d.power + 1) * b.quarter d.power)
        ≤ d.digits * (b.step (d.power + 1) * b.quarter d.power) := by gcongr
      _ = 10 * (d.digits * b.step d.power) * b.quarter (d.power + 1) := by rw [step_succ]; ring
      _ ≤ 10 * (b.highQuarters * b.quarter d.power) * b.quarter (d.power + 1) := by gcongr
      _ = 10 * b.highQuarters * (b.quarter (d.power + 1) * b.quarter d.power) := by ring
  have hdigits := Nat.le_of_mul_le_mul_right hscaled hscale
  rw [wordBound_eq]
  omega

/-- Below the top binade rounding leaves enough room. -/
theorem product_lt_of_low (h : b.IsCoarsest d) (hb : b.Fits) (hpower : 0 ≤ d.power)
    (hlow : b.power ≤ 970) :
    nearestDouble d.digits * nearestDouble (tens d.power.toNat) < infinityBound := by
  have hvalue : d.digits * tens d.power.toNat ≤ (2 ^ 55 - 2) * wordBound 968 :=
    (h.value_le hpower).trans (Nat.mul_le_mul (highQuarters_le hb) (wordBound_mono (by omega)))
  have hroom : 25 * ((2 ^ 55 - 2) * wordBound 968) < 16 * infinityBound := by decide +kernel
  have hproduct : 16 * (nearestDouble d.digits * nearestDouble (tens d.power.toNat)) ≤
      25 * (d.digits * tens d.power.toNat) := by
    calc 16 * (nearestDouble d.digits * nearestDouble (tens d.power.toNat))
        = (4 * nearestDouble d.digits) * (4 * nearestDouble (tens d.power.toNat)) := by ring
      _ ≤ (5 * d.digits) * (5 * tens d.power.toNat) :=
        Nat.mul_le_mul (four_mul_nearestDouble_le _) (four_mul_nearestDouble_le _)
      _ = 25 * (d.digits * tens d.power.toNat) := by ring
  omega

/-- In the top binade the decimal has one of few powers of ten, and for each the greatest digits
are checked. -/
theorem product_lt_of_top (h : b.IsCoarsest d) (hb : b.Fits) (hpower : 0 ≤ d.power)
    (htop : b.power = 971) :
    nearestDouble d.digits * nearestDouble (tens d.power.toNat) < infinityBound := by
  have hgrid : 291 ≤ d.power := by
    by_contra hfine
    have hcoarse := h.coarser 291 (by omega) (by decide)
    rw [step_eq, quarter_eq, htop] at hcoarse
    exact absurd hcoarse (by decide +kernel)
  have hmost := h.power_le_max hb
  by_cases hgreatest : b.mantissa = 2 ^ 53 - 1
  · have hbottom : b.atBottom = false := Bool.eq_false_iff.2 fun hbottom => by
      have := hb.bottom hbottom
      omega
    have hself : b = ⟨2 ^ 53 - 1, 971, false⟩ := by
      cases b
      simp_all
    have hfound : (⟨2 ^ 53 - 1, 971, false⟩ : Binary).shortest? = some ⟨17976931348623157, 292⟩ := by
      decide +kernel
    obtain rfl : d = ⟨17976931348623157, 292⟩ :=
      Option.some.inj (h.found.symm.trans (hself ▸ hfound))
    decide +kernel
  · have hmantissa := hb.mantissa
    have hvalue : d.digits * tens d.power.toNat ≤ topLimit := by
      refine (h.value_le hpower).trans (Nat.mul_le_mul ?_ (wordBound_mono (by omega)))
      rw [highQuarters]
      omega
    have hdigits : d.digits ≤ topLimit / tens d.power.toNat :=
      (Nat.le_div_iff_mul_le (tens_pos _)).2 hvalue
    have htable : ∀ i < 18, nearestDouble (topLimit / tens (291 + i)) *
        nearestDouble (tens (291 + i)) < infinityBound := by decide +kernel
    have hentry := htable (d.power.toNat - 291) (by omega)
    rw [Nat.add_sub_cancel' (by omega)] at hentry
    exact (Nat.mul_le_mul_right _ (nearestDouble_mono hdigits)).trans_lt hentry

/-- The digits and the power of ten lead to no infinity. -/
theorem product_lt (h : b.IsCoarsest d) (hb : b.Fits) (hpower : 0 ≤ d.power) :
    nearestDouble d.digits * nearestDouble (tens d.power.toNat) < infinityBound := by
  rcases Int.lt_or_eq_of_le hb.highest with hlow | htop
  · exact h.product_lt_of_low hb hpower (by omega)
  · exact h.product_lt_of_top hb hpower htop

end IsCoarsest

end Binary

/-! ## Doubles -/

section Bits

open Float.Model

variable {x : Float}

theorem toNat_unpackExponent (bits : UInt64) :
    (@UnpackedFloat.unpackExponent Format.binary64 bits.toBitVec).toNat =
      bits.toNat / wordBound 52 % wordBound 11 := by
  rw [UnpackedFloat.unpackExponent, BitVec.toNat_cast, BitVec.extractLsb_toNat,
    Nat.shiftRight_eq_div_pow]
  rfl

theorem toNat_unpackMantissa (bits : UInt64) :
    (@UnpackedFloat.unpackMantissa Format.binary64 bits.toBitVec).toNat =
      bits.toNat % wordBound 52 := by
  rw [UnpackedFloat.unpackMantissa, BitVec.toNat_cast, BitVec.extractLsb_toNat, Nat.shiftRight_zero]
  rfl

/-- The greatest exponent is not the one of a finite double. -/
theorem biased_ne_of_isFinite (h : x.isFinite = true) :
    x.toBits.toNat / wordBound 52 % wordBound 11 ≠ 2047 := by
  intro hmax
  have hexponent : @UnpackedFloat.unpackExponent Format.binary64 x.toBits.toBitVec = -1#_ := by
    rw [← BitVec.toNat_inj, toNat_unpackExponent, hmax]
    rfl
  let sign := UnpackedFloat.Sign.ofBitVec
    (@UnpackedFloat.unpackSign Format.binary64 x.toBits.toBitVec)
  have hunpack : x.toModel.unpack =
      if @UnpackedFloat.unpackMantissa Format.binary64 x.toBits.toBitVec = 0#_ then .infinity sign
      else .notANumber := if_pos hexponent
  have hfinite : x.isFinite = x.toModel.unpack.isFinite := rfl
  rw [hfinite, hunpack] at h
  split_ifs at h <;> exact absurd h Bool.false_ne_true

/-- A double without exponent and fraction is a zero of either sign. -/
theorem beq_zero (hbiased : x.toBits.toNat / wordBound 52 % wordBound 11 = 0)
    (hfraction : x.toBits.toNat % wordBound 52 = 0) : (x == 0) = true := by
  have hexponent : @UnpackedFloat.unpackExponent Format.binary64 x.toBits.toBitVec = 0#_ := by
    rw [← BitVec.toNat_inj, toNat_unpackExponent, hbiased]
    rfl
  have hmantissa : @UnpackedFloat.unpackMantissa Format.binary64 x.toBits.toBitVec = 0#_ := by
    rw [← BitVec.toNat_inj, toNat_unpackMantissa, hfraction]
    rfl
  let sign := UnpackedFloat.Sign.ofBitVec
    (@UnpackedFloat.unpackSign Format.binary64 x.toBits.toBitVec)
  have hsmall : (@UnpackedFloat.unpackExponent Format.binary64 x.toBits.toBitVec) ≠ -1#_ := by
    rw [hexponent]
    decide
  have hunpack : x.toModel.unpack = .zero sign :=
    (if_neg hsmall).trans ((if_pos hexponent).trans (dif_pos hmantissa))
  have hbeq : (x == 0) = x.toModel.unpack.beq (0 : Float).toModel.unpack := rfl
  rw [hbeq, hunpack]
  cases sign <;> decide +kernel

end Bits

/-- The digits of a decimal fit a word of 64 bits, and scaling them in floating point leads to no
infinity. -/
structure Scaled.Fits (d : Scaled) : Prop where
  digits_lt : d.digits < wordBound 64
  power_le : d.power ≤ 308
  product_lt : 0 ≤ d.power →
    nearestDouble d.digits * nearestDouble (tens d.power.toNat) < infinityBound

/-- A finite double has a shortest decimal. -/
theorem exists_shortest? {x : Float} (h : x.isFinite = true) :
    ∃ d, shortest? x = some d ∧ d.Fits := by
  have hbiased := biased_ne_of_isFinite h
  unfold shortest?
  cases hbits : Binary.ofBits? x.toBits with
  | some b =>
    have hb := Binary.fits_of_ofBits? hbits
    obtain ⟨d, hd⟩ := Binary.exists_isCoarsest hb
    exact ⟨d, hd.found, hd.digits_lt hb, hd.power_le_max hb, hd.product_lt hb⟩
  | none =>
    have hzero : (x == 0) = true := by
      simp only [Binary.ofBits?] at hbits
      split_ifs at hbits with hinfinite hsmall hfraction
      · exact absurd hinfinite hbiased
      · exact beq_zero hsmall hfraction
    exact ⟨⟨0, 0⟩, if_pos hzero, by decide, by decide, fun _ => by decide +kernel⟩

end PhotoIntake.Decimal
