import PhotoIntake.History.Basic
import Mathlib

/-!
# What files are recognised by

A file is told from others by its name, its size and the time of its last change, which is a double.
A double that is no number would be equal to no time, not even to itself.  But the times of files
are made from counts by operations that keep to numbers that are not negative, so every file can be
recognised.
-/

namespace PhotoIntake

namespace FileIdentity

open Float.Model (Format UnpackedFloat)
open Float.Model.UnpackedFloat

/-! ## Doubles that are not negative -/

/-- A number that is zero or more. -/
def IsNonneg : UnpackedFloat → Prop
  | .notANumber => False
  | .infinity sign => sign = .positive
  | .zero sign => sign = .positive
  | .finite sign _ _ _ => sign = .positive

/-- A finite number that is more than zero. -/
def isPositive : UnpackedFloat → Bool
  | .finite .positive _ _ _ => true
  | _ => false

theorem eq_finite_of_isPositive {x : UnpackedFloat} (h : isPositive x = true) :
    ∃ mantissa exponent hpos, x = .finite .positive mantissa exponent hpos := by
  unfold isPositive at h
  split at h
  · exact ⟨_, _, _, rfl⟩
  · simp at h

variable {spec : Format} {x y : UnpackedFloat}

theorem isNonneg_roundWithAccuracy (mantissa : Nat) (exponent : Int) (accuracy : Accuracy) :
    IsNonneg (roundWithAccuracy spec .positive mantissa exponent accuracy) := by
  unfold roundWithAccuracy
  simp only
  split <;> rfl

theorem isNonneg_normalize {mantissa : Int} (h : 0 ≤ mantissa) (exponent : Int) :
    IsNonneg (UnpackedFloat.normalize spec mantissa exponent .positive) := by
  unfold UnpackedFloat.normalize
  split
  · rename_i hlt
    exact absurd (Int.compare_eq_lt.1 hlt) (Int.not_lt.2 h)
  · rfl
  · exact isNonneg_roundWithAccuracy _ _ _

theorem IsNonneg.mul (hx : IsNonneg x) (hy : isPositive y = true) :
    IsNonneg (UnpackedFloat.mul spec x y) := by
  obtain ⟨mantissa, exponent, hpos, rfl⟩ := eq_finite_of_isPositive hy
  cases x with
  | notANumber => exact hx
  | infinity sign =>
    obtain rfl : sign = .positive := hx
    rfl
  | zero sign =>
    obtain rfl : sign = .positive := hx
    rfl
  | finite sign =>
    obtain rfl : sign = .positive := hx
    exact isNonneg_roundWithAccuracy _ _ _

theorem IsNonneg.div (hx : IsNonneg x) (hy : isPositive y = true) :
    IsNonneg (UnpackedFloat.div spec x y) := by
  obtain ⟨mantissa, exponent, hpos, rfl⟩ := eq_finite_of_isPositive hy
  cases x with
  | notANumber => exact hx
  | infinity sign =>
    obtain rfl : sign = .positive := hx
    rfl
  | zero sign =>
    obtain rfl : sign = .positive := hx
    rfl
  | finite sign =>
    obtain rfl : sign = .positive := hx
    exact isNonneg_roundWithAccuracy _ _ _

theorem IsNonneg.add (hx : IsNonneg x) (hy : IsNonneg y) :
    IsNonneg (UnpackedFloat.add spec x y) := by
  cases x with
  | notANumber => exact hx
  | infinity sign =>
    obtain rfl : sign = .positive := hx
    cases y with
    | notANumber => exact hy
    | infinity sign =>
      obtain rfl : sign = .positive := hy
      rfl
    | _ => rfl
  | zero sign =>
    obtain rfl : sign = .positive := hx
    cases y with
    | zero sign =>
      obtain rfl : sign = .positive := hy
      rfl
    | _ => exact hy
  | finite sign =>
    obtain rfl : sign = .positive := hx
    cases y with
    | notANumber => exact hy
    | infinity sign => exact hy
    | zero sign => rfl
    | finite sign =>
      obtain rfl : sign = .positive := hy
      exact isNonneg_normalize (Int.add_nonneg (Int.natCast_nonneg _) (Int.natCast_nonneg _)) _

theorem isNonneg_ofScientific (digits : Nat) (power : Int) :
    IsNonneg (ofScientific spec digits power) := by
  unfold ofScientific
  split_ifs
  · rfl
  · rfl
  · rfl
  · exact IsNonneg.mul rfl rfl
  · exact IsNonneg.div rfl rfl

/-- The parts of a number that is not negative make one, unless they are those of no number. -/
theorem isNonneg_unpack_packComponents {exponent : BitVec spec.exponentBits}
    {mantissa : BitVec spec.mantissaBitsWithoutImplicit} (h : exponent = -1#_ → mantissa = 0#_) :
    IsNonneg (unpack spec (packComponents spec .positive exponent mantissa)) := by
  unfold unpack
  simp only [unpackMantissa_packComponents, unpackExponent_packComponents,
    unpackSign_packComponents, Sign.ofBitVec_toBitVec]
  split_ifs with hexponent hmantissa
  · rfl
  · exact absurd (h hexponent) hmantissa
  · rfl
  · rfl
  · rfl

/-- Packing rounds no number that is not negative to what is none. -/
theorem IsNonneg.unpack_pack (hx : IsNonneg x) : IsNonneg (unpack spec (pack spec x)) := by
  have hinfinity : IsNonneg (unpack spec (packedInfinity spec .positive)) :=
    isNonneg_unpack_packComponents fun _ => rfl
  cases x with
  | notANumber => exact hx.elim
  | infinity sign =>
    obtain rfl : sign = .positive := hx
    exact hinfinity
  | zero sign =>
    obtain rfl : sign = .positive := hx
    exact isNonneg_unpack_packComponents fun _ => rfl
  | finite sign mantissa exponent hpos =>
    obtain rfl : sign = .positive := hx
    unfold pack
    simp only
    split_ifs with hgreat
    · exact hinfinity
    · refine isNonneg_unpack_packComponents fun h => absurd (congrArg BitVec.toNat h) ?_
      have hone : 1 < 2 ^ spec.exponentBits := Nat.one_lt_two_pow (Nat.ne_of_gt spec.he)
      rw [BitVec.toNat_ofNat, BitVec.neg_one_eq_allOnes, BitVec.toNat_allOnes,
        Nat.mod_eq_of_lt (by omega)]
      omega
    · refine isNonneg_unpack_packComponents fun h => absurd h ?_
      simp [BitVec.zero_eq_neg_one_iff, Nat.ne_of_gt spec.he]

/-! ## The times of files -/

/-- The double is zero or more. -/
def IsNonnegDouble (x : Float) : Prop :=
  IsNonneg x.toModel.unpack

theorem IsNonnegDouble.ne_nan {x : Float} (hx : IsNonnegDouble x) : x ≠ .nan := by
  intro hnan
  have hunpack : x.toModel.unpack = .notANumber :=
    isNaN_iff.1 (Float.isNaN_eq_decide_eq_nan.trans (decide_eq_true hnan))
  rw [IsNonnegDouble, hunpack] at hx
  exact hx

theorem isNonnegDouble_ofNat (n : Nat) : IsNonnegDouble (Float.ofNat n) := by
  have hcount (n : UInt64) : IsNonnegDouble n.toFloat :=
    (isNonneg_normalize (Int.natCast_nonneg _) 0).unpack_pack
  show IsNonnegDouble (Float.ofScientific n false 0)
  unfold Float.ofScientific
  by_cases hsmall : n < 2 ^ 53 ∧ 0 ≤ 22
  · rw [dif_pos hsmall]
    have hone : isPositive (Float.ofBits 0x3FF0000000000000).toModel.unpack = true := by
      decide +kernel
    exact ((hcount _).mul hone).unpack_pack
  · rw [dif_neg hsmall]
    exact (isNonneg_ofScientific n 0).unpack_pack

/-- The time of a file is a number. -/
theorem isNonnegDouble_seconds (nanos : Int) : IsNonnegDouble (seconds nanos) := by
  have hsecond : isPositive (1e9 : Float).toModel.unpack = true := by decide +kernel
  have hfraction : IsNonnegDouble (Float.ofNat (nanos.toNat % 1000000000) / 1e9) :=
    ((isNonnegDouble_ofNat _).div hsecond).unpack_pack
  exact ((isNonnegDouble_ofNat _).add hfraction).unpack_pack

/-- What a file is recognised by has a time. -/
theorem modified_ne_nan {t : FileTree} {p : Path} {id : FileIdentity} (h : ofPath t p = .ok id) :
    id.modified ≠ .nan := by
  unfold ofPath at h
  split at h
  · simp at h
  · simp at h
  · split_ifs at h
    obtain rfl := Except.ok.inj h
    exact (isNonnegDouble_seconds _).ne_nan

/-- Two files of this kind are taken for one file. -/
def Same (a b : FileIdentity) : Prop :=
  a.name = b.name ∧ a.size = b.size ∧ (a.modified == b.modified) = true

instance (a b : FileIdentity) : Decidable (a.Same b) :=
  inferInstanceAs (Decidable (_ ∧ _))

/-- A file with a time is taken for itself. -/
theorem same_self {id : FileIdentity} (h : id.modified ≠ .nan) : id.Same id :=
  ⟨rfl, rfl, Float.beq_self_iff.2 h⟩

end FileIdentity

namespace History

open FileIdentity (Same)

/-- How the time of a file is kept: the two zeros are one time. -/
def timeBits (x : Float) : UInt64 :=
  if x == 0 then 0 else x.toBits

theorem timeBits_eq_iff {x y : Float} (hx : x ≠ .nan) (hy : y ≠ .nan) :
    timeBits x = timeBits y ↔ (x == y) = true := by
  have hzero {x : Float} (h : x.toBits = 0) : x = 0 :=
    Float.toBits_inj.1 (h.trans (by decide +kernel))
  have hself : ((0 : Float) == 0) = true := by decide +kernel
  unfold timeBits
  by_cases hx0 : (x == 0) = true
  · by_cases hy0 : (y == 0) = true
    · simp [hx0, hy0, BEq.trans hx0 (BEq.symm hy0)]
    · rw [if_pos hx0, if_neg hy0]
      refine ⟨fun h => absurd ?_ hy0, fun h => absurd (BEq.trans (BEq.symm h) hx0) hy0⟩
      rw [hzero h.symm]
      exact hself
  · by_cases hy0 : (y == 0) = true
    · rw [if_neg hx0, if_pos hy0]
      refine ⟨fun h => absurd ?_ hx0, fun h => absurd (BEq.trans h hy0) hx0⟩
      rw [hzero h]
      exact hself
    · rw [if_neg hx0, if_neg hy0, Float.toBits_inj]
      refine ⟨fun h => h ▸ Float.beq_self_iff.2 hx, fun h => ?_⟩
      rcases (Float.beq_iff_ne_nan_and_eq.1 h).2.2 with heq | ⟨rfl, -⟩ | ⟨-, rfl⟩
      · exact heq
      · exact absurd hself hx0
      · exact absurd hself hy0

/-- A file with a time has a key. -/
theorem keyOf?_eq_some {id : FileIdentity} (h : id.modified ≠ .nan) :
    keyOf? id = some ⟨id.name, id.size, timeBits id.modified⟩ := by
  have hnan : id.modified.isNaN = false := Float.isNaN_eq_decide_eq_nan.trans (decide_eq_false h)
  unfold keyOf? timeBits
  rw [hnan, if_neg Bool.false_ne_true]
  split_ifs <;> rfl

/-- A file without a time has none. -/
theorem keyOf?_eq_none {id : FileIdentity} (h : id.modified = .nan) : keyOf? id = none := by
  rw [keyOf?, Float.isNaN_eq_decide_eq_nan, decide_eq_true h, if_pos rfl]

/-- Files have one key if they are taken for one file. -/
theorem keyOf?_eq_iff {a b : FileIdentity} (ha : a.modified ≠ .nan) :
    keyOf? a = keyOf? b ↔ a.Same b := by
  rw [keyOf?_eq_some ha, Same]
  by_cases hb : b.modified = .nan
  · rw [keyOf?_eq_none hb, hb]
    simp
  · rw [keyOf?_eq_some hb, ← timeBits_eq_iff ha hb]
    simp

end History

end PhotoIntake
