import Mathlib.Algebra.Group.Nat.Defs
import Mathlib.Order.Basic
import Mathlib.Order.Nat
import GoalScript.Number.Binary

namespace GoalScript.Number

open Float.Model UnpackedFloat

/-- A mantissa of 53 bits, and an exponent that is stored with it. -/
structure IsNormal (mant : Nat) (exp : Int) : Prop where
  le_mant : 2 ^ 52 ≤ mant
  mant_lt : mant < 2 ^ 53
  le_exp : -1074 ≤ exp
  exp_le : exp ≤ 971

variable {mant n : Nat} {exp : Int} {x y : Float} {sign : Sign}

theorem IsNormal.pos (normal : IsNormal mant exp) : 0 < mant :=
  Nat.lt_of_lt_of_le (by decide) normal.le_mant

theorem IsNormal.log2_eq (normal : IsNormal mant exp) : mant.log2 = 52 :=
  (Nat.log2_eq_iff normal.pos.ne').mpr ⟨normal.le_mant, normal.mant_lt⟩

@[simp] theorem unpackSign_packComponents {spec : Float.Model.Format} {sign exponent mantissa} :
    unpackSign (packComponents spec sign exponent mantissa) = sign.toBitVec := by
  ext i hi
  obtain rfl : i = 0 := by omega
  unfold unpackSign packComponents
  simp [BitVec.getLsbD_append, BitVec.getElem_append]

@[simp] theorem ofBitVec_toBitVec (sign : Sign) : Sign.ofBitVec sign.toBitVec = sign := by
  cases sign <;> rfl

/-- The leading bit of a mantissa is not stored. -/
theorem toNat_implicit (fraction : BitVec 52) :
    (1#1 ++ fraction).toNat = 2 ^ 52 + fraction.toNat := by
  rw [BitVec.toNat_append, ← Nat.shiftLeft_add_eq_or_of_lt fraction.isLt]
  simp [Nat.shiftLeft_eq]

/-- What a number unpacks to, by its parts. -/
def ofParts (sign : Sign) (exponent : BitVec Format.binary64.exponentBits)
    (mantissa : BitVec Format.binary64.mantissaBitsWithoutImplicit) : UnpackedFloat :=
  if exponent = -1#11 then
    if mantissa = 0#52 then .infinity sign else .notANumber
  else if exponent = 0#11 then
    if h : mantissa = 0#52 then .zero sign
    else .finite sign mantissa.toNat (exponent.toNat - 1075 + 1)
      (Nat.pos_of_ne_zero fun none => h (BitVec.eq_of_toNat_eq none))
  else .finite sign (1#1 ++ mantissa).toNat (exponent.toNat - 1075)
    (toNat_implicit mantissa ▸ Nat.add_pos_left (by decide) _)

theorem unpack_eq_ofParts (bits : BitVec 64) :
    unpack Format.binary64 bits =
      ofParts (Sign.ofBitVec (@unpackSign Format.binary64 bits)) (unpackExponent bits)
        (unpackMantissa bits) := rfl

@[simp] theorem unpack_packComponents (sign : Sign)
    (exponent : BitVec Format.binary64.exponentBits)
    (mantissa : BitVec Format.binary64.mantissaBitsWithoutImplicit) :
    unpack Format.binary64 (packComponents Format.binary64 sign exponent mantissa) =
      ofParts sign exponent mantissa := by
  refine (unpack_eq_ofParts _).trans ?_
  rw [unpackExponent_packComponents, unpackMantissa_packComponents, unpackSign_packComponents,
    ofBitVec_toBitVec]

theorem ofParts_normal {biased fraction : Nat} (some : 0 < biased) (finite : biased < 2047)
    (h : fraction < 2 ^ 52) (sign : Sign) :
    ofParts sign (BitVec.ofNat _ biased) (BitVec.ofNat _ fraction) =
      .finite sign (2 ^ 52 + fraction) ((biased : Int) - 1075) (by omega) := by
  have exponent : (BitVec.ofNat 11 biased).toNat = biased := by
    rw [BitVec.toNat_ofNat, Nat.mod_eq_of_lt (by omega)]
  have mantissa : (1#1 ++ BitVec.ofNat 52 fraction).toNat = 2 ^ 52 + fraction := by
    rw [toNat_implicit, BitVec.toNat_ofNat, Nat.mod_eq_of_lt h]
  have full : BitVec.ofNat 11 biased ≠ -1#11 := by
    intro same
    have bits : biased = 2047 := exponent.symm.trans (congrArg BitVec.toNat same)
    omega
  have some' : BitVec.ofNat 11 biased ≠ 0#11 := by
    intro same
    have bits : biased = 0 := exponent.symm.trans (congrArg BitVec.toNat same)
    omega
  refine (if_neg full).trans ((if_neg some').trans ((UnpackedFloat.finite.injEq ..).mpr ?_))
  exact ⟨rfl, mantissa, congrArg (fun e : Nat => (e : Int) - 1075) exponent⟩

/-- What is stored of a number is read back. -/
theorem unpack_pack (normal : IsNormal mant exp) (sign : Sign) :
    (Float.Model.pack (.finite sign mant exp normal.pos)).unpack =
      .finite sign mant exp normal.pos := by
  obtain ⟨fraction, rfl⟩ := Nat.exists_eq_add_of_le normal.le_mant
  obtain ⟨biased, rfl⟩ : ∃ biased : Nat, exp = (biased : Int) - 1075 :=
    ⟨(exp + 1075).toNat, by have := normal.le_exp; omega⟩
  have upper := normal.mant_lt
  have low := normal.le_exp
  have high := normal.exp_le
  have exponent : ((biased : Int) - 1075 + Format.binary64.exponentBias +
      Format.binary64.mantissaBitsWithoutImplicit).toNat = biased := by
    have bias : Format.binary64.exponentBias = 1023 := rfl
    have bits : Format.binary64.mantissaBitsWithoutImplicit = 52 := rfl
    omega
  have leading : (2 ^ 52 + fraction).log2 + 1 = Format.binary64.mantissaBits := by
    rw [normal.log2_eq]
    rfl
  have mantissa : BitVec.ofNat 52 (2 ^ 52 + fraction) = BitVec.ofNat 52 fraction := by
    apply BitVec.eq_of_toNat_eq
    simp
  have bounded : ¬ 2 ^ Format.binary64.exponentBits ≤ biased + 1 := by
    have bits : 2 ^ Format.binary64.exponentBits = 2048 := rfl
    omega
  have packed : UnpackedFloat.pack Format.binary64
      (.finite sign (2 ^ 52 + fraction) ((biased : Int) - 1075) normal.pos) =
        packComponents Format.binary64 sign (BitVec.ofNat _ biased) (BitVec.ofNat _ fraction) := by
    unfold UnpackedFloat.pack
    simp only [exponent, leading, bounded, if_false, if_true, mantissa]
  change UnpackedFloat.unpack Format.binary64 (UnpackedFloat.pack Format.binary64 _) = _
  rw [packed]
  rw [unpack_packComponents]
  exact ofParts_normal (by omega) (by omega) (by omega) sign

theorem log2_mul_two_pow (h : n ≠ 0) (k : Nat) : (n * 2 ^ k).log2 = n.log2 + k := by
  have some : n * 2 ^ k ≠ 0 := Nat.mul_ne_zero h (Nat.two_pow_pos k).ne'
  refine (Nat.log2_eq_iff some).mpr ⟨?_, ?_⟩
  · rw [Nat.pow_add]
    exact Nat.mul_le_mul_right _ (Nat.log2_self_le h)
  · rw [Nat.add_right_comm, Nat.pow_add]
    exact Nat.mul_lt_mul_of_pos_right Nat.lt_log2_self (Nat.two_pow_pos k)

theorem shiftRight_mul_two_pow (k : Nat) :
    (⟨mant * 2 ^ k, false, false⟩ : ExtendedMantissa) >>> k = ⟨mant, false, false⟩ := by
  induction k generalizing mant with
  | zero => simp [HShiftRight.hShiftRight, Nat.repeat]
  | succ k ih =>
    have later := @ih (mant * 2)
    rw [Nat.mul_assoc, ← Nat.pow_succ'] at later
    change ExtendedMantissa.shiftRightOne ((⟨_, false, false⟩ : ExtendedMantissa) >>> k) = _
    rw [later]
    simp [ExtendedMantissa.shiftRightOne]

theorem shiftToTargetExponent_mul_two_pow (normal : IsNormal mant exp) (k : Nat) :
    shiftToTargetExponent Format.binary64 (mant * 2 ^ k) (exp - k) .exact =
      (⟨mant, false, false⟩, exp) := by
  have low := normal.le_exp
  have target : Format.binary64.targetExponent (totalExponent (mant * 2 ^ k) (exp - k)) = exp := by
    rw [totalExponent, log2_mul_two_pow normal.pos.ne', normal.log2_eq]
    change max (_ - 53) (-1074) = exp
    omega
  have amount : (exp - (exp - k)).toNat = k := by omega
  have back : exp - k + k = exp := by omega
  unfold shiftToTargetExponent shiftToExponent
  rw [target]
  simp only [amount, ExtendedMantissa.ofMantissaAndAccuracy, shiftRight_mul_two_pow, back]

/-- Rounding takes zeros away that were shifted in behind a mantissa. -/
theorem roundWithAccuracy_mul_two_pow (normal : IsNormal mant exp) (sign : Sign) (k : Nat) :
    roundWithAccuracy Format.binary64 sign (mant * 2 ^ k) (exp - k) .exact =
      .finite sign mant exp normal.pos := by
  have again := shiftToTargetExponent_mul_two_pow normal 0
  rw [Nat.pow_zero, Nat.mul_one, Int.natCast_zero, Int.sub_zero] at again
  have rounded : (⟨mant, false, false⟩ : ExtendedMantissa).roundedMantissa = mant := rfl
  unfold roundWithAccuracy
  rw [shiftToTargetExponent_mul_two_pow normal k]
  dsimp only
  rw [rounded, again]
  exact dif_neg normal.pos.ne'

/-- A whole number is written with as many zeros behind it as make 53 bits of it. -/
def wholeMantissa (n : Nat) : Nat := n * 2 ^ (52 - n.log2)

def wholeExponent (n : Nat) : Int := (n.log2 : Int) - 52

theorem isNormal_whole (some : n ≠ 0) (small : n < 2 ^ 53) :
    IsNormal (wholeMantissa n) (wholeExponent n) := by
  have bits : n.log2 < 53 := (Nat.log2_lt some).mpr small
  have zeros : n * 2 ^ (52 - n.log2) ≠ 0 := Nat.mul_ne_zero some (Nat.two_pow_pos _).ne'
  have leading : (n * 2 ^ (52 - n.log2)).log2 = 52 := by
    rw [log2_mul_two_pow some]
    omega
  obtain ⟨lower, upper⟩ := (Nat.log2_eq_iff zeros).mp leading
  exact ⟨lower, upper, by unfold wholeExponent; omega, by unfold wholeExponent; omega⟩

/-- A whole number below 2 ^ 53 needs no rounding. -/
theorem round_whole (some : n ≠ 0) (small : n < 2 ^ 53) (sign : Sign) :
    UnpackedFloat.round Format.binary64 sign n 0 =
      .finite sign (wholeMantissa n) (wholeExponent n) (isNormal_whole some small).pos := by
  have bits : n.log2 < 53 := (Nat.log2_lt some).mpr small
  have target : Format.binary64.targetExponent (totalExponent n 0) = wholeExponent n := by
    change max ((n.log2 : Int) + 1 + 0 - 53) (-1074) = (n.log2 : Int) - 52
    omega
  have amount : (0 - wholeExponent n).toNat = 52 - n.log2 := by unfold wholeExponent; omega
  have back : (0 : Int) - (52 - n.log2 : Nat) = wholeExponent n := by unfold wholeExponent; omega
  have exact := roundWithAccuracy_mul_two_pow (isNormal_whole some small) sign 0
  rw [Nat.pow_zero, Nat.mul_one, Int.natCast_zero, Int.sub_zero] at exact
  unfold UnpackedFloat.round decreaseExponent
  dsimp only
  rw [target, amount, back, Nat.shiftLeft_eq]
  exact exact

theorem unpack_toFloat (some : n ≠ 0) (small : n < 2 ^ 53) :
    n.toUInt64.toFloat.toModel.unpack =
      .finite .positive (wholeMantissa n) (wholeExponent n) (isNormal_whole some small).pos := by
  have same : n.toUInt64.toNat = n := by
    rw [Nat.toUInt64_eq, UInt64.toNat_ofNat']
    omega
  have positive : compare (n : Int) 0 = .gt := by
    rw [Int.compare_eq_gt]
    omega
  have rounded : UnpackedFloat.ofUInt64 Format.binary64 n.toUInt64 =
      .finite .positive (wholeMantissa n) (wholeExponent n) (isNormal_whole some small).pos := by
    unfold UnpackedFloat.ofUInt64 UnpackedFloat.ofNat UnpackedFloat.ofInt UnpackedFloat.normalize
    rw [same, positive]
    exact round_whole some small .positive
  change (Float.Model.pack (UnpackedFloat.ofUInt64 Format.binary64 n.toUInt64)).unpack = _
  rw [rounded, unpack_pack (isNormal_whole some small)]

/-- What is made of a whole number is multiplied with one. -/
theorem unpack_ofNat (some : n ≠ 0) (small : n < 2 ^ 53) :
    (Float.ofNat n).toModel.unpack =
      .finite .positive (wholeMantissa n) (wholeExponent n) (isNormal_whole some small).pos := by
  have product : Float.ofNat n = n.toUInt64.toFloat * Float.ofBits 0x3FF0000000000000 := by
    change Float.ofScientific n false 0 = _
    rw [Float.ofScientific, dif_pos ⟨small, by decide⟩]
    rfl
  have one : (Float.ofBits 0x3FF0000000000000).toModel.unpack =
      .finite .positive (2 ^ 52) (-52) (by decide) := rfl
  rw [product]
  change (Float.Model.pack (UnpackedFloat.mul Format.binary64 n.toUInt64.toFloat.toModel.unpack
    (Float.ofBits 0x3FF0000000000000).toModel.unpack)).unpack = _
  rw [unpack_toFloat some small, one]
  have normal := isNormal_whole some small
  change (Float.Model.pack (roundWithAccuracy Format.binary64 .positive (wholeMantissa n * 2 ^ 52)
    (wholeExponent n - (52 : Nat)) .exact)).unpack = _
  rw [roundWithAccuracy_mul_two_pow normal, unpack_pack normal]

def isNegative : Sign → Bool
  | .negative => true
  | .positive => false

def Binary.ofUnpacked : UnpackedFloat → Binary
  | .notANumber => .nan
  | .infinity sign => .infinite (isNegative sign)
  | .zero sign => .finite (isNegative sign) 0 (-1074)
  | .finite sign mant exp _ => .finite (isNegative sign) mant exp

theorem toNat_unpackExponent (bits : BitVec 64) :
    (@unpackExponent Format.binary64 bits).toNat = bits.toNat / pow2 52 % pow2 11 := by
  simp only [unpackExponent, BitVec.toNat_cast, BitVec.extractLsb_toNat,
    Nat.shiftRight_eq_div_pow]
  rfl

theorem toNat_unpackMantissa (bits : BitVec 64) :
    (@unpackMantissa Format.binary64 bits).toNat = bits.toNat % pow2 52 := by
  simp only [unpackMantissa, BitVec.toNat_cast, BitVec.extractLsb_toNat, Nat.shiftRight_zero]
  rfl

theorem isNegative_unpackSign (bits : BitVec 64) :
    isNegative (Sign.ofBitVec (@unpackSign Format.binary64 bits)) =
      (bits.toNat / pow2 63 == 1) := by
  have toNat_eq : (@unpackSign Format.binary64 bits).toNat = bits.toNat / pow2 63 % 2 := by
    unfold unpackSign
    simp only [BitVec.toNat_cast, BitVec.extractLsb_toNat, Nat.shiftRight_eq_div_pow]
    rfl
  have bound : bits.toNat / pow2 63 < 2 :=
    Nat.div_lt_of_lt_mul (show bits.toNat < pow2 63 * 2 from bits.isLt)
  rw [Nat.mod_eq_of_lt bound] at toNat_eq
  rw [← toNat_eq]
  rcases BitVec.eq_zero_or_eq_one (@unpackSign Format.binary64 bits) with zero | one
  · rw [zero]
    rfl
  · rw [one]
    rfl

theorem Binary.ofUnpacked_ofParts (sign : Sign) (exponent : BitVec Format.binary64.exponentBits)
    (mantissa : BitVec Format.binary64.mantissaBitsWithoutImplicit) :
    Binary.ofUnpacked (ofParts sign exponent mantissa) =
      if exponent.toNat == 2047 then
        if mantissa.toNat == 0 then .infinite (isNegative sign) else .nan
      else if exponent.toNat == 0 then .finite (isNegative sign) mantissa.toNat (-1074)
      else .finite (isNegative sign) (pow2 52 + mantissa.toNat) (exponent.toNat - 1075) := by
  have full : exponent = -1#11 ↔ exponent.toNat = 2047 := BitVec.toNat_inj.symm
  have none : exponent = 0#11 ↔ exponent.toNat = 0 := BitVec.toNat_inj.symm
  have whole : mantissa = 0#52 ↔ mantissa.toNat = 0 := BitVec.toNat_inj.symm
  conv_rhs => simp only [beq_iff_eq, ← full, ← none, ← whole]
  unfold ofParts
  by_cases top : exponent = -1#11
  · rw [if_pos top, if_pos top]
    split <;> rfl
  rw [if_neg top, if_neg top]
  by_cases bottom : exponent = 0#11
  · rw [if_pos bottom, if_pos bottom, bottom]
    by_cases zero : mantissa = 0#52
    · rw [dif_pos zero, zero]
      rfl
    · rw [dif_neg zero]
      rfl
  · rw [if_neg bottom, if_neg bottom]
    exact congrArg (Binary.finite _ · _) (toNat_implicit mantissa)

/-- What is read off the bits is what the number unpacks to. -/
theorem Binary.ofFloat_eq (x : Float) :
    Binary.ofFloat x = Binary.ofUnpacked x.toModel.unpack := by
  change _ = Binary.ofUnpacked (UnpackedFloat.unpack Format.binary64 x.toBits.toBitVec)
  rw [unpack_eq_ofParts, Binary.ofUnpacked_ofParts, toNat_unpackExponent, toNat_unpackMantissa,
    isNegative_unpackSign]
  rfl

variable {neg : Bool}

theorem unpack_of_finite (h : Binary.ofFloat x = .finite neg mant exp) (some : mant ≠ 0) :
    ∃ sign pos, x.toModel.unpack = .finite sign mant exp pos ∧ isNegative sign = neg := by
  rw [Binary.ofFloat_eq] at h
  cases unpacked : x.toModel.unpack with
  | notANumber | infinity sign =>
    rw [unpacked] at h
    cases h
  | zero sign =>
    rw [unpacked] at h
    cases h
    exact absurd rfl some
  | finite sign mant' exp' pos =>
    rw [unpacked] at h
    cases h
    exact ⟨sign, pos, rfl, rfl⟩

/-- A finite number is stored with the leading bit of its mantissa, or with the least exponent. -/
theorem finite_cases (h : Binary.ofFloat x = .finite neg mant exp) :
    mant < 2 ^ 52 ∧ exp = -1074 ∧ x.toBits.toNat = neg.toNat * 2 ^ 63 + mant ∨
      IsNormal mant exp ∧
        x.toBits.toNat = neg.toNat * 2 ^ 63 + (exp + 1075).toNat * 2 ^ 52 + (mant - 2 ^ 52) := by
  have word := x.toBits.toNat_lt
  have half : pow2 63 = 2 ^ 63 := rfl
  have fraction : pow2 52 = 2 ^ 52 := rfl
  have exponent : pow2 11 = 2 ^ 11 := rfl
  unfold Binary.ofFloat at h
  simp only [half, fraction, exponent, beq_iff_eq] at h
  have sign : (x.toBits.toNat / 2 ^ 63 == 1).toNat = x.toBits.toNat / 2 ^ 63 := by
    have bit : x.toBits.toNat / 2 ^ 63 ≤ 1 := by omega
    rcases Nat.le_one_iff_eq_zero_or_eq_one.mp bit with zero | one
    · rw [zero]
      rfl
    · rw [one]
      rfl
  split at h
  · split at h <;> cases h
  · split at h
    · cases h
      rw [sign]
      exact .inl ⟨by omega, rfl, by omega⟩
    · cases h
      rw [sign]
      exact .inr ⟨⟨by omega, by omega, by omega, by omega⟩, by omega⟩

/-- The sign, the mantissa and the exponent tell a finite number. -/
theorem eq_of_finite (h : Binary.ofFloat x = .finite neg mant exp)
    (h' : Binary.ofFloat y = .finite neg mant exp) : x = y := by
  have same : x.toBits.toNat = y.toBits.toNat := by
    rcases finite_cases h with ⟨small, -, bits⟩ | ⟨normal, bits⟩ <;>
      rcases finite_cases h' with ⟨small', -, bits'⟩ | ⟨normal', bits'⟩
    · rw [bits, bits']
    · exact absurd normal'.le_mant (Nat.not_le.mpr small)
    · exact absurd normal.le_mant (Nat.not_le.mpr small')
    · rw [bits, bits']
  obtain ⟨⟨bits, valid⟩⟩ := x
  obtain ⟨⟨bits', valid'⟩⟩ := y
  obtain rfl : bits = bits' := UInt64.toNat_inj.mp same
  rfl

variable {i : Int} {pos : 0 < mant}

theorem unpack_neg (normal : IsNormal mant exp)
    (h : x.toModel.unpack = .finite sign mant exp pos) :
    (-x).toModel.unpack = .finite (-sign) mant exp pos := by
  change (Float.Model.pack x.toModel.unpack.neg).unpack = _
  rw [h]
  exact unpack_pack normal (-sign)

theorem unpack_abs (normal : IsNormal mant exp)
    (h : x.toModel.unpack = .finite sign mant exp pos) :
    x.abs.toModel.unpack = .finite .positive mant exp pos := by
  change (Float.Model.pack x.toModel.unpack.abs).unpack = _
  rw [h]
  exact unpack_pack normal .positive

/-- Integers below 2 ^ 53 are converted exactly. -/
theorem ofFloat_ofInt (some : i ≠ 0) (small : i.natAbs < 2 ^ 53) :
    Binary.ofFloat (Float.ofInt i) =
      .finite (decide (i < 0)) (wholeMantissa i.natAbs) (wholeExponent i.natAbs) := by
  have some' : i.natAbs ≠ 0 := Int.natAbs_ne_zero.mpr some
  have unpacked := unpack_ofNat some' small
  rw [Binary.ofFloat_eq]
  cases i with
  | ofNat n =>
    have made : Float.ofInt (.ofNat n) = Float.ofNat n := rfl
    have positive : ¬ Int.ofNat n < 0 := by simp
    rw [made, decide_eq_false positive]
    exact congrArg Binary.ofUnpacked unpacked
  | negSucc n =>
    have made : Float.ofInt (.negSucc n) = -Float.ofNat (n + 1) := rfl
    have negated := unpack_neg (isNormal_whole some' small) unpacked
    rw [made, decide_eq_true (Int.negSucc_lt_zero n)]
    exact congrArg Binary.ofUnpacked negated

/-- Taking the zeros away again leaves the number. -/
theorem floorOf_mul_two_pow (n k : Nat) : floorOf (n * 2 ^ k) (-(k : Int)) = n := by
  unfold floorOf pow2
  split
  · obtain rfl : k = 0 := by omega
    simp
  · rw [Int.neg_neg, Int.toNat_natCast]
    exact Nat.mul_div_cancel n (Nat.two_pow_pos k)

theorem isWholeOf_iff (mant k : Nat) : isWholeOf mant (-(k : Int)) = true ↔ 2 ^ k ∣ mant := by
  unfold isWholeOf pow2
  rw [Int.neg_neg, Int.toNat_natCast, Bool.or_eq_true, decide_eq_true_iff, beq_iff_eq,
    ← Nat.dvd_iff_mod_eq_zero, or_iff_right_of_imp]
  · rfl
  · intro least
    obtain rfl : k = 0 := by omega
    exact Nat.one_dvd mant

/-- Zero has no leading bit, so it is stored in a way of its own. -/
theorem exists_ofFloat_ofInt (small : i.natAbs < 2 ^ 53) :
    ∃ k : Nat, Binary.ofFloat (Float.ofInt i) =
      .finite (decide (i < 0)) (i.natAbs * 2 ^ k) (-(k : Int)) := by
  by_cases some : i = 0
  · subst some
    exact ⟨1074, by decide +kernel⟩
  · have bits : i.natAbs.log2 < 53 := (Nat.log2_lt (Int.natAbs_ne_zero.mpr some)).mpr small
    refine ⟨52 - i.natAbs.log2, ?_⟩
    rw [ofFloat_ofInt some small, wholeMantissa, wholeExponent]
    congr 1
    omega

/-- An integer has no negative zero. -/
theorem ofInt_ne_negative_zero (small : i.natAbs < 2 ^ 53) : Float.ofInt i ≠ -0.0 := by
  intro same
  obtain ⟨k, read⟩ := exists_ofFloat_ofInt small
  have zero : Binary.ofFloat (-0.0) = .finite true 0 (-1074) := by decide +kernel
  rw [same, zero] at read
  obtain ⟨negative, none, -⟩ := Binary.finite.inj read
  have positive : 0 < i.natAbs * 2 ^ k :=
    Nat.mul_pos (by have := of_decide_eq_true negative.symm; omega) (Nat.two_pow_pos k)
  omega

theorem truncated_ofInt (small : i.natAbs < 2 ^ 53) : truncated? (Float.ofInt i) = some i := by
  obtain ⟨k, read⟩ := exists_ofFloat_ofInt small
  unfold truncated?
  rw [read]
  dsimp only
  rw [floorOf_mul_two_pow]
  by_cases negative : i < 0
  · rw [decide_eq_true negative, if_pos rfl]
    congr 1
    omega
  · rw [decide_eq_false negative, if_neg Bool.false_ne_true]
    congr 1
    omega

theorem isWhole_ofInt (small : i.natAbs < 2 ^ 53) : isWhole (Float.ofInt i) = true := by
  obtain ⟨k, read⟩ := exists_ofFloat_ofInt small
  unfold isWhole
  rw [read]
  exact (isWholeOf_iff _ k).mpr (Nat.dvd_mul_left _ _)

theorem eq_zero_of_whole {k : Nat} (low : mant < 2 ^ 52) (long : 52 ≤ k)
    (whole : isWholeOf mant (-(k : Int)) = true) : mant = 0 :=
  Nat.eq_zero_of_dvd_of_lt ((isWholeOf_iff mant k).mp whole)
    (Nat.lt_of_lt_of_le low (Nat.pow_le_pow_right (by decide) long))

/-- The bound below which whole numbers become integers. -/
theorem abs_lt_iff (normal : IsNormal mant exp) (h : Binary.ofFloat x = .finite neg mant exp) :
    x.abs < 9.0e15 ↔ exp < 0 ∨ exp = 0 ∧ mant < 9000000000000000 := by
  have bound : (9.0e15 : Float).toModel.unpack =
      .finite .positive 9000000000000000 0 (by decide) := rfl
  obtain ⟨sign, pos, unpacked, -⟩ := unpack_of_finite h normal.pos.ne'
  have magnitude := unpack_abs normal unpacked
  have compared : x.abs < 9.0e15 ↔
      UnpackedFloat.lt x.abs.toModel.unpack (9.0e15 : Float).toModel.unpack = true :=
    decide_eq_true_iff
  rw [compared, magnitude, bound]
  change (some ((compare exp 0).then (compare mant 9000000000000000)) == some .lt) = true ↔ _
  rw [beq_iff_eq, Option.some.injEq, Ordering.then_eq_lt, Int.compare_eq_lt, Int.compare_eq_eq,
    Nat.compare_eq_lt]

theorem abs_ofInt_lt (small : i.natAbs < 2 ^ 53) :
    (Float.ofInt i).abs < 9.0e15 ↔ i.natAbs < 9000000000000000 := by
  by_cases some : i = 0
  · subst some
    decide +kernel
  · have some' : i.natAbs ≠ 0 := Int.natAbs_ne_zero.mpr some
    rw [abs_lt_iff (isNormal_whole some' small) (ofFloat_ofInt some small), wholeMantissa,
      wholeExponent]
    have bits : i.natAbs.log2 < 53 := (Nat.log2_lt some').mpr small
    by_cases full : i.natAbs.log2 = 52
    · simp [full]
    · have shorter : i.natAbs < 2 ^ 52 := (Nat.log2_lt some').mp (by omega)
      omega

theorem eq_ofInt {k : Nat} (normal : IsNormal (n * 2 ^ k) (-(k : Int)))
    (h : Binary.ofFloat x = .finite neg (n * 2 ^ k) (-(k : Int))) :
    ∃ i : Int, i.natAbs < 2 ^ 53 ∧ x = Float.ofInt i := by
  have some : n ≠ 0 := by
    rintro rfl
    exact absurd normal.pos (by simp)
  have leading := normal.log2_eq
  rw [log2_mul_two_pow some] at leading
  have small : n < 2 ^ 53 :=
    Nat.lt_of_le_of_lt (Nat.le_mul_of_pos_right n (Nat.two_pow_pos k)) normal.mant_lt
  have zeros : 52 - n.log2 = k := by omega
  have exponent : (n.log2 : Int) - 52 = -k := by omega
  have read (i : Int) (abs : i.natAbs = n) : Binary.ofFloat (Float.ofInt i) =
      .finite (decide (i < 0)) (n * 2 ^ k) (-(k : Int)) := by
    rw [ofFloat_ofInt (by omega) (by omega), abs, wholeMantissa, wholeExponent, zeros, exponent]
  cases neg with
  | true =>
    refine ⟨-n, by omega, eq_of_finite h ?_⟩
    rw [read (-n) (by omega), decide_eq_true (by omega)]
  | false =>
    refine ⟨n, by omega, eq_of_finite h ?_⟩
    rw [read n (by omega), decide_eq_false (by omega)]

/-- The only whole number below the bound that no integer is converted to is the negative zero. -/
theorem exists_int_of_whole (whole : isWhole x = true) (small : x.abs < 9.0e15) :
    x = -0.0 ∨ ∃ i : Int, i.natAbs < 9000000000000000 ∧ x = Float.ofInt i := by
  unfold isWhole at whole
  split at whole
  · rename_i neg mant exp read
    rcases finite_cases read with ⟨low, rfl, -⟩ | ⟨normal, -⟩
    · obtain rfl : mant = 0 := eq_zero_of_whole low (show 52 ≤ 1074 by decide) whole
      cases neg with
      | true => exact .inl (eq_of_finite read (by decide +kernel))
      | false => exact .inr ⟨0, by decide, eq_of_finite read (by decide +kernel)⟩
    · obtain ⟨k, rfl⟩ : ∃ k : Nat, exp = -k := by
        have bounded := (abs_lt_iff normal read).mp small
        exact ⟨(-exp).toNat, by omega⟩
      obtain ⟨n, rfl⟩ := (isWholeOf_iff mant k).mp whole
      rw [Nat.mul_comm] at normal read
      obtain ⟨i, fits, rfl⟩ := eq_ofInt normal read
      exact .inr ⟨i, (abs_ofInt_lt fits).mp small, rfl⟩
  · cases whole

end GoalScript.Number
