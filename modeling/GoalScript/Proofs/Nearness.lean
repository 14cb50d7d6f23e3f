import Mathlib.Algebra.Order.Field.Power
import Mathlib.Data.Rat.Cast.Order
import Mathlib.Tactic.Linarith
import Mathlib.Tactic.Positivity
import Mathlib.Tactic.Ring
import GoalScript.Proofs.Exactness

namespace GoalScript.Number

open Float.Model UnpackedFloat

variable {mant n : Nat} {exp m : Int} {x y : Float} {sign : Sign} {b : Binary}

/-- Without a leading bit the whole mantissa is stored. -/
theorem ofParts_subnormal (pos : 0 < mant) (h : mant < 2 ^ 52) (sign : Sign) :
    ofParts sign 0#11 (BitVec.ofNat _ mant) = .finite sign mant (-1074) pos := by
  have fraction : (BitVec.ofNat 52 mant).toNat = mant := by
    rw [BitVec.toNat_ofNat, Nat.mod_eq_of_lt h]
  have some : BitVec.ofNat 52 mant ≠ 0#52 := by
    intro none
    have bits := congrArg BitVec.toNat none
    rw [fraction] at bits
    exact pos.ne' bits
  refine (if_neg (by decide)).trans ((if_pos rfl).trans ((dif_neg some).trans ?_))
  exact (UnpackedFloat.finite.injEq ..).mpr ⟨rfl, fraction, rfl⟩

theorem unpack_pack_subnormal (pos : 0 < mant) (h : mant < 2 ^ 52) (sign : Sign) :
    (Float.Model.pack (.finite sign mant (-1074) pos)).unpack = .finite sign mant (-1074) pos := by
  have leading : mant.log2 + 1 ≠ Format.binary64.mantissaBits := by
    have short : mant.log2 < 52 := (Nat.log2_lt pos.ne').mpr h
    have bits : Format.binary64.mantissaBits = 53 := rfl
    omega
  have bounded : ¬ 2 ^ Format.binary64.exponentBits ≤
      ((-1074 : Int) + Format.binary64.exponentBias +
        Format.binary64.mantissaBitsWithoutImplicit).toNat + 1 := by decide
  have packed : UnpackedFloat.pack Format.binary64 (.finite sign mant (-1074) pos) =
      packComponents Format.binary64 sign 0#11 (BitVec.ofNat _ mant) := by
    unfold UnpackedFloat.pack
    simp only [bounded, leading, if_false]
  change UnpackedFloat.unpack Format.binary64 (UnpackedFloat.pack Format.binary64 _) = _
  rw [packed, unpack_packComponents]
  exact ofParts_subnormal pos h sign

/-- What was read off the bits is stored with the same bits. -/
theorem unpack_pack_unpack (x : Float) :
    (Float.Model.pack x.toModel.unpack).unpack = x.toModel.unpack := by
  cases unpacked : x.toModel.unpack with
  | notANumber => rfl
  | infinity sign => cases sign <;> rfl
  | zero sign => cases sign <;> rfl
  | finite sign mant exp pos =>
    have read : Binary.ofFloat x = .finite (isNegative sign) mant exp := by
      rw [Binary.ofFloat_eq, unpacked]
      rfl
    rcases finite_cases read with ⟨low, rfl, -⟩ | ⟨normal, -⟩
    · exact unpack_pack_subnormal pos low sign
    · exact unpack_pack normal sign

theorem neg_neg_unpacked (f : UnpackedFloat) : f.neg.neg = f := by
  cases f with
  | notANumber => rfl
  | infinity sign | zero sign | finite sign mant exp pos => cases sign <;> rfl

theorem neg_mul_sign (sign sign' : Sign) : -sign * sign' = -(sign * sign') := by
  cases sign <;> cases sign' <;> rfl

theorem ofParts_neg (sign : Sign) (exponent : BitVec Format.binary64.exponentBits)
    (mantissa : BitVec Format.binary64.mantissaBitsWithoutImplicit) :
    ofParts (-sign) exponent mantissa = (ofParts sign exponent mantissa).neg := by
  unfold ofParts
  rw [apply_ite UnpackedFloat.neg, apply_ite UnpackedFloat.neg, apply_ite UnpackedFloat.neg,
    apply_dite UnpackedFloat.neg]
  rfl

theorem unpack_packComponents_neg {exponent : BitVec Format.binary64.exponentBits}
    {mantissa : BitVec Format.binary64.mantissaBitsWithoutImplicit} (sign : Sign) :
    unpack Format.binary64 (packComponents Format.binary64 (-sign) exponent mantissa) =
      (unpack Format.binary64 (packComponents Format.binary64 sign exponent mantissa)).neg := by
  rw [unpack_packComponents, unpack_packComponents, ofParts_neg]

/-- The sign is stored apart from everything else. -/
theorem exists_pack_finite (exp : Int) (pos : 0 < mant) : ∃ exponent mantissa, ∀ sign,
    UnpackedFloat.pack Format.binary64 (.finite sign mant exp pos) =
      packComponents Format.binary64 sign exponent mantissa := by
  by_cases full : 2 ^ Format.binary64.exponentBits ≤
      (exp + Format.binary64.exponentBias + Format.binary64.mantissaBitsWithoutImplicit).toNat + 1
  · exact ⟨_, _, fun _ => if_pos full⟩
  by_cases leading : mant.log2 + 1 = Format.binary64.mantissaBits
  · exact ⟨_, _, fun _ => (if_neg full).trans (if_pos leading)⟩
  · exact ⟨_, _, fun _ => (if_neg full).trans (if_neg leading)⟩

/-- Opposite numbers are stored alike but for the sign. -/
theorem unpack_pack_neg (f : UnpackedFloat) :
    (Float.Model.pack f.neg).unpack = (Float.Model.pack f).unpack.neg := by
  change unpack Format.binary64 (UnpackedFloat.pack Format.binary64 f.neg) =
    (unpack Format.binary64 (UnpackedFloat.pack Format.binary64 f)).neg
  cases f with
  | notANumber => rfl
  | infinity sign => exact unpack_packComponents_neg sign
  | zero sign => exact unpack_packComponents_neg sign
  | finite sign mant exp pos =>
    obtain ⟨exponent, mantissa, stored⟩ := exists_pack_finite exp pos
    change unpack _ (UnpackedFloat.pack Format.binary64 (.finite (-sign) mant exp pos)) = _
    rw [stored, stored, unpack_packComponents_neg]

theorem roundWithAccuracy_neg (sign : Sign) (mant : Nat) (exp : Int) (accuracy : Accuracy) :
    roundWithAccuracy Format.binary64 (-sign) mant exp accuracy =
      (roundWithAccuracy Format.binary64 sign mant exp accuracy).neg := by
  unfold roundWithAccuracy
  dsimp only
  rw [apply_dite UnpackedFloat.neg]
  rfl

theorem mul_neg_left (f g : UnpackedFloat) :
    UnpackedFloat.mul Format.binary64 f.neg g = (UnpackedFloat.mul Format.binary64 f g).neg := by
  cases f with
  | finite sign mant exp pos =>
    cases g with
    | finite sign' mant' exp' pos' =>
      have product := roundWithAccuracy_neg (sign * sign') (mant * mant') (exp + exp') .exact
      rw [← neg_mul_sign] at product
      exact product
    | notANumber => rfl
    | infinity sign' | zero sign' => cases sign <;> cases sign' <;> rfl
  | notANumber => cases g <;> rfl
  | infinity sign | zero sign =>
    cases g with
    | notANumber => rfl
    | infinity sign' | zero sign' | finite sign' mant' exp' pos' =>
      cases sign <;> cases sign' <;> rfl

/-- Two numbers that nothing but the sign tells apart. -/
def IsOpposite (x y : Float) : Prop := y.toModel.unpack = x.toModel.unpack.neg

theorem isOpposite_neg (x : Float) : IsOpposite x (-x) := by
  change (Float.Model.pack x.toModel.unpack.neg).unpack = _
  rw [unpack_pack_neg, unpack_pack_unpack]

theorem IsOpposite.symm (h : IsOpposite x y) : IsOpposite y x := by
  unfold IsOpposite at h ⊢
  rw [h, neg_neg_unpacked]

/-- A product changes nothing but its sign with the sign of a factor. -/
theorem IsOpposite.mul (h : IsOpposite x y) (z : Float) : IsOpposite (x * z) (y * z) := by
  change (Float.Model.pack (UnpackedFloat.mul Format.binary64 y.toModel.unpack
    z.toModel.unpack)).unpack = (Float.Model.pack (UnpackedFloat.mul Format.binary64
      x.toModel.unpack z.toModel.unpack)).unpack.neg
  rw [h, mul_neg_left, unpack_pack_neg]

def Binary.opposite : Binary → Binary
  | .nan => .nan
  | .infinite negative => .infinite !negative
  | .finite negative mant exp => .finite (!negative) mant exp

theorem IsOpposite.ofFloat_eq (h : IsOpposite x y) :
    Binary.ofFloat y = (Binary.ofFloat x).opposite := by
  rw [Binary.ofFloat_eq, Binary.ofFloat_eq, h]
  cases x.toModel.unpack with
  | notANumber => rfl
  | infinity sign | zero sign | finite sign mant exp pos => cases sign <;> rfl

theorem IsOpposite.nearest?_eq (h : IsOpposite x y) : nearest? y = (nearest? x).map (-·) := by
  unfold nearest?
  rw [h.ofFloat_eq]
  cases Binary.ofFloat x with
  | nan | infinite negative => rfl
  | finite negative mant exp => cases negative <;> simp [Binary.opposite]

/-- Not-a-number counts as having either sign. -/
def HasSign (sign : Sign) : UnpackedFloat → Prop
  | .notANumber => True
  | .infinity sign' | .zero sign' | .finite sign' .. => sign' = sign

theorem HasSign.dite {c : Prop} [Decidable c] {f : c → UnpackedFloat} {g : ¬c → UnpackedFloat}
    (hf : ∀ h, HasSign sign (f h)) (hg : ∀ h, HasSign sign (g h)) :
    HasSign sign (if h : c then f h else g h) := by
  by_cases h : c
  · rw [dif_pos h]
    exact hf h
  · rw [dif_neg h]
    exact hg h

theorem hasSign_ofParts (exponent : BitVec Format.binary64.exponentBits)
    (mantissa : BitVec Format.binary64.mantissaBitsWithoutImplicit) :
    HasSign sign (ofParts sign exponent mantissa) :=
  iteInduction (fun _ => iteInduction (fun _ => rfl) fun _ => trivial) fun _ =>
    iteInduction (fun _ => .dite (fun _ => rfl) fun _ => rfl) fun _ => rfl

theorem hasSign_unpack_packComponents {exponent : BitVec Format.binary64.exponentBits}
    {mantissa : BitVec Format.binary64.mantissaBitsWithoutImplicit} :
    HasSign sign
      (unpack Format.binary64 (packComponents Format.binary64 sign exponent mantissa)) := by
  rw [unpack_packComponents]
  exact hasSign_ofParts exponent mantissa

theorem HasSign.pack {f : UnpackedFloat} (h : HasSign sign f) :
    HasSign sign (Float.Model.pack f).unpack := by
  change HasSign sign (unpack Format.binary64 (UnpackedFloat.pack Format.binary64 f))
  cases f with
  | notANumber => trivial
  | infinity sign' | zero sign' =>
    obtain rfl : sign' = sign := h
    exact hasSign_unpack_packComponents
  | finite sign' mant exp pos =>
    obtain rfl : sign' = sign := h
    obtain ⟨exponent, mantissa, stored⟩ := exists_pack_finite exp pos
    rw [stored]
    exact hasSign_unpack_packComponents

theorem hasSign_roundWithAccuracy (accuracy : Accuracy) :
    HasSign sign (roundWithAccuracy Format.binary64 sign mant exp accuracy) :=
  .dite (fun _ => rfl) fun _ => rfl

theorem hasSign_mul_positive {mant' : Nat} {exp' : Int} (pos : 0 < mant) (pos' : 0 < mant') :
    HasSign .positive (UnpackedFloat.mul Format.binary64 (.finite .positive mant exp pos)
      (.finite .positive mant' exp' pos')) :=
  hasSign_roundWithAccuracy .exact

/-- Counts have no sign, also where they are too large to be exact. -/
theorem hasSign_ofNat (n : Nat) : HasSign .positive (Float.ofNat n).toModel.unpack := by
  by_cases small : n < 2 ^ 53
  · by_cases some : n = 0
    · subst some
      rfl
    · rw [unpack_ofNat some small]
      rfl
  · have large : Float.ofNat n =
        .ofModel (Float.Model.pack (UnpackedFloat.ofScientific Format.binary64 n 0)) := by
      change Float.ofScientific n false 0 = _
      rw [Float.ofScientific, dif_neg fun fast => small fast.1]
      rfl
    rw [large]
    refine HasSign.pack ?_
    unfold UnpackedFloat.ofScientific
    refine .dite (fun _ => rfl) fun _ => ?_
    refine iteInduction (fun _ => rfl) fun _ => ?_
    refine iteInduction (fun _ => rfl) fun _ => ?_
    rw [if_pos (Int.le_refl 0)]
    -- A product of numbers that are spelt out is not to be worked out here.
    with_reducible exact hasSign_mul_positive _ _

theorem ofNat_ne_neg_one (n : Nat) : Float.ofNat n ≠ -1.0 := by
  intro same
  have positive := hasSign_ofNat n
  have stored : (-1.0 : Float).toModel.unpack = .finite .negative (2 ^ 52) (-52) (by decide) := rfl
  rw [same, stored] at positive
  cases positive

def Binary.value? : Binary → Option ℚ
  | .finite negative mant exp => some (if negative then -(mant * 2 ^ exp) else mant * 2 ^ exp)
  | _ => none

/-- No whole number is nearer, and of two that are as near this one lies further from zero. -/
def IsNearest (x : Float) (m : Int) : Prop :=
  ∃ q, (Binary.ofFloat x).value? = some q ∧ |q - m| ≤ 1 / 2 ∧ (|q - m| = 1 / 2 → |q| < |(m : ℚ)|)

theorem nearestOf_bounds (mant : Nat) (exp : Int) :
    (nearestOf mant exp : ℚ) - 1 / 2 ≤ mant * 2 ^ exp ∧
      (mant * 2 ^ exp : ℚ) < nearestOf mant exp + 1 / 2 := by
  unfold nearestOf pow2
  split
  · rename_i whole
    obtain ⟨k, rfl⟩ := Int.eq_ofNat_of_zero_le whole
    have value : (mant * 2 ^ (k : Int) : ℚ) = (mant * Nat.pow 2 (k : Int).toNat : Nat) := by
      simp
    rw [value]
    constructor <;> linarith
  · obtain ⟨k, rfl⟩ : ∃ k : Nat, exp = -k := ⟨(-exp).toNat, by omega⟩
    rw [Int.neg_neg, Int.toNat_natCast]
    have pos : (0 : ℚ) < 2 ^ k := by positivity
    have lower := Nat.div_mul_le_self (2 * mant + 2 ^ k) (2 ^ (k + 1))
    have upper := Nat.lt_div_mul_add (a := 2 * mant + 2 ^ k) (b := 2 ^ (k + 1)) (by positivity)
    generalize hn : (2 * mant + 2 ^ k) / 2 ^ (k + 1) = n at lower upper
    have lower' : (n : ℚ) * (2 ^ k * 2) ≤ 2 * mant + 2 ^ k := by exact_mod_cast lower
    have upper' : (2 * mant + 2 ^ k : ℚ) < n * (2 ^ k * 2) + 2 ^ k * 2 := by exact_mod_cast upper
    rw [zpow_neg, zpow_natCast, ← div_eq_mul_inv]
    constructor
    · rw [le_div_iff₀ pos]
      linarith
    · rw [div_lt_iff₀ pos]
      linarith

/-- Within these bounds one whole number is nearest, and of two that are as near the one further
from zero. -/
theorem nearest_iff {a : ℚ} (nonneg : 0 ≤ a) (lower : (n : ℚ) - 1 / 2 ≤ a) (upper : a < n + 1 / 2) :
    (|a - m| ≤ 1 / 2 ∧ (|a - m| = 1 / 2 → a < |(m : ℚ)|)) ↔ m = n := by
  constructor
  · rintro ⟨near, tie⟩
    obtain ⟨left, right⟩ := abs_le.mp near
    have most : m ≤ n := by
      have below : (m : ℚ) < (n + 1 : Int) := by push_cast; linarith
      exact Int.lt_add_one_iff.mp (by exact_mod_cast below)
    by_contra other
    -- The number before is as near at most, and nearer to zero.
    obtain rfl : m = n - 1 := by
      have least : ((n - 1 : Int) : ℚ) ≤ m := by push_cast; linarith
      have least' : (n : Int) - 1 ≤ m := by exact_mod_cast least
      omega
    push_cast at right tie
    have half : a = n - 1 / 2 := by linarith
    have further := tie (by rw [half, abs_of_nonneg (by linarith)]; ring)
    have positive : (1 : ℚ) ≤ n := by
      have some : n ≠ 0 := by
        rintro rfl
        norm_num at half
        linarith
      exact_mod_cast Nat.one_le_iff_ne_zero.mpr some
    rw [abs_of_nonneg (by linarith)] at further
    linarith
  · rintro rfl
    push_cast
    refine ⟨abs_le.mpr ⟨by linarith, by linarith⟩, fun tie => ?_⟩
    rw [Nat.abs_cast]
    rcases abs_choice (a - n) with same | same
    · linarith
    · linarith

/-- What is taken for the nearest whole number is the nearest one. -/
theorem nearest?_eq_some_iff : nearest? x = some m ↔ IsNearest x m := by
  unfold nearest? IsNearest
  cases Binary.ofFloat x with
  | nan | infinite negative => simp [Binary.value?]
  | finite negative mant exp =>
    obtain ⟨lower, upper⟩ := nearestOf_bounds mant exp
    have nonneg : (0 : ℚ) ≤ mant * 2 ^ exp := by positivity
    cases negative with
    | false =>
      have nearest := nearest_iff (m := m) nonneg lower upper
      simpa [Binary.value?, abs_of_nonneg nonneg, eq_comm] using nearest.symm
    | true =>
      have nearest := nearest_iff (m := -m) nonneg lower upper
      have distance : |-((mant : ℚ) * 2 ^ exp) - m| = |mant * 2 ^ exp - ((-m : Int) : ℚ)| := by
        rw [← abs_neg]
        push_cast
        ring_nf
      simp only [Binary.value?, if_true, Option.some.injEq, exists_eq_left', distance, abs_neg,
        abs_of_nonneg nonneg]
      rw [Int.cast_neg, abs_neg, ← Int.cast_neg] at nearest
      rw [nearest]
      omega

end GoalScript.Number
