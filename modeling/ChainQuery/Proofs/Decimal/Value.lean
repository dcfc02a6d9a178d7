import ChainQuery.Decimal.Dyadic
import Mathlib.Data.Rat.Floor
/-!
# The exact value of a double

A finite double is a rational number (`value?`): its sign, its mantissa and its exponent, as the unpacked
form of the format has them.  The dyadic number that is read off the bits (`Dyadic.ofFloat`) takes the same
fields out of the word with divisions and remainders, and `value?_eq` says that it has the same value.

The operation that rests on it is the whole part of a double.  `Dyadic.whole` shifts the mantissa;
`Dyadic.whole_eq` says that what is left is the value rounded toward zero (`towardZero`).

The three shapes of a finite double are found once, in `unpack_cases`: the zeros, the numbers below all
that have an implicit bit, and the others.
-/

namespace ChainQuery.Decimal

open Float.Model (Format UnpackedFloat)
open Float.Model.UnpackedFloat (Sign unpackSign unpackExponent unpackMantissa)

/-! ## 1. The value -/

/-- The exact value of a double, unless it is an infinity or a NaN. -/
def value? (x : Float) : Option ℚ :=
  match x.toModel.unpack with
  | .finite sign mant exp _ => some (sign.apply mant * 2 ^ exp)
  | .zero _ => some 0
  | .infinity _ | .notANumber => none

theorem isSome_value? (x : Float) : (value? x).isSome = x.isFinite := by
  change (value? x).isSome = x.toModel.unpack.isFinite
  unfold value?
  cases x.toModel.unpack <;> rfl

/-- The value of a dyadic number. -/
def Dyadic.value (d : Dyadic) : ℚ := (if d.negative then -1 else 1) * d.mant * 2 ^ d.exp

/-! ## 2. The fields of the word -/

section Fields

variable (b : BitVec Format.binary64.numBits)

theorem toNat_unpackMantissa : (unpackMantissa b).toNat = b.toNat % 2 ^ 52 := by
  simp [unpackMantissa]

theorem toNat_unpackExponent : (unpackExponent b).toNat = b.toNat / 2 ^ 52 % 2 ^ 11 := by
  simp [unpackExponent, Nat.shiftRight_eq_div_pow]

theorem toNat_unpackSign : (unpackSign b).toNat = b.toNat / 2 ^ 63 := by
  have hb : b.toNat < 2 ^ 64 := b.isLt
  have hsign : (unpackSign b).toNat = b.toNat / 2 ^ 63 % 2 := by
    change (b.extractLsb 63 63).toNat = _
    rw [BitVec.extractLsb_toNat, Nat.shiftRight_eq_div_pow]
  omega

/-- The implicit bit is the one above the fraction. -/
theorem toNat_append_one (m : BitVec 52) : (1#1 ++ m).toNat = m.toNat + 2 ^ 52 := by
  rw [BitVec.toNat_append, ← Nat.shiftLeft_add_eq_or_of_lt m.isLt]
  simp [Nat.shiftLeft_eq, add_comm]

/-- The sign bit as a factor. -/
theorem cast_apply_unpackSign (n : ℕ) :
    ((Sign.ofBitVec (unpackSign b)).apply n : ℚ) = (if b.toNat / 2 ^ 63 == 1 then -1 else 1) * n := by
  rw [← toNat_unpackSign]
  obtain h | h : unpackSign b = 0#1 ∨ unpackSign b = 1#1 := by
    generalize unpackSign b = s
    decide +revert
  · simp [h, Sign.ofBitVec, Sign.apply]
  · simp [h, Sign.ofBitVec, Sign.apply]

theorem finite_congr {sign : Sign} {m m' : ℕ} {e e' : ℤ} {h : 0 < m} {h' : 0 < m'} (hm : m = m')
    (he : e = e') : UnpackedFloat.finite sign m e h = .finite sign m' e' h' := by
  subst hm he
  rfl

/-- **The shapes of a finite double**: a zero, a number below all that have an implicit bit, or one that
has it. -/
theorem unpack_cases (h : (UnpackedFloat.unpack Format.binary64 b).isFinite = true) :
    let sign := Sign.ofBitVec (unpackSign b)
    let fraction : ℕ := b.toNat % 2 ^ 52
    let biased : ℕ := b.toNat / 2 ^ 52 % 2 ^ 11
    (biased = 0 ∧ fraction = 0 ∧ UnpackedFloat.unpack Format.binary64 b = .zero sign) ∨
    (biased = 0 ∧ ∃ hpos, UnpackedFloat.unpack Format.binary64 b = .finite sign fraction (-1074) hpos) ∨
    (biased ≠ 0 ∧ ∃ hpos, UnpackedFloat.unpack Format.binary64 b =
      .finite sign (fraction + 2 ^ 52) (biased - 1075) hpos) := by
  intro sign fraction biased
  have hfraction : (unpackMantissa b).toNat = fraction := toNat_unpackMantissa b
  have hbiased : (unpackExponent b).toNat = biased := toNat_unpackExponent b
  rw [← hfraction, ← hbiased]
  unfold UnpackedFloat.unpack at h ⊢
  dsimp only at h ⊢
  -- all exponent bits are set in an infinity and in a NaN only
  have hspecial : unpackExponent b ≠ -1#_ := by
    intro hall
    rw [if_pos hall] at h
    by_cases hm : unpackMantissa b = 0#_
    · rw [if_pos hm] at h
      cases h
    · rw [if_neg hm] at h
      cases h
  rw [if_neg hspecial]
  by_cases hzero : unpackExponent b = 0#_
  · have hnone : (unpackExponent b).toNat = 0 := by rw [hzero]; rfl
    rw [if_pos hzero]
    by_cases hm : unpackMantissa b = 0#_
    · rw [dif_pos hm]
      exact Or.inl ⟨hnone, by rw [hm]; rfl, rfl⟩
    · have hpos : 0 < (unpackMantissa b).toNat :=
        Nat.pos_of_ne_zero fun h0 => hm (BitVec.eq_of_toNat_eq h0)
      rw [dif_neg hm]
      exact Or.inr (Or.inl ⟨hnone, hpos, finite_congr rfl (by rw [hnone]; rfl)⟩)
  · have hsome : (unpackExponent b).toNat ≠ 0 := fun h0 => hzero (BitVec.eq_of_toNat_eq h0)
    rw [if_neg hzero]
    exact Or.inr (Or.inr ⟨hsome, Nat.add_pos_right _ (by decide), finite_congr (toNat_append_one _) rfl⟩)

end Fields

/-! ## 3. The dyadic number of a double -/

theorem Dyadic.ofFloat_of_zero {x : Float} (h : x.toBits.toNat / 2 ^ 52 % 2 ^ 11 = 0) :
    Dyadic.ofFloat x = ⟨x.toBits.toNat / 2 ^ 63 == 1, x.toBits.toNat % 2 ^ 52, -1074, false⟩ :=
  if_pos (beq_iff_eq.mpr h)

theorem Dyadic.ofFloat_of_ne_zero {x : Float} (h : x.toBits.toNat / 2 ^ 52 % 2 ^ 11 ≠ 0) :
    ∃ narrow, Dyadic.ofFloat x = ⟨x.toBits.toNat / 2 ^ 63 == 1, x.toBits.toNat % 2 ^ 52 + 2 ^ 52,
      (x.toBits.toNat / 2 ^ 52 % 2 ^ 11 : ℕ) - 1075, narrow⟩ :=
  ⟨_, if_neg (mt beq_iff_eq.mp h)⟩

/-- **A finite double has the value that is read off its bits.** -/
theorem value?_eq {x : Float} (h : x.isFinite = true) : value? x = some (Dyadic.ofFloat x).value := by
  have hunpack : x.toModel.unpack = UnpackedFloat.unpack Format.binary64 x.toBits.toBitVec := rfl
  have hsign := cast_apply_unpackSign x.toBits.toBitVec
  rw [value?, hunpack]
  rcases unpack_cases x.toBits.toBitVec h with
    ⟨hbiased, hnone, hzero⟩ | ⟨hbiased, _, hsubnormal⟩ | ⟨hbiased, _, hnormal⟩
  · have hmant : x.toBits.toNat % 2 ^ 52 = 0 := hnone
    rw [hzero, Dyadic.ofFloat_of_zero hbiased, hmant]
    simp [Dyadic.value]
  · rw [hsubnormal, Dyadic.ofFloat_of_zero hbiased]
    exact congrArg (fun q : ℚ => some (q * 2 ^ (-1074 : ℤ))) (hsign _)
  · obtain ⟨narrow, hfloat⟩ := Dyadic.ofFloat_of_ne_zero hbiased
    rw [hnormal, hfloat]
    exact congrArg (fun q : ℚ => some (q * 2 ^ (_ : ℤ))) (hsign _)

/-! ## 4. Whole parts -/

/-- A number rounded toward zero. -/
def towardZero (q : ℚ) : ℤ := if 0 ≤ q then ⌊q⌋ else ⌈q⌉

@[simp] theorem towardZero_intCast (i : ℤ) : towardZero i = i := by
  simp [towardZero]

theorem towardZero_neg (q : ℚ) : towardZero (-q) = -towardZero q := by
  unfold towardZero
  rcases lt_trichotomy q 0 with h | rfl | h
  · rw [if_pos (by linarith), if_neg (by linarith), Int.floor_neg]
  · simp
  · rw [if_neg (by linarith), if_pos h.le, Int.ceil_neg]

/-- Shifting a mantissa by its exponent leaves the whole part of the magnitude.  One of the two shifts is
by nothing. -/
theorem magnitude_eq (m : ℕ) (e : ℤ) :
    ((m * Nat.pow 2 e.toNat / Nat.pow 2 (-e).toNat : ℕ) : ℤ) = ⌊(m * 2 ^ e : ℚ)⌋ := by
  rcases Int.eq_nat_or_neg e with ⟨n, rfl | rfl⟩
  · have hfloor : (m * 2 ^ (n : ℤ) : ℚ) = ((m * 2 ^ n : ℕ) : ℤ) := by push_cast; rw [zpow_natCast]
    rw [hfloor, Int.floor_intCast]
    simp
  · have hfloor : (m * 2 ^ (-(n : ℤ)) : ℚ) = (m : ℤ) / ((2 ^ n : ℕ) : ℚ) := by
      rw [zpow_neg, zpow_natCast, div_eq_mul_inv]; push_cast; rfl
    rw [hfloor, Rat.floor_intCast_div_natCast]
    simp

/-- **The whole part is the value rounded toward zero.** -/
theorem Dyadic.whole_eq (d : Dyadic) : d.whole = towardZero d.value := by
  have hmagnitude : (0 : ℚ) ≤ d.mant * 2 ^ d.exp :=
    mul_nonneg (Nat.cast_nonneg _) (zpow_nonneg (by norm_num) _)
  have htoward : towardZero (d.mant * 2 ^ d.exp) = ⌊(d.mant * 2 ^ d.exp : ℚ)⌋ := if_pos hmagnitude
  unfold whole value
  simp only [magnitude_eq, mul_assoc]
  cases d.negative with
  | false => simp [htoward]
  | true => simp [towardZero_neg, htoward]

end ChainQuery.Decimal
