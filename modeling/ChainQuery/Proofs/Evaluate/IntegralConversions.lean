import ChainQuery.Proofs.Decimal.Value
import ChainQuery.Proofs.Evaluate.Sums
/-!
# Conversions to integers before compilation

A conversion stays in the query, unless the parts that are folded are chosen so that they include it.  Then
a number that is converted to one of the eight types of whole numbers loses its fraction.

What is kept of it is compared with one range only, whichever of the eight types the target is: whole parts
from `-2 ^ 63` to `2 ^ 63` are admitted (`Admitted`), and the last of them, which has no 64 bits, becomes the
one before it.  `Expr.evaluate_integralConversion` says so for every literal and every target, and what it
means for the values of the target (`ScalarType.Holds`): a conversion stays in range, and refuses what does
not fit (`StaysInRange`), iff no whole part that is admitted is outside of them.  An integer is admitted
always, so its conversion stays in range only if it was there before.

The whole part of a literal is that of its exact value (`Literal.whole?`), so nothing here depends on how
doubles are taken apart; `Literal.whole?_float` is where the two meet.
-/

namespace ChainQuery

/-! ## 1. Ranges and whole parts -/

/-- The least value of a type of whole numbers, and what comes after its greatest one. -/
def ScalarType.bounds : ScalarType → Int × Int
  | byte => (0, 2 ^ 8)
  | sbyte => (-2 ^ 7, 2 ^ 7)
  | int16 => (-2 ^ 15, 2 ^ 15)
  | int32 => (-2 ^ 31, 2 ^ 31)
  | int64 => (-2 ^ 63, 2 ^ 63)
  | uint16 => (0, 2 ^ 16)
  | uint32 => (0, 2 ^ 32)
  | uint64 => (0, 2 ^ 64)
  | _ => (0, 0)

/-- Whether an integer is a value of a type. -/
def ScalarType.Holds (s : ScalarType) (i : Int) : Prop := s.bounds.1 ≤ i ∧ i < s.bounds.2

instance (s : ScalarType) (i : Int) : Decidable (s.Holds i) := inferInstanceAs (Decidable (_ ∧ _))

/-- Whether a whole part is one that a conversion keeps. -/
def Admitted (z : Int) : Prop := -2 ^ 63 ≤ z ∧ z ≤ 2 ^ 63

instance (z : Int) : Decidable (Admitted z) := inferInstanceAs (Decidable (_ ∧ _))

/-- Every integer of 64 bits is kept, whatever the target. -/
theorem admitted_toInt (i : Int64) : Admitted i.toInt :=
  ⟨i.le_toInt, i.toInt_le.trans (by decide)⟩

/-- The exact value of a number. -/
def Literal.value? : Literal → Option ℚ
  | .int i => some i.toInt
  | .float x => Decimal.value? x
  | _ => none

/-- The whole part of a number: its exact value rounded toward zero. -/
def Literal.whole? (v : Literal) : Option Int := v.value?.map Decimal.towardZero

theorem Literal.whole?_int (i : Int64) : (Literal.int i).whole? = some i.toInt := by
  simp [whole?, value?]

/-- **The whole part of a double is what its bits are truncated to.** -/
theorem Literal.whole?_float (x : Float) :
    (Literal.float x).whole? = if x.isFinite then some (truncate x) else none := by
  change (Decimal.value? x).map Decimal.towardZero = _
  by_cases hfinite : x.isFinite = true
  · rw [Decimal.value?_eq hfinite, if_pos hfinite, Option.map_some, truncate, Decimal.Dyadic.whole_eq]
  · have hnone : Decimal.value? x = none := by
      simpa [← Decimal.isSome_value?] using hfinite
    rw [hnone, if_neg hfinite, Option.map_none]

theorem Literal.isNumber_of_whole? {v : Literal} {z : Int} (h : v.whole? = some z) :
    v.isNumber = true := by
  cases v with
  | int | float => rfl
  | _ => cases h

/-! ## 2. The conversion of a literal -/

section Convert

variable {target : Ty} {s : ScalarType}

theorem ScalarType.isFractional_of_isIntegral (h : s.isIntegral = true) : s.isFractional = false := by
  cases s <;> first | rfl | cases h

/-- A type of whole numbers that has the greatest whole part of all that are kept has the one before it. -/
theorem ScalarType.Holds.min_of_admitted {z : Int} (h : s.Holds z) (hz : Admitted z) :
    s.Holds (min z (2 ^ 63 - 1)) := by
  unfold Admitted at hz
  cases s <;> simp only [Holds, bounds] at h ⊢ <;> omega

/-- The greatest whole part of all that are kept loses one. -/
theorem Admitted.toInt_ofIntClamp {z : Int} (hz : Admitted z) :
    (Int64.ofIntClamp z).toInt = min z (2 ^ 63 - 1) := by
  have hmin : Int64.minValue.toInt = -2 ^ 63 := Int64.toInt_minValue
  have hmax : Int64.maxValue.toInt = 2 ^ 63 - 1 := Int64.toInt_maxValue
  by_cases hlast : z = 2 ^ 63
  · subst hlast
    rfl
  · have hz' : z ≤ 2 ^ 63 - 1 := by
      have hle := hz.2
      omega
    rw [Int64.toInt_ofIntClamp (hmin ▸ hz.1) (hmax ▸ hz'), min_eq_left hz']

/-- The check of a double is one of its whole part. -/
theorem Literal.convert_float (hs : target.scalar? = some s) (hintegral : s.isIntegral = true) (x : Float) :
    (Literal.float x).convert target =
      if x.isFinite = true ∧ Admitted (truncate x) then .ok (.int (Int64.ofIntClamp (truncate x)))
      else .error (.doesNotFit x target) := by
  have hcheck : (x.isFinite && -integerBound ≤ truncate x && truncate x ≤ integerBound) = true ↔
      x.isFinite = true ∧ Admitted (truncate x) := by
    rw [Bool.and_eq_true, Bool.and_eq_true, decide_eq_true_iff, decide_eq_true_iff, and_assoc]
    rfl
  simp only [convert, hs, Option.map_some, Option.getD_some, hintegral, if_true, hcheck]

theorem Literal.convert_int (hs : target.scalar? = some s) (hintegral : s.isIntegral = true) (i : Int64) :
    (Literal.int i).convert target = .ok (.int i) := by
  simp [convert, hs, ScalarType.isFractional_of_isIntegral hintegral]

/-- **A number whose whole part is admitted becomes that.** -/
theorem Literal.convert_of_admitted (hs : target.scalar? = some s) (hintegral : s.isIntegral = true)
    {v : Literal} {z : Int} (hwhole : v.whole? = some z) (hz : Admitted z) :
    v.convert target = .ok (.int (Int64.ofIntClamp z)) := by
  cases v with
  | int i =>
    rw [whole?_int] at hwhole
    cases hwhole
    rw [convert_int hs hintegral, Int64.ofIntClamp_toInt]
  | float x =>
    rw [whole?_float] at hwhole
    obtain ⟨hfinite, hx⟩ := Option.ite_none_right_eq_some.mp hwhole
    cases hx
    rw [convert_float hs hintegral, if_pos ⟨hfinite, hz⟩]
  | _ => cases hwhole

/-- **A number whose whole part is not admitted is refused**, and so is one that has none. -/
theorem Literal.convert_of_not_admitted (hs : target.scalar? = some s) (hintegral : s.isIntegral = true)
    {v : Literal} (hnumber : v.isNumber = true) (hnot : ∀ z, v.whole? = some z → ¬Admitted z) :
    ∃ x, v = .float x ∧ v.convert target = .error (.doesNotFit x target) := by
  cases v with
  | int i => exact absurd (admitted_toInt i) (hnot _ (whole?_int i))
  | float x =>
    refine ⟨x, rfl, ?_⟩
    rw [convert_float hs hintegral, if_neg]
    rintro ⟨hfinite, hx⟩
    exact hnot _ (by rw [whole?_float, if_pos hfinite]) hx
  | _ => cases hnumber

/-- What is no number is not looked at, unless it is null. -/
theorem Literal.convert_of_not_number {v : Literal} (h : v.isNumber = false) (hnull : v ≠ .null) :
    v.convert target = .ok v := by
  cases v with
  | int | float => cases h
  | null => exact absurd rfl hnull
  | _ => rfl

/-- **Integers come of numbers only.** -/
theorem Literal.isNumber_of_convert {v : Literal} {w : Int64} (h : v.convert target = .ok (.int w)) :
    v.isNumber = true := by
  rcases Bool.eq_false_or_eq_true v.isNumber with hnumber | hnumber
  · exact hnumber
  · by_cases hnull : v = .null
    · subst hnull
      simp only [convert] at h
      split at h <;> cases h
    · rw [convert_of_not_number hnumber hnull] at h
      cases h
      rfl

/-- **The integers that a conversion leaves** are the whole parts that are admitted, the greatest of them
without one. -/
theorem Literal.convert_eq_int_iff (hs : target.scalar? = some s) (hintegral : s.isIntegral = true)
    {v : Literal} {w : Int64} :
    v.convert target = .ok (.int w) ↔
      ∃ z, v.whole? = some z ∧ Admitted z ∧ w.toInt = min z (2 ^ 63 - 1) := by
  constructor
  · intro h
    by_cases hwhole : ∃ z, v.whole? = some z ∧ Admitted z
    · obtain ⟨z, hz, hadmitted⟩ := hwhole
      rw [convert_of_admitted hs hintegral hz hadmitted] at h
      cases h
      exact ⟨z, hz, hadmitted, hadmitted.toInt_ofIntClamp⟩
    · obtain ⟨x, -, hrefused⟩ := convert_of_not_admitted hs hintegral (isNumber_of_convert h)
        fun z hz hadmitted => hwhole ⟨z, hz, hadmitted⟩
      rw [hrefused] at h
      cases h
  · rintro ⟨z, hz, hadmitted, hw⟩
    have hclamp : Int64.ofIntClamp z = w := Int64.toInt.inj (hadmitted.toInt_ofIntClamp.trans hw.symm)
    rw [convert_of_admitted hs hintegral hz hadmitted, hclamp]

end Convert

/-! ## 3. The conversion of a constant -/

namespace Expr

/-- The conversion of a constant. -/
def conversion (target : Ty) (value : Literal) (t : Ty) : Expr :=
  .unary (.convert target) (.constant value t)

/-- What becomes of the conversion of a constant if every node may be folded. -/
def foldedConversion (target : Ty) (value : Literal) (t : Ty) : Except Error Expr :=
  (conversion target value t).evaluateWith fun _ => true

/-- That the conversion of a constant stays in the range of a type: it leaves no integer that is not a value
of the type, and refuses a number whose whole part is none. -/
structure StaysInRange (s : ScalarType) (target : Ty) (value : Literal) (t : Ty) : Prop where
  held : ∀ w t', foldedConversion target value t = .ok (.constant (.int w) t') → s.Holds w.toInt
  refused : value.isNumber = true → (∀ z, value.whole? = some z → ¬s.Holds z) →
    ∃ reason, foldedConversion target value t =
      .error (.invalidLocalEvaluation (conversion target value t).text reason)

variable {target : Ty} (value : Literal) (t : Ty)

theorem foldedConversion_eq :
    foldedConversion target value t = match value.convert target with
      | .ok v => .ok (.constant v target)
      | .error reason => .error (.invalidLocalEvaluation (conversion target value t).text reason) := by
  have hclosed : (conversion target value t).closedFor (fun _ => true) = true := rfl
  rw [foldedConversion, evaluateWith_eq, if_pos hclosed, evaluated_eq]
  rfl

theorem foldedConversion_eq_ok_iff {v : Literal} {t' : Ty} :
    foldedConversion target value t = .ok (.constant v t') ↔
      value.convert target = .ok v ∧ t' = target := by
  rw [foldedConversion_eq]
  cases value.convert target with
  | ok u => simp [eq_comm]
  | error reason => simp

theorem foldedConversion_of_error {reason : Failure} (h : value.convert target = .error reason) :
    foldedConversion target value t =
      .error (.invalidLocalEvaluation (conversion target value t).text reason) := by
  rw [foldedConversion_eq, h]

variable {s : ScalarType}

theorem foldedConversion_eq_int_iff (hs : target.scalar? = some s) (hintegral : s.isIntegral = true)
    (w : Int64) (t' : Ty) :
    foldedConversion target value t = .ok (.constant (.int w) t') ↔
      t' = target ∧ ∃ z, value.whole? = some z ∧ Admitted z ∧ w.toInt = min z (2 ^ 63 - 1) := by
  rw [foldedConversion_eq_ok_iff, Literal.convert_eq_int_iff hs hintegral, and_comm]

theorem foldedConversion_of_not_admitted (hs : target.scalar? = some s) (hintegral : s.isIntegral = true)
    (hnumber : value.isNumber = true) (hnot : ∀ z, value.whole? = some z → ¬Admitted z) :
    ∃ x, value = .float x ∧ foldedConversion target value t =
      .error (.invalidLocalEvaluation (conversion target value t).text (.doesNotFit x target)) := by
  obtain ⟨x, hx, hconvert⟩ := Literal.convert_of_not_admitted hs hintegral hnumber hnot
  exact ⟨x, hx, foldedConversion_of_error value t hconvert⟩

/-- **A conversion stays in range iff no whole part that is admitted is out of range.** -/
theorem staysInRange_iff (hs : target.scalar? = some s) (hintegral : s.isIntegral = true) :
    StaysInRange s target value t ↔ ∀ z, value.whole? = some z → Admitted z → s.Holds z := by
  constructor
  · intro hstays z hz hadmitted
    by_contra hout
    have hnone : ∀ z', value.whole? = some z' → ¬s.Holds z' := by
      intro z' hz'
      rw [← Option.some.inj (hz.symm.trans hz')]
      exact hout
    -- a whole part that is out of range has to be refused, but one that is admitted is not
    obtain ⟨reason, herror⟩ := hstays.refused (Literal.isNumber_of_whole? hz) hnone
    have hkept := (foldedConversion_eq_ok_iff value t).mpr
      ⟨Literal.convert_of_admitted hs hintegral hz hadmitted, rfl⟩
    rw [hkept] at herror
    cases herror
  · intro hall
    constructor
    · intro w t' hfolded
      obtain ⟨-, z, hz, hadmitted, hw⟩ :=
        (foldedConversion_eq_int_iff value t hs hintegral w t').mp hfolded
      rw [hw]
      exact (hall z hz hadmitted).min_of_admitted hadmitted
    · intro hnumber hnone
      obtain ⟨x, -, herror⟩ := foldedConversion_of_not_admitted value t hs hintegral hnumber
        fun z hz hadmitted => hnone z hz (hall z hz hadmitted)
      exact ⟨_, herror⟩

/-- **Conversions of constants to whole numbers**, for every literal and every target.

* What becomes an integer, and which one, depends on the whole part of the literal and on the one range that
  all targets share.
* Every other number is refused as one that does not fit in the target.
* So a conversion stays in the range of its target iff no whole part that is admitted is out of it.
* What is no number, and not null, keeps its value. -/
theorem evaluate_integralConversion (hs : target.scalar? = some s) (hintegral : s.isIntegral = true) :
    (∀ w t', foldedConversion target value t = .ok (.constant (.int w) t') ↔
      t' = target ∧ ∃ z, value.whole? = some z ∧ Admitted z ∧ w.toInt = min z (2 ^ 63 - 1)) ∧
    (value.isNumber = true → (∀ z, value.whole? = some z → ¬Admitted z) →
      ∃ x, value = .float x ∧ foldedConversion target value t =
        .error (.invalidLocalEvaluation (conversion target value t).text (.doesNotFit x target))) ∧
    (StaysInRange s target value t ↔ ∀ z, value.whole? = some z → Admitted z → s.Holds z) ∧
    (value.isNumber = false → value ≠ .null →
      foldedConversion target value t = .ok (.constant value target)) := by
  have hothers (hnumber : value.isNumber = false) (hnull : value ≠ .null) :
      foldedConversion target value t = .ok (.constant value target) :=
    (foldedConversion_eq_ok_iff value t).mpr ⟨Literal.convert_of_not_number hnumber hnull, rfl⟩
  exact ⟨foldedConversion_eq_int_iff value t hs hintegral,
    foldedConversion_of_not_admitted value t hs hintegral, staysInRange_iff value t hs hintegral, hothers⟩

/-- Doubles converted to a nullable byte: `255.9` becomes `255`, and `1e19` is refused. -/
theorem evaluate_byteConversion :
    (Ty.nullable (.scalar .byte)).scalar? = some .byte ∧ ScalarType.byte.isIntegral = true ∧
    foldedConversion (.nullable (.scalar .byte)) (.float 255.9) (.scalar .double) =
      .ok (.constant (.int 255) (.nullable (.scalar .byte))) ∧
    StaysInRange .byte (.nullable (.scalar .byte)) (.float 255.9) (.scalar .double) ∧
    ∃ x, foldedConversion (.nullable (.scalar .byte)) (.float 1e19) (.scalar .double) =
      .error (.invalidLocalEvaluation
        (conversion (.nullable (.scalar .byte)) (.float 1e19) (.scalar .double)).text
        (.doesNotFit x (.nullable (.scalar .byte)))) := by
  have hscalar : (Ty.nullable (.scalar .byte)).scalar? = some .byte := rfl
  have hsmall : (Literal.float 255.9).whole? = some 255 := by rw [Literal.whole?_float]; rfl
  have hlarge : (Literal.float 1e19).whole? = some 10000000000000000000 := by
    rw [Literal.whole?_float]; rfl
  obtain ⟨hleaves, -, hstays, -⟩ :=
    evaluate_integralConversion (.float 255.9) (.scalar .double) hscalar rfl
  obtain ⟨-, hrefuses, -, -⟩ :=
    evaluate_integralConversion (.float 1e19) (.scalar .double) hscalar rfl
  have hheld : ∀ z, (Literal.float 255.9).whole? = some z → Admitted z → ScalarType.byte.Holds z := by
    intro z hz _
    rw [← Option.some.inj (hsmall.symm.trans hz)]
    decide
  have hnot : ∀ z, (Literal.float 1e19).whole? = some z → ¬Admitted z := by
    intro z hz
    rw [← Option.some.inj (hlarge.symm.trans hz)]
    decide
  obtain ⟨x, -, hrefused⟩ := hrefuses rfl hnot
  exact ⟨hscalar, rfl, (hleaves 255 _).mpr ⟨rfl, 255, hsmall, by decide, rfl⟩, hstays.mpr hheld, x,
    hrefused⟩

/-- **A byte that is none**: `300.5` becomes `300`. -/
theorem foldedConversion_byte :
    foldedConversion (.scalar .byte) (.float 300.5) (.scalar .double)
        = .ok (.constant (.int 300) (.scalar .byte)) ∧
      ¬StaysInRange .byte (.scalar .byte) (.float 300.5) (.scalar .double) := by
  have h300 : foldedConversion (.scalar .byte) (.float 300.5) (.scalar .double)
      = .ok (.constant (.int 300) (.scalar .byte)) := rfl
  exact ⟨h300, fun h => absurd (h.held _ _ h300) (by decide)⟩

/-- The double after the greatest integer of 64 bits becomes that integer. -/
example : foldedConversion (.scalar .int64) (.float 9223372036854775808) (.scalar .double)
    = .ok (.constant (.int Int64.maxValue) (.scalar .int64)) := rfl

end Expr

end ChainQuery
