import ChainQuery.Proofs.Evaluate.Folding
import Mathlib.Algebra.Ring.Int.Defs
/-!
# Integer arithmetic before compilation

An expression made of integer constants and the operators of arithmetic (`Expr.IsInteger`) has an exact
value over all integers (`Expr.exact`), in which quotients are truncated toward zero and a remainder has
the sign of the dividend.  What is folded has 64 bits, at every node and not only at the root.

`Expr.evaluate_integers` says what becomes of such an expression: the exact value of its root, if no node
offends (`Expr.offends`); and otherwise a failure, which is that of the first offending node in the order
of evaluation.  Its reason is a division by zero if that node divides by zero, and an overflow with the
exact operands of that node if it does not.

The two facts behind it are `checked_eq_some_iff`, that what is kept to 64 bits is exact, and
`BinaryOp.apply_integers`, what one operator makes of two integers.  The induction over the expression
only has to find the first node for which the second fails.
-/

namespace ChainQuery

/-! ## 1. Integers of 64 bits -/

/-- Whether an integer has 64 bits. -/
def Fits (i : Int) : Prop := -2 ^ 63 ≤ i ∧ i < 2 ^ 63

instance (i : Int) : Decidable (Fits i) := inferInstanceAs (Decidable (_ ∧ _))

theorem fits_toInt (x : Int64) : Fits x.toInt := ⟨x.le_toInt, x.toInt_lt⟩

theorem Fits.toInt_ofInt {i : Int} (h : Fits i) : (Int64.ofInt i).toInt = i :=
  Int64.toInt_ofInt_of_le h.1 h.2

theorem checked_eq (i : Int) : checked i = if Fits i then some (Int64.ofInt i) else none := by
  have hbound : (Int64.minValue.toInt ≤ i ∧ i ≤ Int64.maxValue.toInt) ↔ Fits i := by
    rw [Int64.toInt_minValue, Int64.toInt_maxValue, Fits]
    omega
  simp only [checked, hbound]

/-- **What is kept to 64 bits is exact.** -/
theorem checked_eq_some_iff {i : Int} {v : Int64} : checked i = some v ↔ v.toInt = i := by
  rw [checked_eq]
  constructor
  · intro h
    obtain ⟨hfits, hv⟩ := Option.ite_none_right_eq_some.mp h
    rw [← Option.some.inj hv, hfits.toInt_ofInt]
  · rintro rfl
    rw [if_pos (fits_toInt v), Int64.ofInt_toInt]

/-- **A quotient of integers of 64 bits has 64 bits**, except that of the least one by `-1`. -/
theorem fits_tdiv_iff {l r : Int} (hl : Fits l) (hr : r ≠ 0) :
    Fits (l.tdiv r) ↔ ¬(l = -2 ^ 63 ∧ r = -1) := by
  by_cases hone : r = 1
  · simp [hone, hl]
  · by_cases hminus : r = -1
    · subst hminus
      rw [Int.tdiv_neg, Int.tdiv_one]
      unfold Fits at hl ⊢
      omega
    · have habs : (l.tdiv r).natAbs ≤ l.natAbs / 2 := by
        rw [Int.natAbs_tdiv]
        exact Nat.div_le_div_left (by omega) (by omega)
      unfold Fits at hl ⊢
      omega

/-- A remainder is no larger than the dividend. -/
theorem fits_tmod {l : Int} (hl : Fits l) (r : Int) : Fits (l.tmod r) := by
  have habs : (l.tmod r).natAbs ≤ l.natAbs := by
    rw [Int.natAbs_tmod]
    exact Nat.mod_le _ _
  -- the bounds are not symmetric, so the sign of the dividend counts
  have hpositive : 0 ≤ l → 0 ≤ l.tmod r := Int.tmod_nonneg r
  have hnegative : 0 ≤ -l → 0 ≤ (-l).tmod r := Int.tmod_nonneg r
  rw [Int.neg_tmod] at hnegative
  unfold Fits at hl ⊢
  omega

/-! ## 2. One operator -/

namespace BinaryOp

/-- Whether the operator is one of arithmetic. -/
def isArithmetic (op : BinaryOp) : Bool := !op.isLogical && !op.isComparison

/-- The exact value of an operator of arithmetic. -/
def exact (op : BinaryOp) (l r : Int) : Int :=
  match op with
  | add => l + r
  | subtract => l - r
  | multiply => l * r
  | divide => l.tdiv r
  | modulo => l.tmod r
  | _ => 0

/-- Whether an operator has no value because of a divisor. -/
def dividesByZero (op : BinaryOp) (r : Int) : Bool :=
  match op with
  | divide | modulo => r == 0
  | _ => false

/-- Whether an operator leaves 64 bits.  The remainder that belongs to a quotient which does so counts as
doing so too. -/
def overflows (op : BinaryOp) (l r : Int) : Bool :=
  !decide (Fits (op.exact l r)) || (op == modulo && l == -2 ^ 63 && r == -1)

/-- A remainder exists where its quotient does. -/
theorem integral?_modulo {x y : Int64} (hy : y.toInt ≠ 0) :
    modulo.integral? x y = if modulo.overflows x.toInt y.toInt then none
      else some (Int64.ofInt (x.toInt.tmod y.toInt)) := by
  have hremainder : Fits (x.toInt.tmod y.toInt) := fits_tmod (fits_toInt x) _
  have hover : modulo.overflows x.toInt y.toInt = true ↔ x.toInt = -2 ^ 63 ∧ y.toInt = -1 := by
    simp [overflows, exact, hremainder]
  change ((checked (x.toInt.tdiv y.toInt)).bind fun _ => checked (x.toInt.tmod y.toInt)) = _
  rw [checked_eq, checked_eq, if_pos hremainder]
  by_cases hleast : x.toInt = -2 ^ 63 ∧ y.toInt = -1
  · rw [if_neg fun h => (fits_tdiv_iff (fits_toInt x) hy).mp h hleast, if_pos (hover.mpr hleast)]
    rfl
  · rw [if_pos ((fits_tdiv_iff (fits_toInt x) hy).mpr hleast), if_neg (mt hover.mp hleast)]
    rfl

/-- **Integers are computed exactly or not at all.** -/
theorem integral?_eq {op : BinaryOp} (hop : op.isArithmetic = true) {x y : Int64}
    (hy : op.dividesByZero y.toInt = false) :
    op.integral? x y = if op.overflows x.toInt y.toInt then none
      else some (Int64.ofInt (op.exact x.toInt y.toInt)) := by
  cases op with
  | add | subtract | multiply | divide =>
    rw [integral?, checked_eq]
    simp only [overflows, exact]
    split <;> simp_all
  | modulo => exact integral?_modulo (by simpa [dividesByZero] using hy)
  | and | or | equal | notEqual | lessThan | lessThanOrEqual | greaterThan | greaterThanOrEqual =>
    cases hop

/-- **What an operator of arithmetic makes of two integers.** -/
theorem apply_integers {op : BinaryOp} (hop : op.isArithmetic = true) (x y : Int64) :
    op.apply (.int x) (.int y) =
      if op.dividesByZero y.toInt then .error .divisionByZero
      else if op.overflows x.toInt y.toInt then .error (.overflow op x y)
      else .ok (.int (Int64.ofInt (op.exact x.toInt y.toInt))) := by
  have hzero : (y == 0) = (y.toInt == 0) := by
    rw [Bool.eq_iff_iff, beq_iff_eq, beq_iff_eq, ← Int64.toInt_inj, Int64.toInt_zero]
  have harithmetic : op.dividesByZero y.toInt = false → op.arithmetic (.int x) (.int y) =
      if op.overflows x.toInt y.toInt then .error (.overflow op x y)
      else .ok (.int (Int64.ofInt (op.exact x.toInt y.toInt))) := by
    intro hy
    rw [arithmetic, integral?_eq hop hy]
    by_cases h : op.overflows x.toInt y.toInt = true <;> simp [h]
  cases op with
  | add | subtract | multiply => exact harithmetic rfl
  | divide | modulo =>
    by_cases hy : (y.toInt == 0) = true
    · simp [apply, dividesByZero, hzero, hy]
    · have hne : (y.toInt == 0) = false := by simpa using hy
      simp [apply, dividesByZero, hzero, hne, harithmetic hne]
  | and | or | equal | notEqual | lessThan | lessThanOrEqual | greaterThan | greaterThanOrEqual =>
    cases hop

end BinaryOp

/-- **What the negation makes of an integer.** -/
theorem UnaryOp.negate_integer (x : Int64) :
    UnaryOp.negate.apply (.int x) =
      if Fits (-x.toInt) then .ok (.int (Int64.ofInt (-x.toInt))) else .error (.negationOverflow x) := by
  rw [apply, checked_eq]
  by_cases h : Fits (-x.toInt)
  · rw [if_pos h, if_pos h]
  · rw [if_neg h, if_neg h]

/-- Whether a failure is an arithmetic overflow. -/
def Failure.isOverflow : Failure → Bool
  | overflow _ _ _ | negationOverflow _ => true
  | _ => false

/-! ## 3. Expressions -/

namespace Expr

/-- **Integer expressions**: constants under the operators of arithmetic. -/
inductive IsInteger : Expr → Prop
  | constant (i : Int64) (t : Ty) : IsInteger (.constant (.int i) t)
  | binary {op : BinaryOp} {left right : Expr} (hop : op.isArithmetic = true)
      (hleft : IsInteger left) (hright : IsInteger right) : IsInteger (.binary op left right)
  | negate {operand : Expr} (h : IsInteger operand) : IsInteger (.unary .negate operand)

/-- **The exact value of an integer expression.** -/
def exact : Expr → Int
  | .constant (.int i) _ => i.toInt
  | .binary op left right => op.exact left.exact right.exact
  | .unary .negate operand => -operand.exact
  | _ => 0

/-- The nodes of an expression in the order of evaluation: a node comes after its children. -/
def postorder (e : Expr) : List Expr := e.fold fun node below => below.flatten ++ [node]

/-- Whether a node has a divisor, and this is zero. -/
def dividesByZero : Expr → Bool
  | .binary op _ right => op.dividesByZero right.exact
  | _ => false

/-- Whether a node leaves 64 bits. -/
def overflows : Expr → Bool
  | .binary op left right => op.overflows left.exact right.exact
  | e => !decide (Fits e.exact)

/-- **Whether a node has no value of 64 bits.** -/
def offends (e : Expr) : Bool := e.dividesByZero || e.overflows

/-- Why a node has no value: it divides by zero, or leaves 64 bits with its exact operands. -/
def refusal (e : Expr) : Failure :=
  if e.dividesByZero then .divisionByZero
  else
    match e with
    | .binary op left right =>
      .overflow op (Int64.ofInt left.exact) (Int64.ofInt right.exact)
    | .unary _ operand => .negationOverflow (Int64.ofInt operand.exact)
    | e => .negationOverflow (Int64.ofInt e.exact)

/-- **The first node, in the order of evaluation, that has no value of 64 bits.** -/
def firstOffender? (e : Expr) : Option Expr := e.postorder.find? offends

variable {e left right operand : Expr}

theorem postorder_eq (e : Expr) : e.postorder = e.children.flatMap postorder ++ [e] := by
  rw [postorder, fold_eq, List.flatMap_def]
  rfl

theorem mem_postorder_self (e : Expr) : e ∈ e.postorder := by
  rw [postorder_eq]
  exact List.mem_append_right _ List.mem_cons_self

theorem firstOffender?_constant (i : Int64) (t : Ty) :
    (constant (.int i) t).firstOffender? = none := by
  have hself : (constant (.int i) t).offends = false := by
    simp [offends, dividesByZero, overflows, exact, fits_toInt]
  simp [firstOffender?, postorder_eq, children, hself]

theorem firstOffender?_binary (op : BinaryOp) (left right : Expr) :
    (binary op left right).firstOffender? = left.firstOffender?.or (right.firstOffender?.or
      (if (binary op left right).offends then some (binary op left right) else none)) := by
  simp [firstOffender?, postorder_eq (binary op left right), children, List.find?_append]

theorem firstOffender?_negate (operand : Expr) :
    (unary .negate operand).firstOffender? = operand.firstOffender?.or
      (if (unary .negate operand).offends then some (unary .negate operand) else none) := by
  simp [firstOffender?, postorder_eq (unary .negate operand), children, List.find?_append]

/-- The value of an expression in which no node offends has 64 bits. -/
theorem fits_of_firstOffender? (he : e.IsInteger) (h : e.firstOffender? = none) : Fits e.exact := by
  have hself : e.offends = false := by
    simpa using List.find?_eq_none.mp h e e.mem_postorder_self
  have hover : e.overflows = false := (Bool.or_eq_false_iff.mp hself).2
  cases he with
  | constant i t => exact fits_toInt i
  | binary hop hleft hright =>
    have hfits := (Bool.or_eq_false_iff.mp hover).1
    simpa [exact] using hfits
  | negate h => simpa [overflows] using hover

/-- An integer expression has no node that would keep it from being folded. -/
theorem IsInteger.closed (he : e.IsInteger) : e.Closed := by
  induction he with
  | constant i t => exact closed_constant _ t
  | binary op hleft hright ihl ihr => exact closed_iff.mpr ⟨rfl, by simp [children, ihl, ihr]⟩
  | negate h ih => exact closed_iff.mpr ⟨rfl, by simp [children, ih]⟩

/-- Both operands of an operator are evaluated if the first is an integer. -/
theorem eval_binary_of_int {op : BinaryOp} {x : Int64} (h : left.eval = .ok (.int x)) :
    (binary op left right).eval = right.eval >>= op.apply (.int x) := by
  rw [eval, evalWith, ← eval, h]
  cases op <;> rfl

/-- **The value of an integer expression** is the exact one, unless a node offends; then the first one
to do so is refused. -/
theorem eval_integers (he : e.IsInteger) :
    e.eval = match e.firstOffender? with
      | none => .ok (.int (Int64.ofInt e.exact))
      | some n => .error n.refusal := by
  induction he with
  | constant i t =>
    rw [firstOffender?_constant, exact, Int64.ofInt_toInt]
    rfl
  | @binary op left right hop hleft hright ihl ihr =>
    rw [firstOffender?_binary]
    cases hl : left.firstOffender? with
    | some n =>
      rw [hl] at ihl
      rw [eval, evalWith, ← eval, ihl]
      rfl
    | none =>
      rw [hl] at ihl
      rw [eval_binary_of_int ihl]
      cases hr : right.firstOffender? with
      | some n =>
        rw [hr] at ihr
        rw [ihr]
        rfl
      | none =>
        rw [hr] at ihr
        rw [ihr, Except.ok_bind, BinaryOp.apply_integers hop, (fits_of_firstOffender? hleft hl).toInt_ofInt,
          (fits_of_firstOffender? hright hr).toInt_ofInt]
        by_cases hzero : op.dividesByZero right.exact = true
        · simp [offends, dividesByZero, refusal, hzero]
        · by_cases hover : op.overflows left.exact right.exact = true
          · simp [offends, dividesByZero, overflows, refusal, hzero, hover]
          · simp [offends, dividesByZero, overflows, hzero, hover, exact]
  | @negate operand h ih =>
    rw [firstOffender?_negate]
    cases ho : operand.firstOffender? with
    | some n =>
      rw [ho] at ih
      rw [eval, evalWith, ← eval, ih]
      rfl
    | none =>
      rw [ho] at ih
      change operand.eval = .ok _ at ih
      rw [eval, evalWith, ← eval, ih, Except.ok_bind, UnaryOp.negate_integer,
        (fits_of_firstOffender? h ho).toInt_ofInt]
      by_cases hfits : Fits (-operand.exact)
      · simp [offends, dividesByZero, overflows, exact, hfits]
      · simp [offends, dividesByZero, overflows, exact, refusal, hfits]

/-- A node is refused as a division by zero iff it divides by zero, and else as an overflow. -/
theorem refusal_cases (n : Expr) :
    (n.refusal = .divisionByZero ↔ n.dividesByZero = true) ∧
      (n.refusal.isOverflow = true ↔ n.dividesByZero = false) := by
  unfold refusal
  by_cases hzero : n.dividesByZero = true
  · simp [hzero, Failure.isOverflow]
  · cases n <;> simp [hzero, Failure.isOverflow]

/-- **Folded integer arithmetic is exact or refused.**  An integer expression is folded to an integer iff
no node divides by zero and none leaves 64 bits, and the integer is the exact value.  If some node does,
then evaluation fails with the refusal of the first such node in the order of evaluation: a division by
zero iff it divides by zero, and an overflow otherwise. -/
theorem evaluate_integers (he : e.IsInteger) :
    (∀ v : Int64, e.evaluate = .ok (.constant (.int v) e.type) ↔
      (∀ n ∈ e.postorder, n.dividesByZero = false ∧ n.overflows = false) ∧ v.toInt = e.exact) ∧
    ((∃ n ∈ e.postorder, n.dividesByZero = true ∨ n.overflows = true) →
      ∃ n, e.firstOffender? = some n ∧
        e.evaluate = .error (.invalidLocalEvaluation e.text n.refusal) ∧
        (n.refusal = .divisionByZero ↔ n.dividesByZero = true) ∧
        (n.refusal.isOverflow = true ↔ n.dividesByZero = false)) := by
  have hevaluate : e.evaluate = e.evaluated := by
    rw [evaluate, evaluateWith_eq, if_pos (closedFor_isLocal_iff.mpr he.closed)]
  have hnone : e.firstOffender? = none ↔
      ∀ n ∈ e.postorder, n.dividesByZero = false ∧ n.overflows = false := by
    simp [firstOffender?, offends]
  rw [hevaluate, evaluated_eq, eval_integers he, ← hnone]
  cases hfirst : e.firstOffender? with
  | none =>
    have hfits : Fits e.exact := fits_of_firstOffender? he hfirst
    refine ⟨fun v => ?_, ?_⟩
    · have hexact : v.toInt = e.exact ↔ Int64.ofInt e.exact = v := by
        rw [← Int64.toInt_inj, hfits.toInt_ofInt, eq_comm]
      simp [hexact]
    · rintro ⟨n, hn, hbad⟩
      obtain ⟨hzero, hover⟩ := hnone.mp hfirst n hn
      simp [hzero, hover] at hbad
  | some n =>
    refine ⟨fun v => ?_, fun _ => ⟨n, rfl, rfl, n.refusal_cases⟩⟩
    simp

/-- `(-7 / 2) - (-7 % 2)` is folded to `-2`: quotient and remainder are truncated toward zero.  In
`(least % -1) * (1 / 0)` the remainder comes first, and is refused as an overflow. -/
theorem evaluate_integers_least :
    let number (i : Int64) : Expr := constant (.int i) (.scalar .int64)
    let difference := binary .subtract (binary .divide (number (-7)) (number 2))
      (binary .modulo (number (-7)) (number 2))
    let least := binary .modulo (number (-9223372036854775808)) (number (-1))
    let product := binary .multiply least (binary .divide (number 1) (number 0))
    difference.IsInteger ∧ difference.evaluate = .ok (number (-2)) ∧
    product.IsInteger ∧ product.evaluate = .error (.invalidLocalEvaluation product.text
      (.overflow .modulo (-9223372036854775808) (-1))) := by
  intro number difference least product
  have hdifference : difference.IsInteger :=
    .binary rfl (.binary rfl (.constant _ _) (.constant _ _))
      (.binary rfl (.constant _ _) (.constant _ _))
  have hproduct : product.IsInteger :=
    .binary rfl (.binary rfl (.constant _ _) (.constant _ _))
      (.binary rfl (.constant _ _) (.constant _ _))
  refine ⟨hdifference, ?_, hproduct, ?_⟩
  · exact ((evaluate_integers hdifference).1 (-2)).mpr ⟨by decide, by decide⟩
  · have hover : product.postorder.any fun n => n.dividesByZero || n.overflows := by decide
    obtain ⟨n, hfirst, hfails, -⟩ := (evaluate_integers hproduct).2 (by simpa using hover)
    have hleast : product.firstOffender? = some least := rfl
    cases hleast.symm.trans hfirst
    exact hfails

end Expr

end ChainQuery
