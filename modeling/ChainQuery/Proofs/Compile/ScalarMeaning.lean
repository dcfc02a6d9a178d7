import ChainQuery.Evaluate.Operation
import ChainQuery.Proofs.Compile.Binding
import ChainQuery.Schema.Shop
/-!
# Scalar compilation is a homomorphism

A body over one row becomes SQL in two passes: it is read into a scalar, which knows columns by
their owner (`Expr.toScalar`), and the scalar is bound to a table (`Scalar.resolve`).  The passes do
more than rename nodes.  Conversions vanish; a comparison with null from either side becomes a test
for null; a conditional whose test is a truth value becomes one of its branches; division has the
token of the dialect; and a column is qualified or not by the place where it stands.

`Lambda.read_resolve_meaning` says that none of this changes the value.  The value is taken in an
arbitrary interpretation of the operations, of which only the laws that the rewritings need are
known (`Interpretation`); so the SQL has the operators, operands and columns of the body, each in
its place.  The operations with which expressions are evaluated before compilation are one such
interpretation (`Interpretation.ofEvaluator`).
-/

namespace ChainQuery

universe u

/-! ## 1. Interpretations -/

/-- **An interpretation** of what expressions and SQL have in common, over any type of values.  A
comparison with null is the test for null, and `CASE` decides by truth values. -/
structure Interpretation (V : Type u) where
  literal : Literal → V
  /-- The value of a column, by its name in the database. -/
  column : String → V
  binary : BinaryOp → V → V → V
  not : V → V
  negate : V → V
  /-- A match of a subject against a pattern. -/
  like : Sql.Wildcards → V → V → V
  upper : V → V
  lower : V → V
  substring : V → V → V → V
  case : V → V → V → V
  isNull : V → V
  isNotNull : V → V
  equal_null : ∀ x, binary .equal x (literal .null) = isNull x
  null_equal : ∀ x, binary .equal (literal .null) x = isNull x
  notEqual_null : ∀ x, binary .notEqual x (literal .null) = isNotNull x
  null_notEqual : ∀ x, binary .notEqual (literal .null) x = isNotNull x
  case_true : ∀ x y, case (literal (.bool true)) x y = x
  case_false : ∀ x y, case (literal (.bool false)) x y = y

/-- Null is equal to a literal iff the literal is equal to null. -/
theorem Literal.null_equals (v : Literal) : Literal.null.equals v = v.equals .null := by
  cases v <;> rfl

/-- A method of strings on a value. -/
def StringMethod.onValue (m : StringMethod) (subject : Literal) (args : List Literal) :
    Except Failure Literal :=
  match subject with
  | .string s => m.apply s args
  | other => throw (.calledOn m.text other.kind)

/-- **The operations with which expressions are evaluated are an interpretation**, over literals and
the reasons why there is none. -/
def Interpretation.ofEvaluator (column : String → Literal) :
    Interpretation (Except Failure Literal) where
  literal v := .ok v
  column name := .ok (column name)
  binary op x y := do op.apply (← x) (← y)
  not x := do UnaryOp.not.apply (← x)
  negate x := do UnaryOp.negate.apply (← x)
  like wildcards x y := do
    let method := match wildcards with
      | .trailing => StringMethod.startsWith
      | .leading => StringMethod.endsWith
      | .both => StringMethod.contains
    method.onValue (← x) [← y]
  upper x := do StringMethod.toUpper.onValue (← x) []
  lower x := do StringMethod.toLower.onValue (← x) []
  substring x start length := do StringMethod.substring.onValue (← x) [← start, ← length]
  case test x y := do
    match ← test with
    | .bool true => x
    | .bool false => y
    | other => throw (.testNotBoolean other.kind)
  isNull x := do BinaryOp.equal.apply (← x) .null
  isNotNull x := do BinaryOp.notEqual.apply (← x) .null
  equal_null _ := rfl
  null_equal x := by
    cases x with
    | error reason => rfl
    | ok v => exact congrArg (fun b => Except.ok (Literal.bool b)) (Literal.null_equals v)
  notEqual_null _ := rfl
  null_notEqual x := by
    cases x with
    | error reason => rfl
    | ok v => exact congrArg (fun b => Except.ok (Literal.bool !b)) (Literal.null_equals v)
  case_true _ _ := rfl
  case_false _ _ := rfl

/-- The database column of a member: the registered one, or the one of the member's own name. -/
def RowType.columnOf (info : RowType) (member : String) : String :=
  match info.columns.lookup member with
  | some column => column.name
  | none => member

namespace Interpretation

variable {V : Type u} (M : Interpretation V)

/-- The value of a method of strings. -/
def stringMethod? : StringMethod → V → List V → Option V
  | .startsWith, subject, [pattern] => some (M.like .trailing subject pattern)
  | .endsWith, subject, [pattern] => some (M.like .leading subject pattern)
  | .contains, subject, [pattern] => some (M.like .both subject pattern)
  | .substring, subject, [start, length] => some (M.substring subject start length)
  | .toUpper, subject, [] => some (M.upper subject)
  | .toLower, subject, [] => some (M.lower subject)
  | _, _, _ => none

/-- The value of a function of the database. -/
def function? : Sql.Function → List V → Option V
  | .upper, [subject] => some (M.upper subject)
  | .lower, [subject] => some (M.lower subject)
  | .substring, [subject, start, length] => some (M.substring subject start length)
  | _, _ => none

end Interpretation

/-! ## 2. The meaning of an expression and of its SQL -/

section Meaning

variable {V : Type u} (M : Interpretation V)

mutual
/-- **The value of an expression over a row.**  A member reads its column, and a conversion changes
nothing. -/
def Expr.meaning? (info : RowType) : Expr → Option V
  | .binary op left right => do
    return M.binary op (← left.meaning? info) (← right.meaning? info)
  | .unary .not operand => do return M.not (← operand.meaning? info)
  | .unary .negate operand => do return M.negate (← operand.meaning? info)
  | .unary (.convert _) operand => operand.meaning? info
  | .member (.parameter _ _) name _ => some (M.column (info.columnOf name))
  | .constant value _ => some (M.literal value)
  | .conditional test ifTrue ifFalse => do
    return M.case (← test.meaning? info) (← ifTrue.meaning? info) (← ifFalse.meaning? info)
  | .call (.string m) (some receiver) args _ => do
    M.stringMethod? m (← receiver.meaning? info) (← Expr.meanings? info args)
  | _ => none

/-- The values of expressions. -/
def Expr.meanings? (info : RowType) : List Expr → Option (List V)
  | [] => some []
  | e :: rest => do return (← e.meaning? info) :: (← Expr.meanings? info rest)
end

/-- The literal that a parameter stands for. -/
def Sql.Param.toLiteral : Sql.Param → Literal
  | bool value => .bool value
  | int value => .int value
  | float value => .float value
  | string value => .string value

/-- The name of a column, without the table before it. -/
def Sql.ColumnRef.name : Sql.ColumnRef → String
  | qualified _ name => name
  | bare name => name

/-- **The operator that a token stands for.**  Division has the token of the
dialect, and no other. -/
def Dialect.operator? (dialect : Dialect) : String → Option BinaryOp
  | "=" => some .equal
  | "<>" => some .notEqual
  | "<" => some .lessThan
  | "<=" => some .lessThanOrEqual
  | ">" => some .greaterThan
  | ">=" => some .greaterThanOrEqual
  | "+" => some .add
  | "-" => some .subtract
  | "*" => some .multiply
  | "%" => some .modulo
  | "/" => if dialect.division = .slash then some .divide else none
  | "\\" => if dialect.division = .backslash then some .divide else none
  | _ => none

mutual
/-- **The value of a SQL expression.**  A parameter is its literal. -/
def Sql.Expr.meaning? (dialect : Dialect) : Sql.Expr → Option V
  | .and left right => do
    return M.binary .and (← left.meaning? dialect) (← right.meaning? dialect)
  | .or left right => do
    return M.binary .or (← left.meaning? dialect) (← right.meaning? dialect)
  | .not operand => do return M.not (← operand.meaning? dialect)
  | .negate operand => do return M.negate (← operand.meaning? dialect)
  | .op left token right =>
    match dialect.operator? token with
    | none => none
    | some operator => do
      return M.binary operator (← left.meaning? dialect) (← right.meaning? dialect)
  | .isNull operand => do return M.isNull (← operand.meaning? dialect)
  | .isNotNull operand => do return M.isNotNull (← operand.meaning? dialect)
  | .call f args => do M.function? f (← Sql.Expr.meanings? dialect args)
  | .like subject pattern wildcards => do
    return M.like wildcards (← subject.meaning? dialect) (← pattern.meaning? dialect)
  | .case test ifTrue ifFalse => do
    return M.case (← test.meaning? dialect) (← ifTrue.meaning? dialect)
      (← ifFalse.meaning? dialect)
  | .column ref => some (M.column ref.name)
  | .param value => some (M.literal value.toLiteral)
  | .null => some (M.literal .null)
  | .bool value => some (M.literal (.bool value))
  | .countAll => none
  | .subselect _ => none

/-- The values of SQL expressions. -/
def Sql.Expr.meanings? (dialect : Dialect) : List Sql.Expr → Option (List V)
  | [] => some []
  | e :: rest => do return (← e.meaning? dialect) :: (← Sql.Expr.meanings? dialect rest)
end

end Meaning

-- every node has the meaning of its kind
attribute [local simp] Expr.meaning? Expr.meanings? Sql.Expr.meaning? Sql.Expr.meanings?

/-! ## 3. Bodies -/

/-- The number of arguments with which a method of strings has SQL. -/
def StringMethod.arity : StringMethod → Nat
  | startsWith | endsWith | contains => 1
  | substring => 2
  | toUpper | toLower => 0

/-- Whether a literal is a single value or null. -/
def Literal.isSingle : Literal → Bool
  | .list _ | .object _ => false
  | _ => true

/-- **The bodies of scalars over a row.**  Every operator, conversion to a scalar type, scalar
member of the parameter, single constant, conditional and method of strings is allowed. -/
inductive ScalarBody (p : Parameter) : Expr → Prop
  | binary (op : BinaryOp) {left right : Expr} :
    ScalarBody p left → ScalarBody p right → ScalarBody p (.binary op left right)
  | not {operand : Expr} : ScalarBody p operand → ScalarBody p (.unary .not operand)
  | negate {operand : Expr} : ScalarBody p operand → ScalarBody p (.unary .negate operand)
  | convert {target : Ty} {operand : Expr} : target.isScalar = true → ScalarBody p operand →
    ScalarBody p (.unary (.convert target) operand)
  | member (name : String) {t : Ty} : t.isScalar = true → ScalarBody p (p.member name t)
  | constant {value : Literal} (t : Ty) : value.isSingle = true →
    ScalarBody p (.constant value t)
  | conditional {test ifTrue ifFalse : Expr} :
    ScalarBody p test → ScalarBody p ifTrue → ScalarBody p ifFalse →
    ScalarBody p (.conditional test ifTrue ifFalse)
  | string {m : StringMethod} {receiver : Expr} {args : List Expr} (t : Ty) :
    args.length = m.arity → ScalarBody p receiver → (∀ arg ∈ args, ScalarBody p arg) →
    ScalarBody p (.call (.string m) (some receiver) args t)

/-! ## 4. Every body has a meaning -/

section Defined

variable {V : Type u} (M : Interpretation V) (info : RowType)

theorem Interpretation.stringMethod?_isSome {m : StringMethod} {args : List V}
    (h : args.length = m.arity) (subject : V) : ∃ v, M.stringMethod? m subject args = some v := by
  match m, args, h with
  | .startsWith, [_], _ | .endsWith, [_], _ | .contains, [_], _ => exact ⟨_, rfl⟩
  | .substring, [_, _], _ => exact ⟨_, rfl⟩
  | .toUpper, [], _ | .toLower, [], _ => exact ⟨_, rfl⟩

theorem Expr.meanings?_isSome {args : List Expr}
    (h : ∀ arg ∈ args, ∃ v, arg.meaning? M info = some v) :
    ∃ vs, Expr.meanings? M info args = some vs ∧ vs.length = args.length := by
  induction args with
  | nil => exact ⟨[], rfl, rfl⟩
  | cons arg rest ih =>
    obtain ⟨v, hv⟩ := h arg List.mem_cons_self
    obtain ⟨vs, hvs, hlength⟩ := ih fun a ha => h a (List.mem_cons_of_mem _ ha)
    exact ⟨v :: vs, by simp [hv, hvs], by simp [hlength]⟩

/-- **Every body has a value in every interpretation.** -/
theorem ScalarBody.meaning?_isSome {p : Parameter} {e : Expr} (h : ScalarBody p e) :
    ∃ v, e.meaning? M info = some v := by
  induction h with
  | binary op hl hr ihl ihr =>
    obtain ⟨l, hl⟩ := ihl
    obtain ⟨r, hr⟩ := ihr
    exact ⟨M.binary op l r, by simp [hl, hr]⟩
  | not h ih =>
    obtain ⟨v, hv⟩ := ih
    exact ⟨M.not v, by simp [hv]⟩
  | negate h ih =>
    obtain ⟨v, hv⟩ := ih
    exact ⟨M.negate v, by simp [hv]⟩
  | convert ht h ih =>
    obtain ⟨v, hv⟩ := ih
    exact ⟨v, by simp [hv]⟩
  | member name ht => exact ⟨M.column (info.columnOf name), rfl⟩
  | constant t h => exact ⟨_, rfl⟩
  | conditional ht ha hb iht iha ihb =>
    obtain ⟨t, ht⟩ := iht
    obtain ⟨a, ha⟩ := iha
    obtain ⟨b, hb⟩ := ihb
    exact ⟨M.case t a b, by simp [ht, ha, hb]⟩
  | string t harity hr hargs ihr ihargs =>
    obtain ⟨r, hr⟩ := ihr
    obtain ⟨vs, hvs, hlength⟩ := Expr.meanings?_isSome M info ihargs
    obtain ⟨v, hv⟩ := M.stringMethod?_isSome (hlength.trans harity) r
    exact ⟨v, by simp [hr, hvs, hv]⟩

end Defined

/-! ## 5. What binding a scalar does to its meaning -/

/-- The token of an operator stands for that operator. -/
theorem Dialect.operator?_token (dialect : Dialect) {op : BinaryOp} (h : op.isLogical = false) :
    dialect.operator? (op.token dialect) = some op := by
  cases op with
  | and | or => cases h
  | divide => cases hd : dialect.division <;> simp [BinaryOp.token, DivisionOp.token, operator?, hd]
  | _ => rfl

theorem Schema.columnName_eq {schema : Schema} {row : String} {info : RowType}
    (h : schema.rowType row = .ok info) (member : String) :
    schema.columnName row member = .ok (info.columnOf member) := by
  have hname : schema.columnName row member =
      .ok (((info.columns.lookup member).map Column.name).getD member) := by
    rw [columnName, h]
    rfl
  rw [hname, RowType.columnOf]
  cases info.columns.lookup member <;> rfl

/-- **A member of the row of a single table is bound to its column**, qualified or not. -/
theorem Frame.column_table {env : Env} {row label : String} {info : RowType} {frame : Frame}
    (hrow : env.schema.rowType row = .ok info) (hsource : frame.source = .table row label)
    (subqueries : Subqueries) (member : String) (position : Position) :
    ∃ ref : Sql.ColumnRef,
      ((frame.scope env subqueries []).column ⟨[.row row], member⟩ position).outcome
        = .ok (.column ref) ∧ ref.name = info.columnOf member := by
  have hname := Schema.columnName_eq hrow member
  have hbound : ∀ ref : Sql.ColumnRef,
      (Source.table row label).column? env.schema (.row row) member position
        = .ok (some (.column ref)) →
      ((frame.scope env subqueries []).column ⟨[.row row], member⟩ position).outcome
        = .ok (.column ref) := fun ref h =>
    bindToSource_eq_ok.mpr ⟨.row row, rfl, Or.inl (hsource ▸ h)⟩
  cases position with
  | selectList =>
    refine ⟨.bare (info.columnOf member), hbound _ ?_, rfl⟩
    simp [Source.column?, hname, Sql.Expr.bareColumn, bind, Except.bind, pure, Except.pure]
  | predicate =>
    refine ⟨.qualified (.aliased label) (info.columnOf member), hbound _ ?_, rfl⟩
    simp [Source.column?, hname, Sql.Expr.aliasedColumn, bind, Except.bind, pure, Except.pure]

namespace Scalar

variable {dialect : Dialect} {subqueries : Subqueries} {scope : Scope} {position : Position}

theorem eq_null_of_isNull {s : Scalar} (h : s.isNull = true) : s = .null := by
  match s, h with
  | .null, _ => rfl

/-- Null is bound to nothing but the null of SQL. -/
theorem resolve_of_isNull {s : Scalar} {e : Sql.Expr} (hs : s.isNull = true)
    (h : (s.resolve dialect subqueries scope position).outcome = .ok e) : e = .null := by
  cases eq_null_of_isNull hs
  cases h
  rfl

/-- Two operands around a token mean the operator that the token stands for. -/
theorem meaning?_op {V : Type u} (M : Interpretation V) (op : BinaryOp)
    (hop : op.isLogical = false) (l r : Sql.Expr) :
    (Sql.Expr.op l (op.token dialect) r).meaning? M dialect = do
      return M.binary op (← l.meaning? M dialect) (← r.meaning? M dialect) := by
  simp only [Sql.Expr.meaning?, Dialect.operator?_token dialect hop]

/-- **A comparison keeps its meaning where it becomes a test for null.**  The right side decides
first; if both sides are null then it is the left one that is tested. -/
theorem resolve_nullTest {left right : Scalar} {l r : Sql.Expr}
    (hl : (left.resolve dialect subqueries scope position).outcome = .ok l)
    (hr : (right.resolve dialect subqueries scope position).outcome = .ok r)
    (op : BinaryOp) (hop : op.isLogical = false) (test : Sql.Expr → Sql.Expr)
    (hresolve : (binary op left right).resolve dialect subqueries scope position =
      if right.isNull then do return test (← left.resolve dialect subqueries scope position)
      else if left.isNull then do return test (← right.resolve dialect subqueries scope position)
      else do
        return .op (← left.resolve dialect subqueries scope position) (op.token dialect)
          (← right.resolve dialect subqueries scope position))
    (hright : ∀ {V : Type u} (M : Interpretation V) (e : Sql.Expr),
      (test e).meaning? M dialect =
        do return M.binary op (← e.meaning? M dialect) (M.literal .null))
    (hleft : ∀ {V : Type u} (M : Interpretation V) (e : Sql.Expr),
      (test e).meaning? M dialect =
        do return M.binary op (M.literal .null) (← e.meaning? M dialect)) :
    ∃ e, ((binary op left right).resolve dialect subqueries scope position).outcome = .ok e ∧
      ∀ {V : Type u} (M : Interpretation V), e.meaning? M dialect = do
        return M.binary op (← l.meaning? M dialect) (← r.meaning? M dialect) := by
  rw [hresolve]
  cases hnull : right.isNull with
  | true =>
    refine ⟨test l, Traced.bind_eq_ok.mpr ⟨l, hl, rfl⟩, fun M => ?_⟩
    cases resolve_of_isNull hnull hr
    exact hright M l
  | false =>
    cases hnull : left.isNull with
    | true =>
      refine ⟨test r, Traced.bind_eq_ok.mpr ⟨r, hr, rfl⟩, fun M => ?_⟩
      cases resolve_of_isNull hnull hl
      exact hleft M r
    | false =>
      exact ⟨.op l (op.token dialect) r,
        Traced.bind_eq_ok.mpr ⟨l, hl, Traced.bind_eq_ok.mpr ⟨r, hr, rfl⟩⟩,
        fun M => meaning?_op M op hop l r⟩

/-- **The SQL of a binary operator means the operator**, whatever it is and whether or not a side is
null. -/
theorem resolve_binary {left right : Scalar} {l r : Sql.Expr}
    (hl : (left.resolve dialect subqueries scope position).outcome = .ok l)
    (hr : (right.resolve dialect subqueries scope position).outcome = .ok r) (op : BinaryOp) :
    ∃ e, ((binary op left right).resolve dialect subqueries scope position).outcome = .ok e ∧
      ∀ {V : Type u} (M : Interpretation V), e.meaning? M dialect = do
        return M.binary op (← l.meaning? M dialect) (← r.meaning? M dialect) := by
  -- both sides in turn, under whatever node is put above them
  have hpair : ∀ node : Sql.Expr → Sql.Expr → Sql.Expr,
      (left.resolve dialect subqueries scope position >>= fun l =>
        right.resolve dialect subqueries scope position >>= fun r => pure (node l r)).outcome
        = .ok (node l r) := fun node =>
    Traced.bind_eq_ok.mpr ⟨l, hl, Traced.bind_eq_ok.mpr ⟨r, hr, rfl⟩⟩
  cases op with
  | and => exact ⟨.and l r, hpair .and, fun M => by rw [Sql.Expr.meaning?]⟩
  | or => exact ⟨.or l r, hpair .or, fun M => by rw [Sql.Expr.meaning?]⟩
  | equal =>
    refine resolve_nullTest hl hr .equal rfl .isNull ?_ (fun M e => ?_) (fun M e => ?_)
    · cases hleft : left.isNull <;> cases hright : right.isNull <;>
        simp [resolve, hleft, hright]
    · simp only [Sql.Expr.meaning?, M.equal_null]
    · simp only [Sql.Expr.meaning?, M.null_equal]
  | notEqual =>
    refine resolve_nullTest hl hr .notEqual rfl .isNotNull ?_ (fun M e => ?_) (fun M e => ?_)
    · cases hleft : left.isNull <;> cases hright : right.isNull <;>
        simp [resolve, hleft, hright]
    · simp only [Sql.Expr.meaning?, M.notEqual_null]
    · simp only [Sql.Expr.meaning?, M.null_notEqual]
  | lessThan | lessThanOrEqual | greaterThan | greaterThanOrEqual | add | subtract | multiply
  | divide | modulo =>
    exact ⟨.op l _ r, hpair fun l r => .op l _ r, fun M => meaning?_op M _ rfl l r⟩

/-- The SQL of a function is its call on the SQL of its arguments. -/
theorem resolve_function (f : Sql.Function) {args : List Scalar} {es : List Sql.Expr}
    (h : List.Forall₂ (fun s e => (s.resolve dialect subqueries scope position).outcome = .ok e)
      args es) :
    ((function f args).resolve dialect subqueries scope position).outcome = .ok (.call f es) := by
  have hlist : (resolveList dialect subqueries scope position args).outcome = .ok es := by
    induction h with
    | nil => rfl
    | cons hs _ ih =>
      exact Traced.bind_eq_ok.mpr ⟨_, hs, Traced.bind_eq_ok.mpr ⟨_, ih, rfl⟩⟩
  exact Traced.bind_eq_ok.mpr ⟨es, hlist, rfl⟩

end Scalar

/-! ## 6. Compiling keeps the meaning -/

/-- **An expression is compiled to SQL of its meaning**: wherever its reading starts, it is read
into a scalar, which is bound to SQL of the same value in every interpretation. -/
def Expr.KeepsMeaning (env : Env) (info : RowType) (subqueries : Subqueries) (scope : Scope)
    (position : Position) (e : Expr) : Prop :=
  ∀ r : Reading, ∃ s r' sql, ((e.toScalar env).run r).outcome = .ok (s, r') ∧
    (s.resolve env.dialect subqueries scope position).outcome = .ok sql ∧
    ∀ {V : Type u} (M : Interpretation V), sql.meaning? M env.dialect = e.meaning? M info

namespace Expr.KeepsMeaning

variable {env : Env} {info : RowType} {subqueries : Subqueries} {scope : Scope}
  {position : Position}

theorem binary (op : BinaryOp) {left right : Expr}
    (hl : KeepsMeaning.{u} env info subqueries scope position left)
    (hr : KeepsMeaning.{u} env info subqueries scope position right) :
    KeepsMeaning.{u} env info subqueries scope position (.binary op left right) := by
  intro r₀
  obtain ⟨s, r₁, l, hs, hl, hls⟩ := hl r₀
  obtain ⟨t, r₂, r, ht, hr, hrs⟩ := hr r₁
  obtain ⟨e, he, hmeaning⟩ := Scalar.resolve_binary hl hr op
  refine ⟨.binary op s t, r₂, e, ?_, he, fun M => ?_⟩
  · exact ReadM.bind_eq_ok.mpr ⟨s, r₁, hs, ReadM.bind_eq_ok.mpr ⟨t, r₂, ht, rfl⟩⟩
  · rw [hmeaning M, hls M, hrs M, Expr.meaning?]

theorem not {operand : Expr} (h : KeepsMeaning.{u} env info subqueries scope position operand) :
    KeepsMeaning.{u} env info subqueries scope position (.unary .not operand) := by
  intro r₀
  obtain ⟨s, r₁, e, hs, he, hmeaning⟩ := h r₀
  refine ⟨.not s, r₁, .not e, ?_, ?_, fun M => ?_⟩
  · exact ReadM.bind_eq_ok.mpr ⟨s, r₁, hs, rfl⟩
  · exact Traced.bind_eq_ok.mpr ⟨e, he, rfl⟩
  · rw [Sql.Expr.meaning?, hmeaning M, Expr.meaning?]

theorem negate {operand : Expr} (h : KeepsMeaning.{u} env info subqueries scope position operand) :
    KeepsMeaning.{u} env info subqueries scope position (.unary .negate operand) := by
  intro r₀
  obtain ⟨s, r₁, e, hs, he, hmeaning⟩ := h r₀
  refine ⟨.negate s, r₁, .negate e, ?_, ?_, fun M => ?_⟩
  · exact ReadM.bind_eq_ok.mpr ⟨s, r₁, hs, rfl⟩
  · exact Traced.bind_eq_ok.mpr ⟨e, he, rfl⟩
  · rw [Sql.Expr.meaning?, hmeaning M, Expr.meaning?]

/-- A conversion between scalars leaves nothing behind. -/
theorem convert {target : Ty} (htarget : target.isScalar = true) {operand : Expr}
    (h : KeepsMeaning.{u} env info subqueries scope position operand) :
    KeepsMeaning.{u} env info subqueries scope position (.unary (.convert target) operand) := by
  intro r₀
  obtain ⟨s, r₁, e, hs, he, hmeaning⟩ := h r₀
  refine ⟨s, r₁, e, ?_, he, fun M => ?_⟩
  · rw [toScalar, if_pos htarget]
    exact hs
  · rw [hmeaning M, Expr.meaning?]

theorem constant {value : Literal} (h : value.isSingle = true) (t : Ty) :
    KeepsMeaning.{u} env info subqueries scope position (.constant value t) := by
  intro r₀
  match value, h with
  | .null, _ => exact ⟨.null, r₀, .null, rfl, rfl, fun M => rfl⟩
  | .bool b, _ => exact ⟨.value (.bool b), r₀, .param (.bool b), rfl, rfl, fun M => rfl⟩
  | .int i, _ => exact ⟨.value (.int i), r₀, .param (.int i), rfl, rfl, fun M => rfl⟩
  | .float x, _ => exact ⟨.value (.float x), r₀, .param (.float x), rfl, rfl, fun M => rfl⟩
  | .string s, _ => exact ⟨.value (.string s), r₀, .param (.string s), rfl, rfl, fun M => rfl⟩

/-- **A conditional keeps its meaning.**  If its test is read as a truth value, then only one of the
branches is compiled, and the other must have a value for `CASE` to ignore. -/
theorem conditional {test ifTrue ifFalse : Expr}
    (ht : KeepsMeaning.{u} env info subqueries scope position test)
    (ha : KeepsMeaning.{u} env info subqueries scope position ifTrue)
    (hb : KeepsMeaning.{u} env info subqueries scope position ifFalse)
    (hav : ∀ {V : Type u} (M : Interpretation V), ∃ v, ifTrue.meaning? M info = some v)
    (hbv : ∀ {V : Type u} (M : Interpretation V), ∃ v, ifFalse.meaning? M info = some v) :
    KeepsMeaning.{u} env info subqueries scope position (.conditional test ifTrue ifFalse) := by
  intro r₀
  obtain ⟨s, r₁, t, hs, hres, hmeaning⟩ := ht r₀
  by_cases hconst : ∃ b, s = .value (.bool b)
  · obtain ⟨b, rfl⟩ := hconst
    -- the SQL of the test would have been the truth value itself
    cases hres
    have htest : ∀ {V : Type u} (M : Interpretation V),
        test.meaning? M info = some (M.literal (.bool b)) := fun M => (hmeaning M).symm
    cases b with
    | true =>
      obtain ⟨a, r₂, e, hs', he, hma⟩ := ha r₁
      refine ⟨a, r₂, e, ?_, he, fun M => ?_⟩
      · exact ReadM.bind_eq_ok.mpr ⟨_, r₁, hs, hs'⟩
      · obtain ⟨x, hx⟩ := hav M
        obtain ⟨y, hy⟩ := hbv M
        simp [hma M, htest M, hx, hy, M.case_true]
    | false =>
      obtain ⟨a, r₂, e, hs', he, hmb⟩ := hb r₁
      refine ⟨a, r₂, e, ?_, he, fun M => ?_⟩
      · exact ReadM.bind_eq_ok.mpr ⟨_, r₁, hs, hs'⟩
      · obtain ⟨x, hx⟩ := hav M
        obtain ⟨y, hy⟩ := hbv M
        simp [hmb M, htest M, hx, hy, M.case_false]
  · obtain ⟨a, r₂, x, hsa, hx, hma⟩ := ha r₁
    obtain ⟨b, r₃, y, hsb, hy, hmb⟩ := hb r₂
    refine ⟨.case s a b, r₃, .case t x y, ?_, ?_, fun M => ?_⟩
    · refine ReadM.bind_eq_ok.mpr ⟨s, r₁, hs, ?_⟩
      split
      · exact absurd ⟨true, rfl⟩ hconst
      · exact absurd ⟨false, rfl⟩ hconst
      · exact ReadM.bind_eq_ok.mpr ⟨a, r₂, hsa, ReadM.bind_eq_ok.mpr ⟨b, r₃, hsb, rfl⟩⟩
    · exact Traced.bind_eq_ok.mpr
        ⟨t, hres, Traced.bind_eq_ok.mpr ⟨x, hx, Traced.bind_eq_ok.mpr ⟨y, hy, rfl⟩⟩⟩
    · rw [Sql.Expr.meaning?, hmeaning M, hma M, hmb M, Expr.meaning?]

/-- **A member of the row keeps its meaning**: what the scope binds it to is its column. -/
theorem member {row : String} (x : String) (name : String) {t : Ty} (ht : t.isScalar = true)
    (h : ∃ ref : Sql.ColumnRef, (scope.column ⟨[.row row], name⟩ position).outcome
      = .ok (.column ref) ∧ ref.name = info.columnOf name) :
    KeepsMeaning.{u} env info subqueries scope position
      ((⟨x, .row row⟩ : Parameter).member name t) := by
  intro r₀
  obtain ⟨ref, hcolumn, hname⟩ := h
  let column := Scalar.column ⟨[.row row], name⟩
  refine ⟨column, if r₀.columns.contains column then r₀
    else { r₀ with columns := r₀.columns ++ [column] }, .column ref, ?_, ?_, fun M => ?_⟩
  · simp only [Parameter.member, Parameter.reference, toScalar, readMember, ht]
    rfl
  · exact hcolumn
  · rw [Sql.Expr.meaning?, hname]
    rfl

/-- A match against a pattern keeps its meaning. -/
theorem like {m : StringMethod} {receiver pattern : Expr} {t : Ty} (wildcards : Sql.Wildcards)
    (hread : (Expr.call (.string m) (some receiver) [pattern] t).toScalar env = do
      return .like (← receiver.toScalar env) (← pattern.toScalar env) wildcards)
    (hvalue : ∀ {V : Type u} (M : Interpretation V) (subject p : V),
      M.stringMethod? m subject [p] = some (M.like wildcards subject p))
    (hr : KeepsMeaning.{u} env info subqueries scope position receiver)
    (hp : KeepsMeaning.{u} env info subqueries scope position pattern) :
    KeepsMeaning.{u} env info subqueries scope position
      (.call (.string m) (some receiver) [pattern] t) := by
  intro r₀
  obtain ⟨s, r₁, x, hs, hx, hmx⟩ := hr r₀
  obtain ⟨p, r₂, y, hp, hy, hmy⟩ := hp r₁
  refine ⟨.like s p wildcards, r₂, .like x y wildcards, ?_, ?_, fun M => ?_⟩
  · rw [hread]
    exact ReadM.bind_eq_ok.mpr ⟨s, r₁, hs, ReadM.bind_eq_ok.mpr ⟨p, r₂, hp, rfl⟩⟩
  · exact Traced.bind_eq_ok.mpr ⟨x, hx, Traced.bind_eq_ok.mpr ⟨y, hy, rfl⟩⟩
  · simp [Option.bind_assoc, hmx M, hmy M, hvalue M]

/-- A change of case keeps its meaning. -/
theorem changeCase {m : StringMethod} {receiver : Expr} {t : Ty} (f : Sql.Function)
    (hread : (Expr.call (.string m) (some receiver) [] t).toScalar env = do
      return .function f [← receiver.toScalar env])
    (hvalue : ∀ {V : Type u} (M : Interpretation V) (subject : V),
      M.stringMethod? m subject [] = M.function? f [subject])
    (hr : KeepsMeaning.{u} env info subqueries scope position receiver) :
    KeepsMeaning.{u} env info subqueries scope position
      (.call (.string m) (some receiver) [] t) := by
  intro r₀
  obtain ⟨s, r₁, x, hs, hx, hmx⟩ := hr r₀
  refine ⟨.function f [s], r₁, .call f [x], ?_, Scalar.resolve_function f (.cons hx .nil),
    fun M => ?_⟩
  · rw [hread]
    exact ReadM.bind_eq_ok.mpr ⟨s, r₁, hs, rfl⟩
  · simp [Option.bind_assoc, hmx M, hvalue M]

/-- A substring keeps its meaning. -/
theorem substring {receiver start length : Expr} (t : Ty)
    (hr : KeepsMeaning.{u} env info subqueries scope position receiver)
    (hstart : KeepsMeaning.{u} env info subqueries scope position start)
    (hlength : KeepsMeaning.{u} env info subqueries scope position length) :
    KeepsMeaning.{u} env info subqueries scope position
      (.call (.string .substring) (some receiver) [start, length] t) := by
  intro r₀
  obtain ⟨s, r₁, x, hs, hx, hmx⟩ := hr r₀
  obtain ⟨p, r₂, y, hp, hy, hmy⟩ := hstart r₁
  obtain ⟨q, r₃, z, hq, hz, hmz⟩ := hlength r₂
  refine ⟨.function .substring [s, p, q], r₃, .call .substring [x, y, z], ?_,
    Scalar.resolve_function _ (.cons hx (.cons hy (.cons hz .nil))), fun M => ?_⟩
  · exact ReadM.bind_eq_ok.mpr
      ⟨s, r₁, hs, ReadM.bind_eq_ok.mpr ⟨p, r₂, hp, ReadM.bind_eq_ok.mpr ⟨q, r₃, hq, rfl⟩⟩⟩
  · simp [Option.bind_assoc, Interpretation.stringMethod?, Interpretation.function?, hmx M, hmy M,
      hmz M]

/-- **A method of strings keeps its meaning**, called with as many arguments as it takes. -/
theorem string {m : StringMethod} {receiver : Expr} {args : List Expr} (t : Ty)
    (harity : args.length = m.arity)
    (hr : KeepsMeaning.{u} env info subqueries scope position receiver)
    (hargs : ∀ arg ∈ args, KeepsMeaning.{u} env info subqueries scope position arg) :
    KeepsMeaning.{u} env info subqueries scope position
      (.call (.string m) (some receiver) args t) := by
  match m, args, harity with
  | .startsWith, [pattern], _ =>
    exact like .trailing rfl (fun _ _ _ => rfl) hr (hargs pattern List.mem_cons_self)
  | .endsWith, [pattern], _ =>
    exact like .leading rfl (fun _ _ _ => rfl) hr (hargs pattern List.mem_cons_self)
  | .contains, [pattern], _ =>
    exact like .both rfl (fun _ _ _ => rfl) hr (hargs pattern List.mem_cons_self)
  | .substring, [start, length], _ =>
    exact substring t hr (hargs start List.mem_cons_self)
      (hargs length (List.mem_cons_of_mem _ List.mem_cons_self))
  | .toUpper, [], _ => exact changeCase .upper rfl (fun _ _ => rfl) hr
  | .toLower, [], _ => exact changeCase .lower rfl (fun _ _ => rfl) hr

end Expr.KeepsMeaning

/-- **Every body keeps its meaning** in a scope that binds the members of its row to their
columns. -/
theorem ScalarBody.keepsMeaning {env : Env} {info : RowType} {subqueries : Subqueries}
    {scope : Scope} {position : Position} {x row : String} {e : Expr}
    (hcolumn : ∀ name, ∃ ref : Sql.ColumnRef, (scope.column ⟨[.row row], name⟩ position).outcome
      = .ok (.column ref) ∧ ref.name = info.columnOf name)
    (h : ScalarBody ⟨x, .row row⟩ e) :
    e.KeepsMeaning.{u} env info subqueries scope position := by
  induction h with
  | binary op _ _ ihl ihr => exact ihl.binary op ihr
  | not _ ih => exact ih.not
  | negate _ ih => exact ih.negate
  | convert ht _ ih => exact ih.convert ht
  | member name ht => exact Expr.KeepsMeaning.member x name ht (hcolumn name)
  | constant t h => exact Expr.KeepsMeaning.constant h t
  | conditional _ ha hb iht iha ihb =>
    exact iht.conditional iha ihb (fun M => ha.meaning?_isSome M info)
      (fun M => hb.meaning?_isSome M info)
  | string t harity _ _ ihr ihargs => exact ihr.string t harity ihargs

/-! ## 7. The theorem -/

/-- **Scalar compilation is a homomorphism.**  A lambda over a registered row is read, its body is
bound to a table of the row at either position of a statement, and the SQL has the value of the body
in every interpretation. -/
theorem Lambda.read_resolve_meaning {env : Env} {row label : String} {info : RowType}
    {frame : Frame} (hrow : env.schema.rowType row = .ok info)
    (hsource : frame.source = .table row label) (subqueries : Subqueries) (position : Position)
    {x : String} {e : Expr} (he : ScalarBody ⟨x, .row row⟩ e) :
    ∃ p sql, (Lambda.read env 1 ⟨[⟨x, .row row⟩], e⟩).outcome = .ok p ∧
      (p.body.resolve env.dialect subqueries (frame.scope env subqueries []) position).outcome
        = .ok sql ∧
      ∀ {V : Type u} (M : Interpretation V), ∃ v,
        e.meaning? M info = some v ∧ sql.meaning? M env.dialect = some v := by
  have hcolumn := fun name => Frame.column_table hrow hsource subqueries name position
  obtain ⟨s, r, sql, hread, hresolve, hmeaning⟩ := he.keepsMeaning.{u} hcolumn {}
  refine ⟨⟨.row row, e.type, s, r.columns, r.aliases⟩, sql, ?_, hresolve, fun M => ?_⟩
  · exact Traced.bind_eq_ok.mpr ⟨(s, r), hread, rfl⟩
  · obtain ⟨v, hv⟩ := he.meaning?_isSome M info
    exact ⟨v, hv, (hmeaning M).trans hv⟩

/-- `null != c.Name && (false ? c.Id : c.Id / 2) == 3` over a customer is
`(t.Name IS NOT NULL) AND ((t.Id \ 2) = 3)` where division is written so, and both are true of a
customer with a name and the number 6. -/
theorem Lambda.read_resolve_meaning_sample :
    let env : Env := ⟨Shop.schema, ⟨.backslash⟩⟩
    let subqueries : Subqueries := fun _ _ => throw (.invalidArgument "no aggregates here")
    let frame : Frame := ⟨0, .table "Customer" "t", none⟩
    let c : Parameter := ⟨"c", .row "Customer"⟩
    let number (i : Int64) : Expr := .constant (.int i) (.scalar .int32)
    let e := Expr.binary .and
      (.binary .notEqual (.constant .null (.scalar .string)) (Shop.field c "Name"))
      (.binary .equal
        (.conditional (.constant (.bool false) .boolean) (Shop.field c "Id")
          (.binary .divide (Shop.field c "Id") (number 2)))
        (number 3))
    let sql := Sql.Expr.and
      (.isNotNull (.aliasedColumn "t" "Name"))
      (.op (.op (.aliasedColumn "t" "Id") "\\" (.param (.int 2))) "=" (.param (.int 3)))
    let M := Interpretation.ofEvaluator fun name =>
      if name == "Id" then .int 6 else .string "Ada"
    ∃ p, (Lambda.read env 1 ⟨[c], e⟩).outcome = .ok p ∧
      (p.body.resolve env.dialect subqueries (frame.scope env subqueries []) .predicate).outcome
        = .ok sql ∧
      e.meaning? M Shop.customer = some (.ok (.bool true)) ∧
      sql.meaning? M env.dialect = some (.ok (.bool true)) := by
  intro env subqueries frame c number e sql M
  have he : ScalarBody c e :=
    .binary .and (.binary .notEqual (.constant _ rfl) (.member "Name" rfl))
      (.binary .equal
        (.conditional (.constant _ rfl) (.member "Id" rfl)
          (.binary .divide (.member "Id" rfl) (.constant _ rfl)))
        (.constant _ rfl))
  have hrow : env.schema.rowType "Customer" = .ok Shop.customer := rfl
  have hsource : frame.source = .table "Customer" "t" := rfl
  obtain ⟨p, sql', hread, hresolve, hmeaning⟩ :=
    Lambda.read_resolve_meaning hrow hsource subqueries .predicate he
  cases hread
  cases hresolve
  have hvalue : e.meaning? M Shop.customer = some (.ok (.bool true)) := rfl
  obtain ⟨v, hv, hsql⟩ := hmeaning M
  exact ⟨_, rfl, rfl, hvalue, hsql.trans (hv.symm.trans hvalue)⟩

end ChainQuery
