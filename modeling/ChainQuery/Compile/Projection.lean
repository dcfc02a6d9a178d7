import ChainQuery.Compile.Navigation
/-!
# Reading lambdas

The body of a lambda becomes a scalar (`Expr.toScalar`).  On the way the columns and aggregates that
it reads are recorded, each once and in the order of reading, and so are the members of the records
that it builds.  A lambda with its body read is a `Projection`.
-/

namespace ChainQuery

/-! ## 1. What is recorded -/

/-- The columns and aggregates read so far, and the members of the records built so far. -/
structure Reading where
  columns : List Scalar := []
  aliases : Aliases := []

/-- A computation that records what it reads. -/
abbrev ReadM := StateT Reading Traced

namespace ReadM

/-- Records a column or an aggregate, unless it has been read before. -/
def record (s : Scalar) : ReadM Unit :=
  modify fun r => if r.columns.contains s then r else { r with columns := r.columns ++ [s] }

/-- Records a member of a record. -/
def recordMember (owner : Ty) (member : String) (s : Scalar) : ReadM Unit :=
  modify fun r => { r with aliases := Assoc.put (owner, member) s r.aliases }

end ReadM

/-- The property that a getter is named after. -/
def propertyName (name : String) : String :=
  match name.toList with
  | 'g' :: 'e' :: 't' :: '_' :: rest => String.ofList rest
  | _ => name

/-! ## 2. Expressions -/

namespace Expr

/-- A member access: a column if it is a scalar, else a composite.  `text` is its text. -/
def readMember (text : String) (object : Expr) (name : String) (type : Ty) : ReadM Scalar := do
  if object.type.isScalar then throw (.unsupportedNode text)
  match object.memberPath? with
  | none => throw (.unsupportedNode text)
  | some path =>
    Traced.meetAll path
    if type.isScalar then
      let column := Scalar.column { path, member := name }
      ReadM.record column
      return column
    else return .composite text

/-- A constant.  A record of constants reads no column. -/
def readConstant (value : Literal) (type : Ty) : Except Error Scalar :=
  match value with
  | .null => .ok .null
  | .object _ =>
    if type.isComposite then .ok (.composite value.text) else .error (.unsupportedNode value.text)
  | .list _ => .error (.unsupportedNode value.text)
  | value => .ok (.value value)

mutual
/-- **The scalar of an expression.** -/
def toScalar (env : Env) : Expr → ReadM Scalar
  | .binary op left right => do
    return .binary op (← left.toScalar env) (← right.toScalar env)
  | .unary .not operand => do return .not (← operand.toScalar env)
  | .unary .negate operand => do return .negate (← operand.toScalar env)
  | .unary (.convert target) operand =>
    -- conversions between scalars are left to the database
    if target.isScalar then operand.toScalar env
    else throw (.unsupportedConversion (Expr.unary (.convert target) operand).text target.text)
  | .member object name t => readMember (Expr.member object name t).text object name t
  | .constant value t => do readConstant value t
  | .parameter name _ => return .composite name
  | .new t members => do
    Traced.meet t
    readMembers env t members
    return .composite (Expr.new t members).text
  | .call (.string m) receiver args t =>
    let text := (Expr.call (.string m) receiver args t).text
    match receiver with
    | none => throw (.invalidArgument ("'" ++ text ++ "' is called without a string"))
    | some r => do
      let subject ← r.toScalar env
      match m, args with
      | .startsWith, [pattern] => return .like subject (← pattern.toScalar env) .trailing
      | .endsWith, [pattern] => return .like subject (← pattern.toScalar env) .leading
      | .contains, [pattern] => return .like subject (← pattern.toScalar env) .both
      | .substring, [start, length] =>
        return .function .substring [subject, ← start.toScalar env, ← length.toScalar env]
      | .toUpper, [] => return .function .upper [subject]
      | .toLower, [] => return .function .lower [subject]
      | _, args =>
        throw (.invalidArgument ("'" ++ text ++ "' is called with "
          ++ Decimal.digitText args.length ++ " arguments"))
  | .call (.aggregate a) receiver args t => do
    let text := (Expr.call (.aggregate a) receiver args t).text
    let subquery := Scalar.subquery (← Correlated.ofCall env.schema text a args)
    ReadM.record subquery
    return subquery
  | .call (.other declaringType name) _ _ _ =>
    throw (.unsupportedMethod (declaringType ++ "." ++ name))
  | .conditional test ifTrue ifFalse => do
    match ← test.toScalar env with
    | .value (.bool true) => ifTrue.toScalar env
    | .value (.bool false) => ifFalse.toScalar env
    | test => return .case test (← ifTrue.toScalar env) (← ifFalse.toScalar env)
  | .lambda params body => throw (.unsupportedNode (Expr.lambda params body).text)
  | .memberInit t bindings => throw (.unsupportedNode (Expr.memberInit t bindings).text)
  | .listInit t elements => throw (.unsupportedNode (Expr.listInit t elements).text)
  | .newArray t elements => throw (.unsupportedNode (Expr.newArray t elements).text)
  | .invoke target args t => throw (.unsupportedNode (Expr.invoke target args t).text)
  | .typeIs operand target => throw (.unsupportedNode (Expr.typeIs operand target).text)

/-- Reads the members of a record and records them under its type. -/
def readMembers (env : Env) (owner : Ty) : List (String × Expr) → ReadM Unit
  | [] => return ()
  | (name, e) :: rest => do
    let value ← e.toScalar env
    ReadM.recordMember owner (propertyName name) value
    readMembers env owner rest
end

end Expr

/-! ## 3. Lambdas -/

/-- A lambda with its body read. -/
structure Projection where
  /-- The type of the first parameter. -/
  parameterType : Ty
  returnType : Ty
  body : Scalar
  /-- The columns and aggregates that the body reads, each once, in the order of reading. -/
  columns : List Scalar
  /-- The members of the records that the body builds. -/
  aliases : Aliases

/-- **Reads a lambda** that must take `arity` parameters. -/
def Lambda.read (env : Env) (arity : Nat) (l : Lambda) : Traced Projection := do
  match l.params with
  | [] =>
    throw (.invalidArgument ("'" ++ l.text ++ "' takes no parameters, expected "
      ++ Decimal.digitText arity))
  | first :: _ =>
    if l.params.length != arity then
      throw (.invalidArgument ("'" ++ l.text ++ "' takes " ++ Decimal.digitText l.params.length
        ++ " parameters, expected " ++ Decimal.digitText arity))
    let (body, reading) ← (l.body.toScalar env).run {}
    return { parameterType := first.type, returnType := l.returnType, body
             columns := reading.columns, aliases := reading.aliases }

/-- The members of the record that a projection returns, if it builds one. -/
def Projection.recordMembers (p : Projection) : List (String × Scalar) :=
  (p.aliases.filter fun a => a.1.1 == p.returnType).map fun a => (a.1.2, a.2)

end ChainQuery
