import ChainQuery.Compile.Select
import ChainQuery.Proofs.Session.Basic
/-!
# The compiler of a session

The compiler with identifiers in the place of types: a column is known by the identifiers of the types
through which it is reached, the members of records are kept by the identifier of the record, and rows
are compared by their identifiers.  The types of parameters and results, which decide what is selected
by default, stay as they are.

Each definition has its counterpart in the compiler that knows types by themselves, mostly of the same
name.
-/

namespace ChainQuery.Session

open SessionM (identify identifyAll ofTraced)

/-! ## 1. Scalars -/

/-- A member that is reached from a parameter through the types with the identifiers of a path. -/
structure ColumnToken where
  path : List TypeId
  member : String
  deriving DecidableEq

/-- The identifier of the type that has the member. -/
def ColumnToken.owner? (c : ColumnToken) : Option TypeId := c.path.getLast?

/-- A column for a reader, by what the session knows of its identifiers. -/
def ColumnToken.describe (c : ColumnToken) : SessionM String := do
  return (← SessionM.table).describe (c.path.map UInt32.toNat) c.member

/-- An expression whose columns are not yet bound to tables. -/
inductive Scalar where
  | column (token : ColumnToken)
  | value (value : Literal)
  | null
  | binary (op : BinaryOp) (left right : Scalar)
  | not (operand : Scalar)
  | negate (operand : Scalar)
  | function (function : Sql.Function) (args : List Scalar)
  | like (subject pattern : Scalar) (wildcards : Sql.Wildcards)
  | case (test ifTrue ifFalse : Scalar)
  | subquery (correlated : Correlated)
  | composite (text : String)

namespace Scalar

/-- Whether a scalar is the null value itself. -/
def isNull : Scalar → Bool
  | .null => true
  | _ => false

mutual
/-- Whether two scalars are equal. -/
def beq : Scalar → Scalar → Bool
  | .column c, .column d => c == d
  | .value v, .value w => v == w
  | .null, .null => true
  | .binary o l r, .binary p m s => o == p && l.beq m && r.beq s
  | .not x, .not y => x.beq y
  | .negate x, .negate y => x.beq y
  | .function f xs, .function g ys => f == g && beqList xs ys
  | .like x p w, .like y q v => x.beq y && p.beq q && w == v
  | .case a b c, .case d e f => a.beq d && b.beq e && c.beq f
  | .subquery c, .subquery d => c == d
  | .composite s, .composite t => s == t
  | _, _ => false

/-- Whether two lists of scalars are equal. -/
def beqList : List Scalar → List Scalar → Bool
  | [], [] => true
  | x :: xs, y :: ys => x.beq y && beqList xs ys
  | _, _ => false
end

instance : BEq Scalar := ⟨beq⟩

end Scalar

/-- The members of the records that an expression builds, by the identifier of the record and the name
of the member. -/
abbrev Aliases := List ((TypeId × String) × Scalar)

/-! ## 2. Reading lambdas -/

/-- The columns and aggregates read so far, and the members of the records built so far. -/
structure Reading where
  columns : List Scalar := []
  aliases : Aliases := []

/-- A computation that records what it reads. -/
abbrev ReadM := StateT Reading SessionM

namespace ReadM

/-- Records a column or an aggregate, unless it has been read before. -/
def record (s : Scalar) : ReadM Unit :=
  modify fun r => if r.columns.contains s then r else { r with columns := r.columns ++ [s] }

/-- Records a member of a record. -/
def recordMember (owner : TypeId) (member : String) (s : Scalar) : ReadM Unit :=
  modify fun r => { r with aliases := Assoc.put (owner, member) s r.aliases }

end ReadM

/-- A member access: a column if it is a scalar, else a composite.  `text` is its text. -/
def readMember (text : String) (object : Expr) (name : String) (type : Ty) : ReadM Scalar := do
  if object.type.isScalar then throw (.unsupportedNode text)
  match object.memberPath? with
  | none => throw (.unsupportedNode text)
  | some types =>
    let path ← identifyAll types
    if type.isScalar then
      let column := Scalar.column { path, member := name }
      ReadM.record column
      return column
    else return .composite text

/-- A constant. -/
def readConstant (value : Literal) (type : Ty) : Except Error Scalar :=
  match value with
  | .null => .ok .null
  | .object _ =>
    if type.isComposite then .ok (.composite value.text) else .error (.unsupportedNode value.text)
  | .list _ => .error (.unsupportedNode value.text)
  | value => .ok (.value value)

mutual
/-- **The scalar of an expression.** -/
def toScalar (env : Env) : Expr → ReadM Scalar
  | .binary op left right => do
    return .binary op (← toScalar env left) (← toScalar env right)
  | .unary .not operand => do return .not (← toScalar env operand)
  | .unary .negate operand => do return .negate (← toScalar env operand)
  | .unary (.convert target) operand =>
    if target.isScalar then toScalar env operand
    else throw (.unsupportedConversion (Expr.unary (.convert target) operand).text target.text)
  | .member object name t => readMember (Expr.member object name t).text object name t
  | .constant value t => do readConstant value t
  | .parameter name _ => return .composite name
  | .new t members => do
    let owner ← identify t
    readMembers env owner members
    return .composite (Expr.new t members).text
  | .call (.string m) receiver args t =>
    let text := (Expr.call (.string m) receiver args t).text
    match receiver with
    | none => throw (.invalidArgument ("'" ++ text ++ "' is called without a string"))
    | some r => do
      let subject ← toScalar env r
      match m, args with
      | .startsWith, [pattern] => return .like subject (← toScalar env pattern) .trailing
      | .endsWith, [pattern] => return .like subject (← toScalar env pattern) .leading
      | .contains, [pattern] => return .like subject (← toScalar env pattern) .both
      | .substring, [start, length] =>
        return .function .substring [subject, ← toScalar env start, ← toScalar env length]
      | .toUpper, [] => return .function .upper [subject]
      | .toLower, [] => return .function .lower [subject]
      | _, args =>
        throw (.invalidArgument ("'" ++ text ++ "' is called with "
          ++ Decimal.digitText args.length ++ " arguments"))
  | .call (.aggregate a) receiver args t => do
    let text := (Expr.call (.aggregate a) receiver args t).text
    -- the types of the path are met, but the aggregate is known by its query
    let subquery := Scalar.subquery (← ofTraced (Correlated.ofCall env.schema text a args))
    ReadM.record subquery
    return subquery
  | .call (.other declaringType name) _ _ _ =>
    throw (.unsupportedMethod (declaringType ++ "." ++ name))
  | .conditional test ifTrue ifFalse => do
    match ← toScalar env test with
    | .value (.bool true) => toScalar env ifTrue
    | .value (.bool false) => toScalar env ifFalse
    | test => return .case test (← toScalar env ifTrue) (← toScalar env ifFalse)
  | .lambda params body => throw (.unsupportedNode (Expr.lambda params body).text)
  | .memberInit t bindings => throw (.unsupportedNode (Expr.memberInit t bindings).text)
  | .listInit t elements => throw (.unsupportedNode (Expr.listInit t elements).text)
  | .newArray t elements => throw (.unsupportedNode (Expr.newArray t elements).text)
  | .invoke target args t => throw (.unsupportedNode (Expr.invoke target args t).text)
  | .typeIs operand target => throw (.unsupportedNode (Expr.typeIs operand target).text)

/-- Reads the members of a record and records them under its identifier. -/
def readMembers (env : Env) (owner : TypeId) : List (String × Expr) → ReadM Unit
  | [] => return ()
  | (name, e) :: rest => do
    let value ← toScalar env e
    ReadM.recordMember owner (propertyName name) value
    readMembers env owner rest
end

/-- A lambda with its body read. -/
structure Projection where
  parameterType : Ty
  returnType : Ty
  body : Scalar
  columns : List Scalar
  aliases : Aliases

/-- **Reads a lambda** that must take `arity` parameters. -/
def read (env : Env) (arity : Nat) (l : Lambda) : SessionM Projection := do
  match l.params with
  | [] =>
    throw (.invalidArgument ("'" ++ l.text ++ "' takes no parameters, expected "
      ++ Decimal.digitText arity))
  | first :: _ =>
    if l.params.length != arity then
      throw (.invalidArgument ("'" ++ l.text ++ "' takes " ++ Decimal.digitText l.params.length
        ++ " parameters, expected " ++ Decimal.digitText arity))
    let (body, reading) ← (toScalar env l.body).run {}
    return { parameterType := first.type, returnType := l.returnType, body
             columns := reading.columns, aliases := reading.aliases }

/-! ## 3. Statements -/

/-- The projection of a statement, and the identifier of what it returns. -/
structure Selector extends Projection where
  record : TypeId

/-- The members of the record that a projection returns, if it builds one. -/
def Selector.recordMembers (p : Selector) : List (String × Scalar) :=
  (p.aliases.filter fun a => a.1.1 == p.record).map fun a => (a.1.2, a.2)

/-- A key by which rows are ordered. -/
structure SortKey where
  key : Scalar
  direction : Sql.Direction

/-- An ordering operator: what its key ranges over, and the key. -/
structure OrderingClause where
  parameterType : Ty
  sortKey : SortKey

/-- The clauses of a chain of operators. -/
structure Clauses where
  select : Option Selector := none
  filter : Option Projection := none
  orderings : List OrderingClause := []
  unsupported : List String := []

/-- Reads the key of an ordering. -/
def readOrdering (env : Env) (key : Lambda) (kind : OrderingKind) : SessionM OrderingClause := do
  let p ← read env 1 key
  return { parameterType := p.parameterType
           sortKey := { key := p.body, direction := if kind.isDescending then .desc else .asc } }

/-- Refuses the operator nearest the table that no clause stands for. -/
def Clauses.check (clauses : Clauses) : SessionM Unit :=
  match clauses.unsupported with
  | [] => return ()
  | operator :: _ => throw (.unsupportedMethod operator)

/-- A table joined on equal keys, with the identifier of its rows. -/
structure JoinedTable where
  row : TypeId
  rowType : String
  table : String

/-- A table under orderings, as one side of an equi-join. -/
def toJoinedTable (env : Env) : Query → Clauses → SessionM (JoinedTable × List SortKey)
  | .table rowType, clauses => do
    if rowType.isEmpty then throw (.invalidArgument "a table must name its row type")
    let info ← env.schema.rowType rowType
    clauses.check
    let row ← identify (.row rowType)
    return ({ row, rowType, table := info.table }, clauses.orderings.map OrderingClause.sortKey)
  | .orderBy source key kind, clauses => do
    if key.isGrouped then
      toJoinedTable env source
        { clauses with
          unsupported := (Query.orderBy source key kind).operatorText :: clauses.unsupported }
    else
      let ordering ← readOrdering env key kind
      toJoinedTable env source { clauses with orderings := ordering :: clauses.orderings }
  | .join outer inner outerKey innerKey result, _ =>
    throw (.duplicateClause .join (Query.join outer inner outerKey innerKey result).text)
  | .crossJoin source collection result, _ =>
    throw (.duplicateClause .join (Query.crossJoin source collection result).text)
  | q, _ => throw (.unsupportedMethod (q.operatorText ++ " in a join source"))

/-- The clauses of a chain, and what it ends in. -/
inductive Statement where
  | table (clauses : Clauses) (rowType : String)
  | join (clauses : Clauses) (left right : JoinedTable) (outerKey innerKey : Scalar)
      (result : Projection) (lifted : List SortKey)
  | crossJoin (clauses : Clauses) (left right : Statement) (leftRow rightRow : TypeId)
      (result : Projection)

namespace Statement

/-- The clauses of a statement. -/
def clauses : Statement → Clauses
  | .table clauses _ => clauses
  | .join clauses .. => clauses
  | .crossJoin clauses .. => clauses

/-- A statement, unless some operator of its chain has no clause. -/
def checked (s : Statement) : SessionM Statement := do
  s.clauses.check
  return s

end Statement

/-- Gathers the clauses of a chain.  Joins of rows with themselves are found out by identifiers. -/
def gather (env : Env) : Query → Clauses → SessionM Statement
  | .table rowType, clauses => do
    if rowType.isEmpty then throw (.invalidArgument "a table must name its row type")
    let _ ← env.schema.rowType rowType
    return .table clauses rowType
  | .select source selector, clauses => do
    if selector.isGrouped then
      gather env source
        { clauses with
          unsupported := (Query.select source selector).operatorText :: clauses.unsupported }
    else if clauses.select.isSome then throw (.duplicateClause .select selector.text)
    else
      let p ← read env 1 selector
      let record ← identify p.returnType
      gather env source { clauses with select := some { p with record } }
  | .filter source predicate, clauses => do
    if predicate.isGrouped then
      gather env source
        { clauses with
          unsupported := (Query.filter source predicate).operatorText :: clauses.unsupported }
    else if clauses.filter.isSome then throw (.duplicateClause .filter predicate.text)
    else
      let p ← read env 1 predicate
      gather env source { clauses with filter := some p }
  | .orderBy source key kind, clauses => do
    if key.isGrouped then
      gather env source
        { clauses with
          unsupported := (Query.orderBy source key kind).operatorText :: clauses.unsupported }
    else
      let ordering ← readOrdering env key kind
      gather env source { clauses with orderings := ordering :: clauses.orderings }
  | .join outer inner outerKey innerKey result, clauses => do
    let outerKey ← read env 1 outerKey
    let innerKey ← read env 1 innerKey
    let result ← read env 2 result
    let (left, leftKeys) ← toJoinedTable env outer {}
    let (right, rightKeys) ← toJoinedTable env inner {}
    if left.row == right.row then
      throw (.unsupportedMethod ("a join of '" ++ left.rowType ++ "' with itself"))
    return .join clauses left right outerKey.body innerKey.body result (leftKeys ++ rightKeys)
  | .crossJoin source collection result, clauses => do
    let p ← read env 2 result
    let leftRow ← identify result.rowTypes.1
    let rightRow ← identify result.rowTypes.2
    if leftRow == rightRow then
      throw (.unsupportedMethod ("a cross join of '" ++ result.rowTypes.1.text ++ "' with itself"))
    let left ← (← gather env source {}).checked
    let right ← (← gather env collection {}).checked
    return .crossJoin clauses left right leftRow rightRow p
  | .call method source args, clauses =>
    gather env source
      { clauses with
        unsupported := (Query.call method source args).operatorText :: clauses.unsupported }

/-- **The statement of a query.** -/
def toStatement (env : Env) (q : Query) : SessionM Statement := do
  (← gather env q {}).checked

/-! ## 4. Binding columns -/

/-- A selection joined crosswise, with the identifier of its rows. -/
structure DerivedTable where
  row : TypeId
  label : String
  exports : List (String × String)

/-- What a statement selects from. -/
inductive Source where
  | table (row : TypeId) (rowType label : String)
  | join (left right : JoinedTable)
  | crossJoin (left right : DerivedTable)

/-- A column of one side of an equi-join, if it has the row. -/
def JoinedTable.column? (schema : Schema) (owner : TypeId) (member : String) (t : JoinedTable) :
    Except Error (Option Sql.Expr) :=
  if owner == t.row then do
    return some (.tableColumn t.table (← schema.columnName t.rowType member))
  else .ok none

/-- A column of one side of a cross join, if it has the row. -/
def DerivedTable.column? (owner : TypeId) (member : String) (t : DerivedTable) : Option Sql.Expr :=
  if owner == t.row then some (.aliasedColumn t.label ((t.exports.lookup member).getD member))
  else none

/-- The column of a member of the type with the identifier `owner`, if it is of a row of the source. -/
def Source.column? (schema : Schema) (owner : TypeId) (member : String) (position : Position) :
    Source → Except Error (Option Sql.Expr)
  | .table row rowType label =>
    if owner == row then do
      let name ← schema.columnName rowType member
      match position with
      | .selectList => return some (.bareColumn name)
      | .predicate => return some (.aliasedColumn label name)
    else .ok none
  | .join left right => do
    match ← left.column? schema owner member with
    | some column => return some column
    | none => right.column? schema owner member
  | .crossJoin left right => .ok ((left.column? owner member).or (right.column? owner member))

/-- A scope: the depth of its statement, and how it binds a column. -/
structure Scope where
  depth : Nat
  column : ColumnToken → Position → SessionM Sql.Expr

/-- How an aggregate over related rows becomes a selection, inside a scope. -/
abbrev Subqueries := Correlated → Scope → SessionM Sql.Select

namespace Scalar

mutual
/-- **The SQL of a scalar in a scope.** -/
def resolve (dialect : Dialect) (subqueries : Subqueries) (scope : Scope) (position : Position) :
    Scalar → SessionM Sql.Expr
  | .column token => scope.column token position
  | .value v => v.toSql
  | .null => return .null
  | .binary op left right =>
    match op, left.isNull, right.isNull with
    | .equal, _, true => do
      return .isNull (← left.resolve dialect subqueries scope position)
    | .equal, true, false => do
      return .isNull (← right.resolve dialect subqueries scope position)
    | .notEqual, _, true => do
      return .isNotNull (← left.resolve dialect subqueries scope position)
    | .notEqual, true, false => do
      return .isNotNull (← right.resolve dialect subqueries scope position)
    | .and, _, _ => do
      return .and (← left.resolve dialect subqueries scope position)
        (← right.resolve dialect subqueries scope position)
    | .or, _, _ => do
      return .or (← left.resolve dialect subqueries scope position)
        (← right.resolve dialect subqueries scope position)
    | op, _, _ => do
      return .op (← left.resolve dialect subqueries scope position) (op.token dialect)
        (← right.resolve dialect subqueries scope position)
  | .not operand => do return .not (← operand.resolve dialect subqueries scope position)
  | .negate operand => do return .negate (← operand.resolve dialect subqueries scope position)
  | .function f args => do
    return .call f (← resolveList dialect subqueries scope position args)
  | .like subject pattern wildcards => do
    return .like (← subject.resolve dialect subqueries scope position)
      (← pattern.resolve dialect subqueries scope position) wildcards
  | .case test ifTrue ifFalse => do
    return .case (← test.resolve dialect subqueries scope position)
      (← ifTrue.resolve dialect subqueries scope position)
      (← ifFalse.resolve dialect subqueries scope position)
  | .subquery correlated => do return .subselect (← subqueries correlated scope)
  | .composite text => throw (.unsupportedNode text)

/-- The SQL of scalars, from left to right. -/
def resolveList (dialect : Dialect) (subqueries : Subqueries) (scope : Scope)
    (position : Position) : List Scalar → SessionM (List Sql.Expr)
  | [] => return []
  | s :: rest => do
    return (← s.resolve dialect subqueries scope position)
      :: (← resolveList dialect subqueries scope position rest)
end

end Scalar

/-- What the columns of a statement are bound to: its source, the scope around it, its depth. -/
structure Frame where
  depth : Nat
  source : Source
  outer : Option Scope

namespace Frame

/-- Binds a column that no record of the statement has. -/
def bindToSource (env : Env) (frame : Frame) (token : ColumnToken) (position : Position) :
    SessionM Sql.Expr := do
  match token.owner? with
  | none => throw (.unresolvedColumn token.member)
  | some owner =>
    match ← frame.source.column? env.schema owner token.member position with
    | some column => return column
    | none =>
      match frame.outer with
      | some outer => outer.column token .predicate
      | none => throw (.unresolvedColumn (← token.describe))

/-- Binds a column through layers of records, outermost first. -/
def bindThrough (env : Env) (subqueries : Subqueries) (frame : Frame) :
    List Aliases → ColumnToken → Position → SessionM Sql.Expr
  | [], token, position => frame.bindToSource env token position
  | layer :: below, token, position =>
    match token.owner?.bind fun owner => layer.lookup (owner, token.member) with
    | some target =>
      target.resolve env.dialect subqueries
        { depth := frame.depth, column := bindThrough env subqueries frame below } position
    | none => bindThrough env subqueries frame below token position

/-- The scope of a statement whose projections build the given layers of records. -/
def scope (env : Env) (subqueries : Subqueries) (frame : Frame) (layers : List Aliases) : Scope where
  depth := frame.depth
  column := frame.bindThrough env subqueries layers

end Frame

/-! ## 5. Selections -/

namespace Statement

/-- The result selector of a join. -/
def result? : Statement → Option Projection
  | .table .. => none
  | .join _ _ _ _ _ result _ => some result
  | .crossJoin _ _ _ _ _ result => some result

/-- The row type of a statement over a table. -/
def rowType? : Statement → Option String
  | .table _ rowType => some rowType
  | _ => none

/-- A statement for a reader. -/
def describe (s : Statement) : String :=
  match s.rowType? with
  | some rowType => "Table<" ++ rowType ++ ">"
  | none => "a join"

/-- The projection of a statement, else that of its join. -/
def projection? (s : Statement) : Option Projection :=
  (s.clauses.select.map Selector.toProjection) <|> s.result?

/-- The records that a statement builds, outermost first: those of its projection and those of its
join. -/
def layers (s : Statement) : List Aliases :=
  ((s.clauses.select.map Selector.toProjection).toList ++ s.result?.toList).map Projection.aliases

/-- The members selected under their names, if the role asks for them and there are any. -/
def exportedMembers? (s : Statement) (role : Role) : Option (List (String × Scalar)) := do
  if !role.exportsMembers then none
  let members := (← s.clauses.select).recordMembers
  if members.isEmpty then none else some members

/-- The type of the rows of a statement, as far as its clauses tell. -/
def projectionType? (s : Statement) (role : Role) : Option Ty :=
  (s.projection?.map Projection.returnType)
    <|> (s.clauses.filter.map Projection.parameterType)
    <|> (s.clauses.orderings.getLast?.map OrderingClause.parameterType)
    <|> (match role with
      | .root => none
      | _ => s.rowType?.map Ty.row)

/-- The output columns of a side of a cross join, by member. -/
def exports (schema : Schema) (s : Statement) : Except Error (List (String × String)) :=
  match s.exportedMembers? .crossJoinSource with
  | some members => .ok (members.map fun (member, _) => (member, member))
  | none =>
    match s.projectionType? .crossJoinSource with
    | some (.row name) => do
      return (← schema.rowType name).columns.map fun (member, column) => (member, column.name)
    | _ => .ok []

end Statement

/-- What the parts of a selection have in common: the environment, how aggregates are compiled, and
the scope. -/
structure Binder where
  env : Env
  subqueries : Subqueries
  scope : Scope

/-- The SQL of a scalar. -/
def Binder.resolve (b : Binder) (position : Position) (s : Scalar) : SessionM Sql.Expr :=
  s.resolve b.env.dialect b.subqueries b.scope position

/-- The select list of an aggregate. -/
def Statement.aggregateList (b : Binder) (aggregate : Aggregate) (s : Statement) :
    SessionM Sql.SelectList := do
  match aggregate, s.clauses.select with
  | .count, _ => return .plain [.countAll]
  | aggregate, some p =>
    return .plain [aggregate.toSql (← b.resolve .selectList p.body)]
  | _, none => throw (.unresolvableProjection s.describe)

/-- The select list of a statement that is no aggregate. -/
def Statement.rowList (b : Binder) (role : Role) (s : Statement) : SessionM Sql.SelectList := do
  match s.exportedMembers? role with
  | some members =>
    return .aliased (← members.mapM fun (member, value) => do
      return (member, ← b.resolve .selectList value))
  | none =>
    match (s.projection?.map Projection.columns).getD [] with
    | [] =>
      match s.projectionType? role with
      | some t => return .plain ((← defaultColumns b.env.schema t).map Sql.Expr.bareColumn)
      | none => throw (.unresolvableProjection s.describe)
    | columns => return .plain (← columns.mapM (b.resolve .selectList))

/-- **The select list of a statement.** -/
def Statement.selectList (b : Binder) (role : Role) (s : Statement) : SessionM Sql.SelectList :=
  match role with
  | .correlated aggregate => s.aggregateList b aggregate
  | role => s.rowList b role

/-- The filter of a statement. -/
def Clauses.filterExpr (b : Binder) (clauses : Clauses) : SessionM Sql.Expr :=
  match clauses.filter with
  | some p => b.resolve .predicate p.body
  | none => return .always

/-- The keys of an ordering clause. -/
def SortKey.toSql (b : Binder) (k : SortKey) : SessionM (Sql.Expr × Sql.Direction) := do
  return (← b.resolve .predicate k.key, k.direction)

/-- A key restated for the statement around: the member of the record whose value it is, if there is
one. -/
def SortKey.lift (p : Selector) (k : SortKey) : SortKey :=
  match p.recordMembers.find? fun m => m.2 == k.key with
  | some (member, _) => { k with key := .column { path := [p.record], member } }
  | none => k

/-- The keys that a statement orders by, and those that it leaves to the statement around. -/
def Clauses.order (b : Binder) (role : Role) (clauses : Clauses) (keys : List SortKey) :
    SessionM (List (Sql.Expr × Sql.Direction) × List SortKey) := do
  match role with
  | .root => return (← keys.mapM (SortKey.toSql b), [])
  | .crossJoinSource =>
    match clauses.select with
    | some p => return ([], keys.map (SortKey.lift p))
    | none => return ([], keys)
  | .correlated _ | .correlatedPairs => return ([], [])

/-- What a statement selects from, ready to be put into a selection. -/
structure Ground where
  source : Source
  clause : Sql.From
  joins : Binder → SessionM (List Sql.Join)
  lifted : List SortKey

/-- The selection of a statement over its ground. -/
def Statement.assemble (env : Env) (subqueries : Subqueries) (outer : Option Scope) (role : Role)
    (depth : Nat) (s : Statement) (ground : Ground) : SessionM (Sql.Select × List SortKey) := do
  let frame : Frame := { depth, source := ground.source, outer }
  let b : Binder := { env, subqueries, scope := frame.scope env subqueries s.layers }
  let joins ← ground.joins b
  let list ← s.selectList b role
  let filter ← s.clauses.filterExpr b
  let own := s.clauses.orderings.map OrderingClause.sortKey
  let (orderBy, lifted) ← s.clauses.order b role (ground.lifted ++ own)
  return ({ list, source := some ground.clause, joins, filter, orderBy }, lifted)

/-- The ground of a statement over a table. -/
def Ground.table (env : Env) (depth : Nat) (rowType : String) : SessionM Ground := do
  let info ← env.schema.rowType rowType
  let row ← identify (.row rowType)
  let label := Sql.depthAlias depth
  return { source := .table row rowType label, clause := .table (.table info.table) (some label)
           joins := fun _ => return [], lifted := [] }

/-- The ground of an equi-join. -/
def Ground.join (left right : JoinedTable) (outerKey innerKey : Scalar) (lifted : List SortKey) :
    Ground where
  source := .join left right
  clause := .table (.table left.table) none
  joins b := do
    let leftKey ← b.resolve .predicate outerKey
    let rightKey ← b.resolve .predicate innerKey
    return [.inner (.table right.table) leftKey rightKey]
  lifted := lifted

/-- The ground of a cross join of two selections. -/
def Ground.crossJoin (left right : DerivedTable) (leftSelect rightSelect : Sql.Select)
    (lifted : List SortKey) : Ground where
  source := .crossJoin left right
  clause := .derived leftSelect left.label
  joins _ := return [.cross rightSelect right.label]
  lifted := lifted

/-- **The selection of a statement**, and the orderings that it leaves to the statement around. -/
def Statement.toSelect (env : Env) (subqueries : Subqueries) (outer : Option Scope) :
    Statement → Role → Nat → SessionM (Sql.Select × List SortKey)
  | .table clauses rowType, role, depth => do
    let ground ← Ground.table env depth rowType
    (Statement.table clauses rowType).assemble env subqueries outer role depth ground
  | .join clauses left right outerKey innerKey result lifted, role, depth =>
    (Statement.join clauses left right outerKey innerKey result lifted).assemble env subqueries
      outer role depth (.join left right outerKey innerKey lifted)
  | .crossJoin clauses left right leftRow rightRow result, role, depth => do
    let (leftSelect, leftKeys) ← left.toSelect env subqueries outer .crossJoinSource (depth + 1)
    let (rightSelect, rightKeys) ← right.toSelect env subqueries outer .crossJoinSource (depth + 1)
    let leftTable : DerivedTable :=
      { row := leftRow, label := "leftStatement", exports := ← left.exports env.schema }
    let rightTable : DerivedTable :=
      { row := rightRow, label := "rightStatement", exports := ← right.exports env.schema }
    (Statement.crossJoin clauses left right leftRow rightRow result).assemble env subqueries outer
      role depth (.crossJoin leftTable rightTable leftSelect rightSelect (leftKeys ++ rightKeys))

/-- The selection of an aggregate inside a scope, down to the given level of nesting. -/
def subselect (env : Env) : Nat → Subqueries
  | 0, c, _ => throw (.unsupportedMethod c.query.text)
  | levels + 1, c, outer => do
    let statement ← toStatement env c.query
    let depth := outer.depth + 1
    if c.nested then
      let (pairs, _) ← statement.toSelect env (subselect env levels) (some outer) .correlatedPairs
        (depth + 1)
      return .fromDerived [c.aggregate.toSql (.bareColumn "Value")] pairs (Sql.depthAlias depth)
    else
      let (select, _) ← statement.toSelect env (subselect env levels) (some outer)
        (.correlated c.aggregate) depth
      return select

/-- **The selection of a query.** -/
def toSelect (env : Env) (q : Query) : SessionM Sql.Select := do
  let statement ← toStatement env q
  let (selection, _) ← statement.toSelect env (subselect env q.aggregateDepth) none .root 0
  return selection

end ChainQuery.Session
