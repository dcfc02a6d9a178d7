import ChainQuery.Compile.Projection
/-!
# Binding columns

A scope knows how to bind a column: through the records that the projections of a statement build,
then against what the statement selects from, then in the enclosing scope (`Scope.ofSource`).
`Scalar.resolve` binds all columns of a scalar and gives its SQL.

How an aggregate over related rows becomes a selection is a parameter of both, so that this file need
not know how statements are compiled.
-/

namespace ChainQuery

/-! ## 1. What a statement selects from -/

/-- Where in a statement an expression stands.  In the select list the columns of a single table are
not qualified. -/
inductive Position where
  | selectList | predicate
  deriving Repr, DecidableEq

/-- A table joined on equal keys.  Its columns are qualified by the table. -/
structure JoinedTable where
  rowType : String
  table : String
  deriving Repr, DecidableEq

/-- A selection joined crosswise.  Its columns are qualified by its alias. -/
structure DerivedTable where
  row : Ty
  label : String
  /-- The output column of the selection for each member of its rows. -/
  exports : List (String × String)
  deriving Repr, DecidableEq

/-- What a statement selects from. -/
inductive Source where
  | table (rowType label : String)
  | join (left right : JoinedTable)
  | crossJoin (left right : DerivedTable)
  deriving Repr, DecidableEq

/-- A column of one side of an equi-join, if it has the row. -/
def JoinedTable.column? (schema : Schema) (owner : Ty) (member : String) (t : JoinedTable) :
    Except Error (Option Sql.Expr) :=
  if owner == .row t.rowType then do
    return some (.tableColumn t.table (← schema.columnName t.rowType member))
  else .ok none

/-- A column of one side of a cross join, if it has the row. -/
def DerivedTable.column? (owner : Ty) (member : String) (t : DerivedTable) : Option Sql.Expr :=
  if owner == t.row then some (.aliasedColumn t.label ((t.exports.lookup member).getD member))
  else none

/-- The column of a member of `owner`, if that is one of the rows of a source. -/
def Source.column? (schema : Schema) (owner : Ty) (member : String) (position : Position) :
    Source → Except Error (Option Sql.Expr)
  | .table rowType label =>
    if owner == .row rowType then do
      let name ← schema.columnName rowType member
      match position with
      | .selectList => return some (.bareColumn name)
      | .predicate => return some (.aliasedColumn label name)
    else .ok none
  | .join left right => do
    match ← left.column? schema owner member with
    | some column => return some column
    | none => right.column? schema owner member
  | .crossJoin left right => .ok ((left.column? owner member).or (right.column? owner member))

/-! ## 2. Scalars -/

/-- A scope: the depth of its statement, and how it binds a column. -/
structure Scope where
  depth : Nat
  column : ColumnToken → Position → Traced Sql.Expr

/-- How an aggregate over related rows becomes a selection, inside a scope. -/
abbrev Subqueries := Correlated → Scope → Traced Sql.Select

/-- A literal in a statement: everything but null becomes a parameter. -/
def Literal.toSql (value : Literal) : Except Error Sql.Expr :=
  match value with
  | .null => .ok .null
  | .bool b => .ok (.param (.bool b))
  | .int i => .ok (.param (.int i))
  | .float x => .ok (.param (.float x))
  | .string s => .ok (.param (.string s))
  | .list _ | .object _ => .error (.unsupportedNode (value.text ++ " (" ++ value.kind ++ " value)"))

/-- The token of a binary operator. -/
def BinaryOp.token (dialect : Dialect) : BinaryOp → String
  | and => "AND"
  | or => "OR"
  | equal => "="
  | notEqual => "<>"
  | lessThan => "<"
  | lessThanOrEqual => "<="
  | greaterThan => ">"
  | greaterThanOrEqual => ">="
  | add => "+"
  | subtract => "-"
  | multiply => "*"
  | divide => dialect.division.token
  | modulo => "%"

namespace Scalar

mutual
/-- **The SQL of a scalar in a scope.**  A comparison with null is a test for null. -/
def resolve (dialect : Dialect) (subqueries : Subqueries) (scope : Scope) (position : Position) :
    Scalar → Traced Sql.Expr
  | .column token => scope.column token position
  | .value v => v.toSql
  | .null => return .null
  | .binary op left right =>
    match op, left.isNull, right.isNull with
    | .equal, _, true => do
      return .isNull (← left.resolve dialect subqueries scope position)
    | .equal, true, false => do
      return .isNull (← right.resolve dialect subqueries scope position)
    | .notEqual, _, true => do
      return .isNotNull (← left.resolve dialect subqueries scope position)
    | .notEqual, true, false => do
      return .isNotNull (← right.resolve dialect subqueries scope position)
    | .and, _, _ => do
      return .and (← left.resolve dialect subqueries scope position)
        (← right.resolve dialect subqueries scope position)
    | .or, _, _ => do
      return .or (← left.resolve dialect subqueries scope position)
        (← right.resolve dialect subqueries scope position)
    | op, _, _ => do
      return .op (← left.resolve dialect subqueries scope position) (op.token dialect)
        (← right.resolve dialect subqueries scope position)
  | .not operand => do return .not (← operand.resolve dialect subqueries scope position)
  | .negate operand => do return .negate (← operand.resolve dialect subqueries scope position)
  | .function f args => do
    return .call f (← resolveList dialect subqueries scope position args)
  | .like subject pattern wildcards => do
    return .like (← subject.resolve dialect subqueries scope position)
      (← pattern.resolve dialect subqueries scope position) wildcards
  | .case test ifTrue ifFalse => do
    return .case (← test.resolve dialect subqueries scope position)
      (← ifTrue.resolve dialect subqueries scope position)
      (← ifFalse.resolve dialect subqueries scope position)
  | .subquery correlated => do return .subselect (← subqueries correlated scope)
  | .composite text => throw (.unsupportedNode text)

/-- The SQL of scalars, from left to right. -/
def resolveList (dialect : Dialect) (subqueries : Subqueries) (scope : Scope)
    (position : Position) : List Scalar → Traced (List Sql.Expr)
  | [] => return []
  | s :: rest => do
    return (← s.resolve dialect subqueries scope position)
      :: (← resolveList dialect subqueries scope position rest)
end

end Scalar

/-! ## 3. Scopes of statements -/

/-- What the columns of a statement are bound to: its source, the scope around it, its depth. -/
structure Frame where
  depth : Nat
  source : Source
  outer : Option Scope

namespace Frame

/-- Binds a column that no record of the statement has. -/
def bindToSource (env : Env) (frame : Frame) (token : ColumnToken) (position : Position) :
    Traced Sql.Expr := do
  match token.owner? with
  | none => throw (.unresolvedColumn token.member)
  | some owner =>
    match ← frame.source.column? env.schema owner token.member position with
    | some column => return column
    | none =>
      match frame.outer with
      | some outer => outer.column token .predicate
      | none => throw (.unresolvedColumn token.describe)

/-- Binds a column through layers of records, outermost first.  A member of a record is what it was
built from, which is written in terms of the records below. -/
def bindThrough (env : Env) (subqueries : Subqueries) (frame : Frame) :
    List Aliases → ColumnToken → Position → Traced Sql.Expr
  | [], token, position => frame.bindToSource env token position
  | layer :: below, token, position =>
    match token.owner?.bind fun owner => layer.lookup (owner, token.member) with
    | some target =>
      target.resolve env.dialect subqueries
        { depth := frame.depth, column := bindThrough env subqueries frame below } position
    | none => bindThrough env subqueries frame below token position

/-- The scope of a statement whose projections build the given layers of records. -/
def scope (env : Env) (subqueries : Subqueries) (frame : Frame) (layers : List Aliases) : Scope where
  depth := frame.depth
  column := frame.bindThrough env subqueries layers

end Frame

end ChainQuery
