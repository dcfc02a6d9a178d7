import ChainQuery.Compile.Statement
/-!
# Selections

A statement becomes a selection (`Statement.toSelect`): what it selects from, the select list, the
filter, and the orderings.  Only the outermost statement orders its rows; a side of a cross join hands
its orderings to the statement around it, and an aggregate has no use for them.

An aggregate over related rows is compiled when the scalar that holds it is bound, in the scope where
it stands (`Correlated.toSelect`).
-/

namespace ChainQuery

/-! ## 1. What a statement is for -/

/-- What a statement is compiled for. -/
inductive Role where
  /-- The outermost query. -/
  | root
  /-- A side of a cross join, selected from by the statement around it. -/
  | crossJoinSource
  /-- The rows that an aggregate is computed over. -/
  | correlated (aggregate : Aggregate)
  /-- The pairs that an aggregate of aggregates is computed over. -/
  | correlatedPairs
  deriving Repr, DecidableEq

/-- Whether the members of the record that a statement returns are selected under their names. -/
def Role.exportsMembers : Role → Bool
  | crossJoinSource | correlatedPairs => true
  | root | correlated _ => false

/-- An aggregate applied to an argument.  A count ignores it. -/
def Aggregate.toSql (argument : Sql.Expr) : Aggregate → Sql.Expr
  | count => .countAll
  | sum => .call .sum [argument]
  | min => .call .min [argument]
  | max => .call .max [argument]
  | average => .call .avg [argument]

/-! ## 2. The rows of a statement -/

namespace Statement

/-- The result selector of a join. -/
def result? : Statement → Option Projection
  | .table .. => none
  | .join _ _ _ _ _ result _ => some result
  | .crossJoin _ _ _ _ _ result => some result

/-- The row type of a statement over a table. -/
def rowType? : Statement → Option String
  | .table _ rowType => some rowType
  | _ => none

/-- A statement for a reader. -/
def describe (s : Statement) : String :=
  match s.rowType? with
  | some rowType => "Table<" ++ rowType ++ ">"
  | none => "a join"

/-- The records that a statement builds, outermost first: those of its projection and those of its
join. -/
def layers (s : Statement) : List Aliases :=
  (s.clauses.select.toList ++ s.result?.toList).map Projection.aliases

/-- The members selected under their names, if the role asks for them and there are any. -/
def exportedMembers? (s : Statement) (role : Role) : Option (List (String × Scalar)) := do
  if !role.exportsMembers then none
  let members := (← s.clauses.select).recordMembers
  if members.isEmpty then none else some members

/-- The type of the rows of a statement, as far as its clauses tell.  The outermost statement does
not fall back on its table. -/
def projectionType? (s : Statement) (role : Role) : Option Ty :=
  (s.clauses.select.map Projection.returnType)
    <|> (s.result?.map Projection.returnType)
    <|> (s.clauses.filter.map Projection.parameterType)
    <|> (s.clauses.orderings.getLast?.map OrderingClause.parameterType)
    <|> (match role with
      | .root => none
      | _ => s.rowType?.map Ty.row)

end Statement

/-- The columns selected when a projection reads none: every column of a row type in order, or the
scalar fields of a record sorted by name. -/
def defaultColumns (schema : Schema) (t : Ty) : Except Error (List String) := do
  let names ← match t with
    | .row name => do pure ((← schema.rowType name).columns.map fun (_, column) => column.name)
    | .record _ fields =>
      pure (((fields.filter fun (_, t) => t.isScalar).map fun (name, _) => propertyName name).mergeSort
        fun a b => !decide (b < a))
    | _ => pure []
  if names.isEmpty then throw (.unresolvableProjection t.text) else return names

/-- The output columns of a side of a cross join, by member. -/
def Statement.exports (schema : Schema) (s : Statement) : Except Error (List (String × String)) :=
  match s.exportedMembers? .crossJoinSource with
  | some members => .ok (members.map fun (member, _) => (member, member))
  | none =>
    match s.projectionType? .crossJoinSource with
    | some (.row name) => do
      return (← schema.rowType name).columns.map fun (member, column) => (member, column.name)
    | _ => .ok []

/-! ## 3. The parts of a selection -/

/-- What the parts of a selection have in common: the environment, how aggregates are compiled, and
the scope. -/
structure Binder where
  env : Env
  subqueries : Subqueries
  scope : Scope

/-- The SQL of a scalar. -/
def Binder.resolve (b : Binder) (position : Position) (s : Scalar) : Traced Sql.Expr :=
  s.resolve b.env.dialect b.subqueries b.scope position

/-- The select list of an aggregate. -/
def Statement.aggregateList (b : Binder) (aggregate : Aggregate) (s : Statement) :
    Traced Sql.SelectList := do
  match aggregate, s.clauses.select with
  | .count, _ => return .plain [.countAll]
  | aggregate, some p =>
    return .plain [aggregate.toSql (← b.resolve .selectList p.body)]
  | _, none => throw (.unresolvableProjection s.describe)

/-- The select list of a statement that is no aggregate: the members of a record under their names,
or the columns that the projection reads, or all columns of the rows. -/
def Statement.rowList (b : Binder) (role : Role) (s : Statement) : Traced Sql.SelectList := do
  match s.exportedMembers? role with
  | some members =>
    return .aliased (← members.mapM fun (member, value) => do
      return (member, ← b.resolve .selectList value))
  | none =>
    match ((s.clauses.select <|> s.result?).map Projection.columns).getD [] with
    | [] =>
      match s.projectionType? role with
      | some t => return .plain ((← defaultColumns b.env.schema t).map Sql.Expr.bareColumn)
      | none => throw (.unresolvableProjection s.describe)
    | columns => return .plain (← columns.mapM (b.resolve .selectList))

/-- **The select list of a statement.** -/
def Statement.selectList (b : Binder) (role : Role) (s : Statement) : Traced Sql.SelectList :=
  match role with
  | .correlated aggregate => s.aggregateList b aggregate
  | role => s.rowList b role

/-- The filter of a statement. -/
def Clauses.filterExpr (b : Binder) (clauses : Clauses) : Traced Sql.Expr :=
  match clauses.filter with
  | some p => b.resolve .predicate p.body
  | none => return .always

/-- The keys of an ordering clause. -/
def SortKey.toSql (b : Binder) (k : SortKey) : Traced (Sql.Expr × Sql.Direction) := do
  return (← b.resolve .predicate k.key, k.direction)

/-- A key restated for the statement around: the member of the record whose value it is, if there is
one. -/
def SortKey.lift (p : Projection) (k : SortKey) : SortKey :=
  match p.recordMembers.find? fun m => m.2 == k.key with
  | some (member, _) => { k with key := .column { path := [p.returnType], member } }
  | none => k

/-- The keys that a statement orders by, and those that it leaves to the statement around. -/
def Clauses.order (b : Binder) (role : Role) (clauses : Clauses) (keys : List SortKey) :
    Traced (List (Sql.Expr × Sql.Direction) × List SortKey) := do
  match role with
  | .root => return (← keys.mapM (SortKey.toSql b), [])
  | .crossJoinSource =>
    match clauses.select with
    | some p => return ([], keys.map (SortKey.lift p))
    | none => return ([], keys)
  | .correlated _ | .correlatedPairs => return ([], [])

/-! ## 4. Selections -/

/-- What a statement selects from, ready to be put into a selection. -/
structure Ground where
  source : Source
  clause : Sql.From
  /-- The joins, once the scope is known. -/
  joins : Binder → Traced (List Sql.Join)
  /-- The orderings of the sources. -/
  lifted : List SortKey

/-- The selection of a statement over its ground. -/
def Statement.assemble (env : Env) (subqueries : Subqueries) (outer : Option Scope) (role : Role)
    (depth : Nat) (s : Statement) (ground : Ground) : Traced (Sql.Select × List SortKey) := do
  let frame : Frame := { depth, source := ground.source, outer }
  let b : Binder := { env, subqueries, scope := frame.scope env subqueries s.layers }
  let joins ← ground.joins b
  let list ← s.selectList b role
  let filter ← s.clauses.filterExpr b
  let own := s.clauses.orderings.map OrderingClause.sortKey
  let (orderBy, lifted) ← s.clauses.order b role (ground.lifted ++ own)
  return ({ list, source := some ground.clause, joins, filter, orderBy }, lifted)

/-- The ground of a statement over a table. -/
def Ground.table (env : Env) (depth : Nat) (rowType : String) : Traced Ground := do
  let info ← env.schema.rowType rowType
  Traced.meet (.row rowType)
  let label := Sql.depthAlias depth
  return { source := .table rowType label, clause := .table (.table info.table) (some label)
           joins := fun _ => return [], lifted := [] }

/-- The ground of an equi-join. -/
def Ground.join (left right : JoinedTable) (outerKey innerKey : Scalar) (lifted : List SortKey) :
    Ground where
  source := .join left right
  clause := .table (.table left.table) none
  joins b := do
    let leftKey ← b.resolve .predicate outerKey
    let rightKey ← b.resolve .predicate innerKey
    return [.inner (.table right.table) leftKey rightKey]
  lifted := lifted

/-- The ground of a cross join of two selections. -/
def Ground.crossJoin (left right : DerivedTable) (leftSelect rightSelect : Sql.Select)
    (lifted : List SortKey) : Ground where
  source := .crossJoin left right
  clause := .derived leftSelect left.label
  joins _ := return [.cross rightSelect right.label]
  lifted := lifted

/-- **The selection of a statement**, and the orderings that it leaves to the statement around. -/
def Statement.toSelect (env : Env) (subqueries : Subqueries) (outer : Option Scope) :
    Statement → Role → Nat → Traced (Sql.Select × List SortKey)
  | .table clauses rowType, role, depth => do
    let ground ← Ground.table env depth rowType
    (Statement.table clauses rowType).assemble env subqueries outer role depth ground
  | .join clauses left right outerKey innerKey result lifted, role, depth =>
    (Statement.join clauses left right outerKey innerKey result lifted).assemble env subqueries
      outer role depth (.join left right outerKey innerKey lifted)
  | .crossJoin clauses left right leftRow rightRow result, role, depth => do
    let (leftSelect, leftKeys) ← left.toSelect env subqueries outer .crossJoinSource (depth + 1)
    let (rightSelect, rightKeys) ← right.toSelect env subqueries outer .crossJoinSource (depth + 1)
    let leftTable : DerivedTable :=
      { row := leftRow, label := "leftStatement", exports := ← left.exports env.schema }
    let rightTable : DerivedTable :=
      { row := rightRow, label := "rightStatement", exports := ← right.exports env.schema }
    (Statement.crossJoin clauses left right leftRow rightRow result).assemble env subqueries outer
      role depth (.crossJoin leftTable rightTable leftSelect rightSelect (leftKeys ++ rightKeys))

/-! ## 5. Aggregates and queries -/

/-- The selection of an aggregate inside a scope.  `levels` bounds how deep aggregates are nested in
it; the bound of the query that it comes from is always enough. -/
def Correlated.toSelect (env : Env) : Nat → Subqueries
  | 0, c, _ => throw (.unsupportedMethod c.query.text)
  | levels + 1, c, outer => do
    let statement ← c.query.toStatement env
    let depth := outer.depth + 1
    if c.nested then
      let (pairs, _) ← statement.toSelect env (Correlated.toSelect env levels) (some outer)
        .correlatedPairs (depth + 1)
      return .fromDerived [c.aggregate.toSql (.bareColumn "Value")] pairs (Sql.depthAlias depth)
    else
      let (select, _) ← statement.toSelect env (Correlated.toSelect env levels) (some outer)
        (.correlated c.aggregate) depth
      return select

/-- **The selection of a query.** -/
def Query.toSelect (env : Env) (q : Query) : Traced Sql.Select := do
  let statement ← q.toStatement env
  let (selection, _) ← statement.toSelect env (Correlated.toSelect env q.aggregateDepth) none .root 0
  return selection

end ChainQuery
