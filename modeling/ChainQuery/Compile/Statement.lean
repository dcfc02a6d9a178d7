import ChainQuery.Compile.Scope
/-!
# Statements

A statement holds the clauses of one chain of operators, gathered from the outermost operator down to
the table or join that the chain ends in.  An operator that no clause stands for is noted on the way
and refused at the end.
-/

namespace ChainQuery

/-! ## 1. Clauses -/

/-- A key by which rows are ordered. -/
structure SortKey where
  key : Scalar
  direction : Sql.Direction

/-- An ordering operator: what its key ranges over, and the key. -/
structure OrderingClause where
  parameterType : Ty
  sortKey : SortKey

/-- The clauses of a chain of operators. -/
structure Clauses where
  select : Option Projection := none
  filter : Option Projection := none
  /-- The orderings in the order in which they apply, that is from the table outwards. -/
  orderings : List OrderingClause := []
  /-- The operators that no clause stands for, from the table outwards. -/
  unsupported : List String := []

/-- Reads the key of an ordering. -/
def Lambda.readOrdering (env : Env) (key : Lambda) (kind : OrderingKind) : Traced OrderingClause := do
  let p ← key.read env 1
  return { parameterType := p.parameterType
           sortKey := { key := p.body, direction := if kind.isDescending then .desc else .asc } }

/-- Refuses the operator nearest the table that no clause stands for. -/
def Clauses.check (clauses : Clauses) : Traced Unit :=
  match clauses.unsupported with
  | [] => return ()
  | operator :: _ => throw (.unsupportedMethod operator)

/-! ## 2. Sources of equi-joins -/

/-- A table under orderings, as one side of an equi-join: the table, and the orderings in the order
in which they apply. -/
def Query.toJoinedTable (env : Env) : Query → Clauses → Traced (JoinedTable × List SortKey)
  | .table rowType, clauses => do
    if rowType.isEmpty then throw (.invalidArgument "a table must name its row type")
    let info ← env.schema.rowType rowType
    clauses.check
    Traced.meet (.row rowType)
    return ({ rowType, table := info.table }, clauses.orderings.map OrderingClause.sortKey)
  | .orderBy source key kind, clauses => do
    if key.isGrouped then
      source.toJoinedTable env
        { clauses with
          unsupported := (Query.orderBy source key kind).operatorText :: clauses.unsupported }
    else
      let ordering ← key.readOrdering env kind
      source.toJoinedTable env { clauses with orderings := ordering :: clauses.orderings }
  | .join outer inner outerKey innerKey result, _ =>
    throw (.duplicateClause .join (Query.join outer inner outerKey innerKey result).text)
  | .crossJoin source collection result, _ =>
    throw (.duplicateClause .join (Query.crossJoin source collection result).text)
  | q, _ => throw (.unsupportedMethod (q.operatorText ++ " in a join source"))

/-! ## 3. Statements -/

/-- The clauses of a chain, and what it ends in. -/
inductive Statement where
  | table (clauses : Clauses) (rowType : String)
  /-- An equi-join, with the orderings of its sources. -/
  | join (clauses : Clauses) (left right : JoinedTable) (outerKey innerKey : Scalar)
      (result : Projection) (lifted : List SortKey)
  | crossJoin (clauses : Clauses) (left right : Statement) (leftRow rightRow : Ty)
      (result : Projection)

namespace Statement

/-- The clauses of a statement. -/
def clauses : Statement → Clauses
  | .table clauses _ => clauses
  | .join clauses .. => clauses
  | .crossJoin clauses .. => clauses

/-- A statement, unless some operator of its chain has no clause. -/
def checked (s : Statement) : Traced Statement := do
  s.clauses.check
  return s

end Statement

/-- The types of the two rows of a cross join. -/
def Lambda.rowTypes (result : Lambda) : Ty × Ty :=
  match result.params with
  | left :: right :: _ => (left.type, right.type)
  | _ => default

/-- Gathers the clauses of a chain. -/
def Query.gather (env : Env) : Query → Clauses → Traced Statement
  | .table rowType, clauses => do
    if rowType.isEmpty then throw (.invalidArgument "a table must name its row type")
    let _ ← env.schema.rowType rowType
    return .table clauses rowType
  | .select source selector, clauses => do
    if selector.isGrouped then
      source.gather env
        { clauses with
          unsupported := (Query.select source selector).operatorText :: clauses.unsupported }
    else if clauses.select.isSome then throw (.duplicateClause .select selector.text)
    else
      let p ← selector.read env 1
      Traced.meet p.returnType
      source.gather env { clauses with select := some p }
  | .filter source predicate, clauses => do
    if predicate.isGrouped then
      source.gather env
        { clauses with
          unsupported := (Query.filter source predicate).operatorText :: clauses.unsupported }
    else if clauses.filter.isSome then throw (.duplicateClause .filter predicate.text)
    else
      let p ← predicate.read env 1
      source.gather env { clauses with filter := some p }
  | .orderBy source key kind, clauses => do
    if key.isGrouped then
      source.gather env
        { clauses with
          unsupported := (Query.orderBy source key kind).operatorText :: clauses.unsupported }
    else
      let ordering ← key.readOrdering env kind
      source.gather env { clauses with orderings := ordering :: clauses.orderings }
  | .join outer inner outerKey innerKey result, clauses => do
    let outerKey ← outerKey.read env 1
    let innerKey ← innerKey.read env 1
    let result ← result.read env 2
    let (left, leftKeys) ← outer.toJoinedTable env {}
    let (right, rightKeys) ← inner.toJoinedTable env {}
    -- columns are bound by row type, so the two sides must differ
    if left.rowType == right.rowType then
      throw (.unsupportedMethod ("a join of '" ++ left.rowType ++ "' with itself"))
    return .join clauses left right outerKey.body innerKey.body result (leftKeys ++ rightKeys)
  | .crossJoin source collection result, clauses => do
    let p ← result.read env 2
    let (leftRow, rightRow) := result.rowTypes
    Traced.meetAll [leftRow, rightRow]
    if leftRow == rightRow then
      throw (.unsupportedMethod ("a cross join of '" ++ leftRow.text ++ "' with itself"))
    let left ← (← source.gather env {}).checked
    let right ← (← collection.gather env {}).checked
    return .crossJoin clauses left right leftRow rightRow p
  | .call method source args, clauses =>
    source.gather env
      { clauses with
        unsupported := (Query.call method source args).operatorText :: clauses.unsupported }

/-- **The statement of a query.** -/
def Query.toStatement (env : Env) (q : Query) : Traced Statement := do
  (← q.gather env {}).checked

end ChainQuery
