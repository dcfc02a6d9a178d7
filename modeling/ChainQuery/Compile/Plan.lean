import ChainQuery.Compile.Select
import ChainQuery.Evaluate.Partial
import ChainQuery.Sql.Text
/-!
# Plans

What is run against a database: the selection of a query, and the type of its rows for whoever reads
them.  A plan is run by an executor, which takes the text and the parameters.
-/

namespace ChainQuery

/-- A compiled query. -/
structure Plan where
  /-- The text of the type of the rows. -/
  rowType : String
  select : Sql.Select

/-- **Compiles a query**: first everything that depends on no row is evaluated, then the rest becomes
SQL. -/
def Query.compile (env : Env) (q : Query) : Except Error Plan := do
  let q ← q.evaluate
  return { rowType := q.elementType.text, select := ← (q.toSelect env).outcome }

/-- The text of a plan and its parameters. -/
def Plan.render (p : Plan) : Sql.Buffer := p.select.render

/-- Why a plan could not be run. -/
inductive ExecutionError where
  /-- The executor failed with a message. -/
  | executor (message : String)
  deriving Repr, DecidableEq

/-- The message of an execution error. -/
def ExecutionError.message : ExecutionError → String
  | executor message => "the executor failed: " ++ message

/-- **Runs a plan.**  The executor is handed the rendered statement once. -/
def Plan.execute {m : Type → Type} [Monad m] {Row : Type}
    (executor : Sql.Buffer → m (Except String (List Row))) (p : Plan) :
    m (Except ExecutionError (List Row)) := do
  return (← executor p.render).mapError ExecutionError.executor

end ChainQuery
