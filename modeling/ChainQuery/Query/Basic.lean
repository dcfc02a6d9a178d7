import ChainQuery.Expr.Equality
import ChainQuery.Expr.Text
/-!
# Queries

A query is a chain of operators over a table, a join or a cross join: every operator wraps the query
that it is applied to.
-/

namespace ChainQuery

/-- The four operators that order rows. -/
inductive OrderingKind where
  | orderBy | orderByDescending | thenBy | thenByDescending
  deriving Repr, DecidableEq, Inhabited

namespace OrderingKind

/-- Every ordering operator. -/
def all : List OrderingKind := [orderBy, orderByDescending, thenBy, thenByDescending]

/-- Whether the largest key comes first. -/
def isDescending : OrderingKind → Bool
  | orderByDescending | thenByDescending => true
  | _ => false

/-- The operator in the text of a query. -/
def text : OrderingKind → String
  | orderBy => "OrderBy"
  | orderByDescending => "OrderByDescending"
  | thenBy => "ThenBy"
  | thenByDescending => "ThenByDescending"

/-- The name of the operator. -/
def name : OrderingKind → String
  | orderBy => "order_by"
  | orderByDescending => "order_by_descending"
  | thenBy => "then_by"
  | thenByDescending => "then_by_descending"

/-- The operator of a name. -/
def ofName? (s : String) : Option OrderingKind := all.find? (fun k => k.name == s)

@[simp] theorem ofName?_name (k : OrderingKind) : ofName? k.name = some k := by
  cases k <;> decide

end OrderingKind

/-- A query. -/
inductive Query where
  /-- All rows of a registered row type. -/
  | table (rowType : String)
  | select (source : Query) (selector : Lambda)
  | filter (source : Query) (predicate : Lambda)
  /-- The pairs of rows of two sources whose keys are equal. -/
  | join (outer inner : Query) (outerKey innerKey result : Lambda)
  /-- All pairs of rows of two sources. -/
  | crossJoin (source collection : Query) (result : Lambda)
  | orderBy (source : Query) (key : Lambda) (kind : OrderingKind)
  /-- Any other operator, such as one that groups or takes a few rows. -/
  | call (method : String) (source : Query) (args : List Expr)
  deriving Inhabited

/-- Replaces the body of a lambda by what `f` makes of it. -/
def Lambda.mapBody {m : Type → Type} [Monad m] (f : Expr → m Expr) (l : Lambda) : m Lambda := do
  return { l with body := ← f l.body }

namespace Query

/-- The type of the rows that a query produces. -/
def elementType : Query → Ty
  | .table rowType => .row rowType
  | .select _ selector => selector.returnType
  | .filter source _ => source.elementType
  | .join _ _ _ _ result => result.returnType
  | .crossJoin _ _ result => result.returnType
  | .orderBy source _ _ => source.elementType
  | .call _ source _ => source.elementType

/-- Rebuilds a query with every lambda body, and every argument of other operators, replaced by
what `f` makes of it.  The sources of an operator come before its own lambdas. -/
def mapExprs {m : Type → Type} [Monad m] (f : Expr → m Expr) : Query → m Query
  | .table rowType => return .table rowType
  | .select source selector => do
    return .select (← source.mapExprs f) (← selector.mapBody f)
  | .filter source predicate => do
    return .filter (← source.mapExprs f) (← predicate.mapBody f)
  | .join outer inner outerKey innerKey result => do
    return .join (← outer.mapExprs f) (← inner.mapExprs f) (← outerKey.mapBody f)
      (← innerKey.mapBody f) (← result.mapBody f)
  | .crossJoin source collection result => do
    return .crossJoin (← source.mapExprs f) (← collection.mapExprs f) (← result.mapBody f)
  | .orderBy source key kind => do
    return .orderBy (← source.mapExprs f) (← key.mapBody f) kind
  | .call method source args => do
    return .call method (← source.mapExprs f) (← args.mapM f)

/-- How deep aggregates are nested in the lambdas of a query. -/
def aggregateDepth : Query → Nat
  | .table _ => 0
  | .select source selector => max source.aggregateDepth selector.body.aggregateDepth
  | .filter source predicate => max source.aggregateDepth predicate.body.aggregateDepth
  | .join outer inner outerKey innerKey result =>
    max (max outer.aggregateDepth inner.aggregateDepth)
      (max (max outerKey.body.aggregateDepth innerKey.body.aggregateDepth)
        result.body.aggregateDepth)
  | .crossJoin source collection result =>
    max (max source.aggregateDepth collection.aggregateDepth) result.body.aggregateDepth
  | .orderBy source key _ => max source.aggregateDepth key.body.aggregateDepth
  | .call _ source _ => source.aggregateDepth

/-! ## Texts -/

/-- The arguments of an operator. -/
def argsText (args : List Expr) : String := String.intercalate ", " (Expr.texts args)

/-- **The text of a query**: its operators in the order in which they apply. -/
def text : Query → String
  | .table rowType => "Table<" ++ rowType ++ ">"
  | .select source selector => source.text ++ ".Select(" ++ selector.text ++ ")"
  | .filter source predicate => source.text ++ ".Where(" ++ predicate.text ++ ")"
  | .join outer inner outerKey innerKey result =>
    outer.text ++ ".Join(" ++ inner.text ++ ", " ++ outerKey.text ++ ", " ++ innerKey.text ++ ", "
      ++ result.text ++ ")"
  | .crossJoin source collection result =>
    source.text ++ ".SelectMany(" ++ collection.text ++ ", " ++ result.text ++ ")"
  | .orderBy source key kind => source.text ++ "." ++ kind.text ++ "(" ++ key.text ++ ")"
  | .call method source args => source.text ++ "." ++ method ++ "(" ++ argsText args ++ ")"

/-- The outermost operator of a query, for messages. -/
def operatorText : Query → String
  | .table rowType => "Table<" ++ rowType ++ ">"
  | .select _ selector => "Select(" ++ selector.text ++ ")"
  | .filter _ predicate => "Where(" ++ predicate.text ++ ")"
  | .join .. => "Join"
  | .crossJoin .. => "SelectMany"
  | .orderBy _ key kind => kind.text ++ "(" ++ key.text ++ ")"
  | .call method _ args => method ++ "(" ++ argsText args ++ ")"

/-! ## Equality -/

/-- Whether two queries are equal: the same operators over equal expressions. -/
def beq : Query → Query → Bool
  | .table r, .table r' => r == r'
  | .select s l, .select s' l' => s.beq s' && l == l'
  | .filter s l, .filter s' l' => s.beq s' && l == l'
  | .join o i k l r, .join o' i' k' l' r' =>
    o.beq o' && i.beq i' && k == k' && l == l' && r == r'
  | .crossJoin s c r, .crossJoin s' c' r' => s.beq s' && c.beq c' && r == r'
  | .orderBy s k d, .orderBy s' k' d' => s.beq s' && k == k' && d == d'
  | .call m s es, .call m' s' es' => m == m' && s.beq s' && es == es'
  | _, _ => false

instance : BEq Query := ⟨beq⟩

end Query

end ChainQuery
