import ChainQuery.Evaluate.Interpret
import ChainQuery.Query.Basic
/-!
# Partial evaluation

Before a query is compiled, every largest part of an expression that depends on no row is replaced by
its value.  A part qualifies if all its nodes are accepted (`Expr.closedFor`); by default those are
the nodes that neither are, bind or call through parameters, nor convert (`Expr.isLocal`).

There are two passes.  The first nominates, from the leaves, the parts that qualify (`Expr.nominate`).
The second goes down from the root and replaces the nominated parts that it meets first
(`Nomination.evaluate`); on its way the children of a node take what was nominated below the node one
after another.
-/

namespace ChainQuery

/-- Which parts of an expression qualify, in a tree of the shape of the expression. -/
inductive Nomination where
  | mk (candidate : Bool) (children : List Nomination)

/-- Whether the expression as a whole qualifies. -/
def Nomination.candidate : Nomination → Bool
  | mk candidate _ => candidate

/-- What is nominated for the children. -/
def Nomination.children : Nomination → List Nomination
  | mk _ children => children

namespace Expr

/-- Whether a node may be evaluated before compilation. -/
def isLocal : Expr → Bool
  | .parameter .. | .lambda .. | .invoke .. => false
  | .unary (.convert _) _ => false
  | _ => true

/-- **Nominates the parts of an expression** all of whose nodes are accepted. -/
def nominate (accept : Expr → Bool) (e : Expr) : Nomination :=
  e.fold fun node below => .mk (below.all Nomination.candidate && accept node) below

/-- Whether every node of an expression is accepted. -/
def closedFor (accept : Expr → Bool) (e : Expr) : Bool := (e.nominate accept).candidate

/-- The value of an expression as a constant of its type.  A constant stays as it is. -/
def evaluated (e : Expr) : Except Error Expr :=
  match e with
  | .constant .. => .ok e
  | e =>
    match e.eval with
    | .ok value => .ok (.constant value e.type)
    | .error reason => .error (.invalidLocalEvaluation e.text reason)

/-- Hands an expression to the first of the functions that are left, or to `otherwise` if none is. -/
def applyNext (otherwise : Expr → Except Error Expr) (e : Expr) :
    StateT (List (Expr → Except Error Expr)) (Except Error) Expr := do
  match ← get with
  | [] => otherwise e
  | f :: rest => do
    set rest
    f e

end Expr

mutual
/-- **Replaces every largest nominated part of an expression by its value.**  A child for which nothing is
nominated goes to `otherwise`. -/
def Nomination.evaluate (otherwise : Expr → Except Error Expr) : Nomination → Expr → Except Error Expr
  | mk candidate children, e =>
    if candidate then e.evaluated
    else (e.traverseChildren (Expr.applyNext otherwise)).run' (evaluators otherwise children)

/-- What becomes of the children of an expression, in their order, by what is nominated below it. -/
def Nomination.evaluators (otherwise : Expr → Except Error Expr) :
    List Nomination → List (Expr → Except Error Expr)
  | [] => []
  | n :: rest => n.evaluate otherwise :: evaluators otherwise rest
end

namespace Expr

/-- **Replaces every largest accepted part of an expression by its value.** -/
def evaluateWith (accept : Expr → Bool) (e : Expr) : Except Error Expr :=
  (e.nominate accept).evaluate .ok e

/-- Replaces every largest part that can be evaluated before compilation by its value. -/
def evaluate (e : Expr) : Except Error Expr := e.evaluateWith isLocal

/-! ## The passes fit -/

/-- **What is nominated below a node is what is nominated for its children**, in their order. -/
theorem nominate_eq (accept : Expr → Bool) (e : Expr) :
    e.nominate accept = .mk (e.closedFor accept) (e.children.map (nominate accept)) := by
  unfold closedFor nominate
  rw [fold_eq]
  rfl

theorem closedFor_eq (accept : Expr → Bool) (e : Expr) :
    e.closedFor accept = (e.children.all (closedFor accept) && accept e) := by
  unfold closedFor nominate
  rw [fold_eq]
  simp [Nomination.candidate, List.all_map, Function.comp_def]

/-- Expressions that take functions one after another each get their own, and no function is left that
was meant for one of them. -/
theorem mapM_applyNext (otherwise : Expr → Except Error Expr) (own : Expr → Expr → Except Error Expr)
    (es : List Expr) (rest : List (Expr → Except Error Expr)) :
    (es.mapM (applyNext otherwise)).run (es.map own ++ rest)
      = (·, rest) <$> es.mapM fun e => own e e := by
  induction es with
  | nil => rfl
  | cons e es ih =>
    rw [List.mapM_cons, List.mapM_cons, StateT.run_bind]
    have hfirst : (applyNext otherwise e).run ((e :: es).map own ++ rest)
        = (·, es.map own ++ rest) <$> own e e := rfl
    rw [hfirst]
    cases own e e with
    | error error => rfl
    | ok e' =>
      change ((do return e' :: (← es.mapM (applyNext otherwise)) :
          StateT (List (Expr → Except Error Expr)) (Except Error) (List Expr)).run (es.map own ++ rest))
        = (·, rest) <$> (do return e' :: (← es.mapM fun e => own e e))
      rw [bind_pure_comp, bind_pure_comp, StateT.run_map, ih, Functor.map_map, Functor.map_map]

theorem evaluators_eq_map (otherwise : Expr → Except Error Expr) (ns : List Nomination) :
    Nomination.evaluators otherwise ns = ns.map (Nomination.evaluate otherwise) := by
  induction ns with
  | nil => rfl
  | cons n rest ih => rw [Nomination.evaluators, ih, List.map_cons]

/-- **Each child is evaluated by what was nominated for it**, and no child goes to `otherwise`. -/
theorem evaluate_nominate (accept : Expr → Bool) (otherwise : Expr → Except Error Expr) (e : Expr) :
    (e.nominate accept).evaluate otherwise e =
      if e.closedFor accept then e.evaluated
      else e.traverseChildren fun child => (child.nominate accept).evaluate otherwise child := by
  rw [nominate_eq, Nomination.evaluate]
  split
  · rfl
  · have hown := mapM_applyNext otherwise (fun c => (c.nominate accept).evaluate otherwise) e.children []
    rw [List.append_nil] at hown
    simp only [evaluators_eq_map, List.map_map, Function.comp_def, traverseChildren_eq, StateT.run'_eq,
      StateT.run_map, hown]
    simp

/-- **The equation of partial evaluation**: an accepted expression becomes its value, and any other
keeps its node over what becomes of its children. -/
theorem evaluateWith_eq (accept : Expr → Bool) (e : Expr) :
    e.evaluateWith accept =
      if e.closedFor accept then e.evaluated else e.traverseChildren (evaluateWith accept) :=
  evaluate_nominate accept .ok e

end Expr

/-- **Partially evaluates every lambda body and every operator argument of a query.** -/
def Query.evaluate (q : Query) : Except Error Query := q.mapExprs Expr.evaluate

end ChainQuery
