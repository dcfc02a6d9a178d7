import ChainQuery.Query.Basic
import Mathlib.Data.List.Basic
/-!
# The operators of a query

A query is a chain of operators over a table, a join or a cross join (`Query.base`).  A cross join has
two chains of its own, and so on: the chains that are compiled to a selection each are the scopes of
the query (`Query.scopes`).  The sides of an equi-join are no scopes, because they are only tables
under orderings (`Query.orderedTable?`).

The listings here are read off the query alone.  What a compiled statement is made of is compared with
them.
-/

namespace ChainQuery

namespace Query

/-! ## 1. Chains -/

/-- **What a chain of operators is over**: a table, a join or a cross join. -/
def base : Query → Query
  | .select source _ | .filter source _ | .orderBy source _ _ | .call _ source _ => source.base
  | .table rowType => .table rowType
  | .join outer inner outerKey innerKey result => .join outer inner outerKey innerKey result
  | .crossJoin source collection result => .crossJoin source collection result

/-- The projections of a chain, outermost first. -/
def projections : Query → List Lambda
  | .select source selector => selector :: source.projections
  | .filter source _ | .orderBy source _ _ | .call _ source _ => source.projections
  | .table _ | .join .. | .crossJoin .. => []

/-- The filters of a chain, outermost first. -/
def filters : Query → List Lambda
  | .filter source predicate => predicate :: source.filters
  | .select source _ | .orderBy source _ _ | .call _ source _ => source.filters
  | .table _ | .join .. | .crossJoin .. => []

/-- The lambdas of a query. -/
def lambdas : Query → List Lambda
  | .table _ => []
  | .select source selector => selector :: source.lambdas
  | .filter source predicate => predicate :: source.lambdas
  | .join outer inner outerKey innerKey result =>
    [outerKey, innerKey, result] ++ outer.lambdas ++ inner.lambdas
  | .crossJoin source collection result => result :: source.lambdas ++ collection.lambdas
  | .orderBy source key _ => key :: source.lambdas
  | .call _ source _ => source.lambdas

/-- The bodies of the lambdas of a query, and the arguments of its other operators.  Those of the sources
of an operator come before its own. -/
def exprs : Query → List Expr
  | .table _ => []
  | .select source selector => source.exprs ++ [selector.body]
  | .filter source predicate => source.exprs ++ [predicate.body]
  | .join outer inner outerKey innerKey result =>
    outer.exprs ++ inner.exprs ++ [outerKey.body, innerKey.body, result.body]
  | .crossJoin source collection result => source.exprs ++ collection.exprs ++ [result.body]
  | .orderBy source key _ => source.exprs ++ [key.body]
  | .call _ source args => source.exprs ++ args

/-- The row type of a table under nothing but orderings. -/
def orderedTable? : Query → Option String
  | .table rowType => some rowType
  | .orderBy source _ _ => source.orderedTable?
  | _ => none

/-- **Whether every operator of a query is one that a clause can stand for**: no other operator is
called, and no clause ranges over groups. -/
def isSupported : Query → Bool
  | .table _ => true
  | .select source selector => !selector.isGrouped && source.isSupported
  | .filter source predicate => !predicate.isGrouped && source.isSupported
  | .orderBy source key _ => !key.isGrouped && source.isSupported
  | .join outer inner _ _ _ => outer.isSupported && inner.isSupported
  | .crossJoin source collection _ => source.isSupported && collection.isSupported
  | .call _ _ _ => false

/-! ## 2. Scopes -/

/-- The scopes inside the chain of a query: the sides of its cross join, each with those inside of
it. -/
def innerScopes : Query → List Query
  | .select source _ | .filter source _ | .orderBy source _ _ | .call _ source _ =>
    source.innerScopes
  | .table _ | .join .. => []
  | .crossJoin source collection _ =>
    (source :: source.innerScopes) ++ (collection :: collection.innerScopes)

/-- **The scopes of a query**: its own chain, then those of the left side, then those of the right. -/
def scopes (q : Query) : List Query := q :: q.innerScopes

theorem base_cases (q : Query) :
    (∃ rowType, q.base = .table rowType) ∨
    (∃ outer inner outerKey innerKey result, q.base = .join outer inner outerKey innerKey result) ∨
    (∃ source collection result, q.base = .crossJoin source collection result) := by
  induction q with
  | table rowType => exact Or.inl ⟨rowType, rfl⟩
  | join outer inner outerKey innerKey result =>
    exact Or.inr (Or.inl ⟨outer, inner, outerKey, innerKey, result, rfl⟩)
  | crossJoin source collection result =>
    exact Or.inr (Or.inr ⟨source, collection, result, rfl⟩)
  | select _ _ ih | filter _ _ ih | orderBy _ _ _ ih | call _ _ _ ih => exact ih

theorem innerScopes_base (q : Query) : q.base.innerScopes = q.innerScopes := by
  induction q with
  | table | join | crossJoin => rfl
  | select _ _ ih | filter _ _ ih | orderBy _ _ _ ih | call _ _ _ ih => exact ih

/-! ## 3. Orderings -/

/-- An ordering operator, and the projections of the sides of cross joins that its key is handed out
of, innermost first. -/
structure OrderingOperator where
  key : Lambda
  kind : OrderingKind
  through : List Lambda := []

/-- An ordering operator in a side of a cross join with the given projections. -/
def OrderingOperator.handedOn (projections : List Lambda) (o : OrderingOperator) :
    OrderingOperator :=
  { o with through := o.through ++ projections }

/-- The orderings of a chain itself, from the table outwards. -/
def ownOrderings : Query → List OrderingOperator
  | .orderBy source key kind => source.ownOrderings ++ [{ key, kind }]
  | .select source _ | .filter source _ | .call _ source _ => source.ownOrderings
  | .table _ | .join .. | .crossJoin .. => []

/-- **The orderings of a query**: those of the left side of its join or cross join, then those of the
right side, then its own from the table outwards. -/
def orderings : Query → List OrderingOperator
  | .table _ => []
  | .orderBy source key kind => source.orderings ++ [{ key, kind }]
  | .select source _ | .filter source _ | .call _ source _ => source.orderings
  | .join outer inner _ _ _ => outer.orderings ++ inner.orderings
  | .crossJoin source collection _ =>
    source.orderings.map (.handedOn source.projections)
      ++ collection.orderings.map (.handedOn collection.projections)

/-- **The orderings of a chain come after those of its base.** -/
theorem orderings_eq_base_append (q : Query) : q.orderings = q.base.orderings ++ q.ownOrderings := by
  induction q with
  | table | join | crossJoin => simp [orderings, base, ownOrderings]
  | select _ _ ih | filter _ _ ih | call _ _ _ ih => exact ih
  | orderBy source key kind ih =>
    rw [orderings, base, ownOrderings, ih, List.append_assoc]

end Query

end ChainQuery
