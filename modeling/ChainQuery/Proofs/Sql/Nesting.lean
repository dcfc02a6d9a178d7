import ChainQuery.Sql.Basic
import Mathlib.Data.List.Basic
/-!
# Selections inside selections

A selection has others for its parts (`Select.parts`): the derived tables that it selects from and
joins, and the selections that stand for a value in one of its expressions.  A property that holds
everywhere (`Select.Everywhere`) holds of a selection, of its parts, of their parts, and so on.

The expressions of a selection are its own (`Select.exprs`), and so are their nodes (`Expr.nodes`),
which stop where a part begins.  With them it can be said which columns a selection itself refers to:
`Select.BareAlone` says that only a selection without joins refers to a column by its bare name.
-/

namespace ChainQuery.Sql

/-! ## 1. The nodes of an expression -/

mutual
/-- **The nodes of an expression**, itself first.  A selection that stands for a value is one node. -/
def Expr.nodes : Expr → List Expr
  | .and left right => .and left right :: (left.nodes ++ right.nodes)
  | .or left right => .or left right :: (left.nodes ++ right.nodes)
  | .not operand => .not operand :: operand.nodes
  | .negate operand => .negate operand :: operand.nodes
  | .op left token right => .op left token right :: (left.nodes ++ right.nodes)
  | .isNull operand => .isNull operand :: operand.nodes
  | .isNotNull operand => .isNotNull operand :: operand.nodes
  | .call function args => .call function args :: Expr.listNodes args
  | .like subject pattern wildcards =>
    .like subject pattern wildcards :: (subject.nodes ++ pattern.nodes)
  | .case test ifTrue ifFalse =>
    .case test ifTrue ifFalse :: (test.nodes ++ (ifTrue.nodes ++ ifFalse.nodes))
  | .column ref => [.column ref]
  | .param value => [.param value]
  | .null => [.null]
  | .bool value => [.bool value]
  | .countAll => [.countAll]
  | .subselect select => [.subselect select]

/-- The nodes of expressions. -/
def Expr.listNodes : List Expr → List Expr
  | [] => []
  | e :: rest => e.nodes ++ Expr.listNodes rest
end

/-- The name of an unqualified column. -/
def Expr.bareName? : Expr → Option String
  | .column (.bare name) => some name
  | _ => none

/-- The selection that stands for a value. -/
def Expr.selection? : Expr → Option Select
  | .subselect select => some select
  | _ => none

/-- The unqualified columns that an expression refers to itself. -/
def Expr.bareColumns (e : Expr) : List String := e.nodes.filterMap Expr.bareName?

/-- The selections that stand for values in an expression. -/
def Expr.subselects (e : Expr) : List Select := e.nodes.filterMap Expr.selection?

theorem Expr.selection?_eq_some {e : Expr} {s : Select} :
    e.selection? = some s ↔ e = .subselect s := by
  constructor
  · intro h
    unfold Expr.selection? at h
    split at h
    · cases h
      rfl
    · cases h
  · rintro rfl
    rfl

/-- **Every node of an expression has a property.** -/
def Expr.AllNodes (Q : Expr → Prop) (e : Expr) : Prop := ∀ n ∈ e.nodes, Q n

section AllNodes

variable {Q : Expr → Prop}

/-- An expression is a node of its own. -/
theorem Expr.AllNodes.self {e : Expr} (h : e.AllNodes Q) : Q e := by
  refine h e ?_
  cases e <;> exact List.mem_cons_self

theorem Expr.allNodes_listNodes {es : List Expr} :
    (∀ n ∈ Expr.listNodes es, Q n) ↔ ∀ e ∈ es, e.AllNodes Q := by
  induction es with
  | nil => simp [Expr.listNodes]
  | cons e rest ih =>
    rw [Expr.listNodes, List.forall_mem_append, List.forall_mem_cons, ih]
    rfl

theorem Expr.allNodes_column {ref : ColumnRef} : (Expr.column ref).AllNodes Q ↔ Q (.column ref) := by
  simp [Expr.AllNodes, Expr.nodes]

theorem Expr.allNodes_call {f : Function} {args : List Expr} :
    (Expr.call f args).AllNodes Q ↔ Q (.call f args) ∧ ∀ e ∈ args, e.AllNodes Q := by
  rw [Expr.AllNodes, Expr.nodes, List.forall_mem_cons, Expr.allNodes_listNodes]

end AllNodes

/-! ## 2. The expressions and the parts of a selection -/

/-- The expressions of a select list. -/
def SelectList.exprs : SelectList → List Expr
  | .plain items => items
  | .aliased items => items.map Prod.snd

/-- The keys of a join. -/
def Join.keys : Join → List Expr
  | .inner _ left right => [left, right]
  | .cross _ _ => []

/-- **The expressions of a selection**: its select list, the keys of its joins, its filter, and the
keys that it orders by. -/
def Select.exprs (s : Select) : List Expr :=
  s.list.exprs ++ s.joins.flatMap Join.keys ++ s.filter :: s.orderBy.map Prod.fst

/-- The derived table that is selected from. -/
def From.derived? : From → Option Select
  | .table _ _ => none
  | .derived select _ => some select

/-- The derived table that is joined. -/
def Join.derived? : Join → Option Select
  | .inner _ _ _ => none
  | .cross select _ => some select

/-- The derived tables of a selection. -/
def Select.derived (s : Select) : List Select :=
  s.source.toList.filterMap From.derived? ++ s.joins.filterMap Join.derived?

/-- **The selections that a selection is made of.** -/
def Select.parts (s : Select) : List Select :=
  s.derived ++ s.exprs.flatMap Expr.subselects

theorem Select.forall_mem_parts {P : Select → Prop} {s : Select} :
    (∀ t ∈ s.parts, P t) ↔
      (∀ t ∈ s.derived, P t) ∧ ∀ e ∈ s.exprs, e.AllNodes fun n => ∀ t, n = .subselect t → P t := by
  rw [Select.parts, List.forall_mem_append]
  refine and_congr_right fun _ => ⟨fun h e he n hn t ht => ?_, fun h t ht => ?_⟩
  · refine h t (List.mem_flatMap.mpr ⟨e, he, List.mem_filterMap.mpr ⟨n, hn, ?_⟩⟩)
    exact Expr.selection?_eq_some.mpr ht
  · obtain ⟨e, he, ht⟩ := List.mem_flatMap.mp ht
    obtain ⟨n, hn, ht⟩ := List.mem_filterMap.mp ht
    exact h e he n hn t (Expr.selection?_eq_some.mp ht)

/-- **A property holds everywhere in a selection**: of itself, and everywhere in its parts. -/
inductive Select.Everywhere (P : Select → Prop) : Select → Prop
  | intro {s : Select} (own : P s) (parts : ∀ t ∈ s.parts, Everywhere P t) : Everywhere P s

theorem Select.everywhere_iff {P : Select → Prop} {s : Select} :
    s.Everywhere P ↔ P s ∧ ∀ t ∈ s.parts, t.Everywhere P := by
  constructor
  · rintro ⟨own, parts⟩
    exact ⟨own, parts⟩
  · rintro ⟨own, parts⟩
    exact ⟨own, parts⟩

theorem Select.Everywhere.mono {P Q : Select → Prop} (hPQ : ∀ s, P s → Q s) {s : Select}
    (h : s.Everywhere P) : s.Everywhere Q := by
  induction h with
  | intro own _ ih => exact ⟨hPQ _ own, ih⟩

/-! ## 3. Properties of a single selection -/

/-- **A selection refers to a column by its bare name only if it joins nothing**, so that there is
one table that the column can be of. -/
def Select.BareAlone (s : Select) : Prop :=
  s.joins = [] ∨ ∀ e ∈ s.exprs, e.bareColumns = []

/-- A selection without joins and without an order. -/
def Select.IsPlain (s : Select) : Prop := s.joins = [] ∧ s.orderBy = []

end ChainQuery.Sql
