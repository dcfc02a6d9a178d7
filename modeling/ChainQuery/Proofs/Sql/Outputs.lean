import ChainQuery.Proofs.Sql.Nesting
/-!
# The columns of derived tables

A derived table has the columns that its selection puts out (`SelectList.outputs`): an item with an
alias under the alias, a plain column under its own name.  `Select.ReadsOutputs` says that a statement
reads no others: wherever a column is qualified by the alias of a side of a cross join, the nearest
derived table of that alias puts the column out.

What an expression sees is that of the selection it stands in, then what is around that selection.  A
selection inside an expression sees what the expression sees, a derived table only what is outside of
the selection that it is part of.
-/

namespace ChainQuery.Sql

/-! ## 1. Outputs -/

/-- The name under which an item without an alias is put out, if it has one. -/
def Expr.outputName? : Expr → Option String
  | .column (.qualified _ name) => some name
  | .column (.bare name) => some name
  | _ => none

/-- **The columns that a select list puts out.** -/
def SelectList.outputs : SelectList → List String
  | .plain items => items.filterMap Expr.outputName?
  | .aliased items => items.map Prod.fst

/-- Derived tables by their aliases, with the columns that they put out. -/
abbrev DerivedTables := List (String × List String)

/-- The derived table that is selected from, if it is one. -/
def From.derivedTables : From → DerivedTables
  | .table _ _ => []
  | .derived select label => [(label, select.list.outputs)]

/-- The derived table that is joined, if it is one. -/
def Join.derivedTables : Join → DerivedTables
  | .inner _ _ _ => []
  | .cross select label => [(label, select.list.outputs)]

/-- **The derived tables of a selection.** -/
def derivedTables (source : Option From) (joins : List Join) : DerivedTables :=
  source.toList.flatMap From.derivedTables ++ joins.flatMap Join.derivedTables

/-! ## 2. Statements that read outputs -/

/-- The aliases of the two sides of a cross join. -/
def sideAliases : List String := ["leftStatement", "rightStatement"]

/-- A column of a side of a cross join is put out by the nearest derived table of that alias. -/
def ColumnRef.ReadsOutputs (tables : DerivedTables) : ColumnRef → Prop
  | .qualified (.aliased label) name =>
    label ∈ sideAliases → ∃ outputs, tables.lookup label = some outputs ∧ name ∈ outputs
  | .qualified (.table _) _ => True
  | .bare _ => True

mutual
/-- Every column of a side of a cross join in an expression is put out by it. -/
def Expr.ReadsOutputs (tables : DerivedTables) : Expr → Prop
  | .and left right => left.ReadsOutputs tables ∧ right.ReadsOutputs tables
  | .or left right => left.ReadsOutputs tables ∧ right.ReadsOutputs tables
  | .not operand => operand.ReadsOutputs tables
  | .negate operand => operand.ReadsOutputs tables
  | .op left _ right => left.ReadsOutputs tables ∧ right.ReadsOutputs tables
  | .isNull operand => operand.ReadsOutputs tables
  | .isNotNull operand => operand.ReadsOutputs tables
  | .call _ args => Expr.ListReadsOutputs tables args
  | .like subject pattern _ => subject.ReadsOutputs tables ∧ pattern.ReadsOutputs tables
  | .case test ifTrue ifFalse =>
    test.ReadsOutputs tables ∧ ifTrue.ReadsOutputs tables ∧ ifFalse.ReadsOutputs tables
  | .column ref => ref.ReadsOutputs tables
  | .param _ => True
  | .null => True
  | .bool _ => True
  | .countAll => True
  | .subselect select => select.ReadsOutputs tables

/-- Expressions in one scope. -/
def Expr.ListReadsOutputs (tables : DerivedTables) : List Expr → Prop
  | [] => True
  | e :: rest => e.ReadsOutputs tables ∧ Expr.ListReadsOutputs tables rest

/-- Expressions with their aliases. -/
def Expr.AliasedReadsOutputs (tables : DerivedTables) : List (String × Expr) → Prop
  | [] => True
  | (_, e) :: rest => e.ReadsOutputs tables ∧ Expr.AliasedReadsOutputs tables rest

/-- Keys. -/
def Expr.OrderReadsOutputs (tables : DerivedTables) : List (Expr × Direction) → Prop
  | [] => True
  | (e, _) :: rest => e.ReadsOutputs tables ∧ Expr.OrderReadsOutputs tables rest

/-- Select lists. -/
def SelectList.ReadsOutputs (tables : DerivedTables) : SelectList → Prop
  | .plain items => Expr.ListReadsOutputs tables items
  | .aliased items => Expr.AliasedReadsOutputs tables items

/-- A derived table sees what is outside. -/
def From.ReadsOutputs (outside : DerivedTables) : From → Prop
  | .table _ _ => True
  | .derived select _ => select.ReadsOutputs outside

/-- The keys of a join see what the selection sees, a derived table what is outside. -/
def Join.ReadsOutputs (tables outside : DerivedTables) : Join → Prop
  | .inner _ left right => left.ReadsOutputs tables ∧ right.ReadsOutputs tables
  | .cross select _ => select.ReadsOutputs outside

/-- Joins. -/
def Join.ListReadsOutputs (tables outside : DerivedTables) : List Join → Prop
  | [] => True
  | j :: rest => j.ReadsOutputs tables outside ∧ Join.ListReadsOutputs tables outside rest

/-- **A selection reads only columns that exist**: in it and in all selections in it, every column of a
side of a cross join is put out by the derived table of that alias. -/
def Select.ReadsOutputs (outside : DerivedTables) : Select → Prop
  | ⟨list, source, joins, filter, orderBy⟩ =>
    list.ReadsOutputs (derivedTables source joins ++ outside)
      ∧ (match source with
        | none => True
        | some f => f.ReadsOutputs outside)
      ∧ Join.ListReadsOutputs (derivedTables source joins ++ outside) outside joins
      ∧ filter.ReadsOutputs (derivedTables source joins ++ outside)
      ∧ Expr.OrderReadsOutputs (derivedTables source joins ++ outside) orderBy
end

theorem Expr.listReadsOutputs_iff {tables : DerivedTables} {items : List Expr} :
    Expr.ListReadsOutputs tables items ↔ ∀ e ∈ items, e.ReadsOutputs tables := by
  induction items with
  | nil => simp [ListReadsOutputs]
  | cons e rest ih => simp [ListReadsOutputs, ih]

theorem Expr.aliasedReadsOutputs_iff {tables : DerivedTables} {items : List (String × Expr)} :
    Expr.AliasedReadsOutputs tables items ↔ ∀ item ∈ items, item.2.ReadsOutputs tables := by
  induction items with
  | nil => simp [AliasedReadsOutputs]
  | cons item rest ih => simp [AliasedReadsOutputs, ih]

theorem Expr.orderReadsOutputs_iff {tables : DerivedTables} {keys : List (Expr × Direction)} :
    Expr.OrderReadsOutputs tables keys ↔ ∀ key ∈ keys, key.1.ReadsOutputs tables := by
  induction keys with
  | nil => simp [OrderReadsOutputs]
  | cons key rest ih => simp [OrderReadsOutputs, ih]

theorem SelectList.readsOutputs_iff {tables : DerivedTables} {list : SelectList} :
    list.ReadsOutputs tables ↔ ∀ e ∈ list.exprs, e.ReadsOutputs tables := by
  cases list with
  | plain items => exact Expr.listReadsOutputs_iff
  | aliased items => exact Expr.aliasedReadsOutputs_iff.trans List.forall_mem_map.symm

/-- The alias of a table is not that of a side of a cross join. -/
theorem depthAlias_not_mem_sideAliases (depth : Nat) : depthAlias depth ∉ sideAliases := by
  intro h
  have hfirst : (depthAlias depth).toList.head? = some 't' := by simp [depthAlias]
  have hside : ∀ label ∈ sideAliases, label.toList.head? ≠ some 't' := by decide
  exact hside _ h hfirst

end ChainQuery.Sql
