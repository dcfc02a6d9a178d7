import ChainQuery.Proofs.Coupling.Renaming
import ChainQuery.Proofs.Sql.Nesting
/-!
# The nodes of compiled expressions

What a scalar becomes is put together from operators and parameters by the compiler itself
(`Sql.Expr.isComposed`), and from columns and aggregates that its scope provides.  So a property of
nodes that holds of the former, and that the scope keeps (`Scope.Binds`, `Subqueries.Yield`), holds of
all nodes of all expressions of a selection (`Statement.assemble_nodes`); only the columns of a select
list that falls back on the type of its rows come from elsewhere (`Statement.FallsBack`).

The first use is that aggregates are plain: they are computed over tables, so no selection in them
joins anything or orders its rows (`Correlated.toSelect_yield`).  So a property of plain selections
holds everywhere in the parts of a compiled one if it does in its derived tables
(`Statement.parts_toSelect_iff`).
-/

namespace ChainQuery

/-- Whether a node is put together by the compiler itself.  Columns and selections are provided by a
scope; truth values and counts stand for a whole clause. -/
def Sql.Expr.isComposed : Sql.Expr → Bool
  | .column _ | .subselect _ | .bool _ | .countAll => false
  | _ => true

/-- A run beside itself, on all columns. -/
abbrev Coupling.onAll (env : Env) : Coupling := .self env fun _ => True

variable {env : Env} {Q : Sql.Expr → Prop}

/-- A statement is put together like itself, whatever it reads. -/
theorem Query.Gathers.coupled_onAll {q : Query} {s : Statement} (h : q.Gathers env {} s) :
    s.Coupled (.onAll env) s :=
  Query.coupled_self_of_toStatement (Query.toStatement_eq_ok.mpr h) fun _ _ => trivial

/-! ## 1. Scopes -/

/-- **A scope binds columns to expressions all of whose nodes have a property.** -/
def Scope.Binds (Q : Sql.Expr → Prop) (scope : Scope) : Prop :=
  ∀ ⦃token : ColumnToken⦄ ⦃position : Position⦄ ⦃e : Sql.Expr⦄,
    (scope.column token position).outcome = .ok e → e.AllNodes Q

/-- **Aggregates have a property of nodes** in every scope that binds columns to such expressions. -/
def Subqueries.Yield (Q : Sql.Expr → Prop) (subqueries : Subqueries) : Prop :=
  ∀ ⦃c : Correlated⦄, c.OverTable → ∀ ⦃scope : Scope⦄, scope.Binds Q →
    ∀ ⦃select : Sql.Select⦄, (subqueries c scope).outcome = .ok select → Q (.subselect select)

/-- What nodes are made of: what the compiler puts together, and what it takes from a scope. -/
structure Binder.Binds (Q : Sql.Expr → Prop) (b : Binder) : Prop where
  composed : ∀ n : Sql.Expr, n.isComposed = true → Q n
  scope : b.scope.Binds Q
  subqueries : b.subqueries.Yield Q

theorem Literal.toSql_allNodes (hQ : ∀ n : Sql.Expr, n.isComposed = true → Q n) {v : Literal}
    {e : Sql.Expr} (h : v.toSql = .ok e) : e.AllNodes Q := by
  cases v <;> cases h <;> exact List.forall_mem_singleton.mpr (hQ _ rfl)

section Resolve

variable {dialect : Dialect} {subqueries : Subqueries} {scope : Scope} {position : Position}

mutual
/-- **The nodes of a scalar in a scope.** -/
theorem Scalar.resolve_allNodes (hQ : ∀ n : Sql.Expr, n.isComposed = true → Q n)
    (hscope : scope.Binds Q) (hsub : subqueries.Yield Q) :
    ∀ {x y : Scalar} {e : Sql.Expr}, x.Coupled (.onAll env) y →
      (x.resolve dialect subqueries scope position).outcome = .ok e → e.AllNodes Q
  | _, _, _, .column _, h => hscope h
  | _, _, _, .value _, h => Literal.toSql_allNodes hQ h
  | _, _, _, .null, h => by
    cases h
    exact List.forall_mem_singleton.mpr (hQ _ rfl)
  | _, _, _, .binary _ hl hr, h => by
    rcases Scalar.resolve_binary_cases h with ⟨x, hx, he⟩ | ⟨x, y, hx, hy, he⟩
    · have hnodes : x.AllNodes Q := by
        rcases hx with ⟨_, hx⟩ | ⟨_, hx⟩
        · exact Scalar.resolve_allNodes hQ hscope hsub hl hx
        · exact Scalar.resolve_allNodes hQ hscope hsub hr hx
      rcases he with ⟨_, rfl⟩ | ⟨_, rfl⟩
      · exact List.forall_mem_cons.mpr ⟨hQ _ rfl, hnodes⟩
      · exact List.forall_mem_cons.mpr ⟨hQ _ rfl, hnodes⟩
    · have hnodes : ∀ n ∈ x.nodes ++ y.nodes, Q n :=
        List.forall_mem_append.mpr ⟨Scalar.resolve_allNodes hQ hscope hsub hl hx,
          Scalar.resolve_allNodes hQ hscope hsub hr hy⟩
      rcases he with ⟨_, rfl⟩ | ⟨_, rfl⟩ | ⟨_, rfl, _⟩
      · exact List.forall_mem_cons.mpr ⟨hQ _ rfl, hnodes⟩
      · exact List.forall_mem_cons.mpr ⟨hQ _ rfl, hnodes⟩
      · exact List.forall_mem_cons.mpr ⟨hQ _ rfl, hnodes⟩
  | _, _, _, .not hx, h => by
    obtain ⟨e, he, h⟩ := Traced.bind_eq_ok.mp h
    have hnodes : e.AllNodes Q := Scalar.resolve_allNodes hQ hscope hsub hx he
    cases h
    exact List.forall_mem_cons.mpr ⟨hQ _ rfl, hnodes⟩
  | _, _, _, .negate hx, h => by
    obtain ⟨e, he, h⟩ := Traced.bind_eq_ok.mp h
    have hnodes : e.AllNodes Q := Scalar.resolve_allNodes hQ hscope hsub hx he
    cases h
    exact List.forall_mem_cons.mpr ⟨hQ _ rfl, hnodes⟩
  | _, _, _, .function _ hxs, h => by
    obtain ⟨es, hes, h⟩ := Traced.bind_eq_ok.mp h
    cases h
    exact Sql.Expr.allNodes_call.mpr ⟨hQ _ rfl, Scalar.resolveList_allNodes hQ hscope hsub hxs hes⟩
  | _, _, _, .like _ hx hp, h => by
    obtain ⟨e, he, h⟩ := Traced.bind_eq_ok.mp h
    obtain ⟨f, hf, h⟩ := Traced.bind_eq_ok.mp h
    have hnodes : ∀ n ∈ e.nodes ++ f.nodes, Q n :=
      List.forall_mem_append.mpr ⟨Scalar.resolve_allNodes hQ hscope hsub hx he,
        Scalar.resolve_allNodes hQ hscope hsub hp hf⟩
    cases h
    exact List.forall_mem_cons.mpr ⟨hQ _ rfl, hnodes⟩
  | _, _, _, .case ht hx hy, h => by
    obtain ⟨t, hte, h⟩ := Traced.bind_eq_ok.mp h
    obtain ⟨e, he, h⟩ := Traced.bind_eq_ok.mp h
    obtain ⟨f, hf, h⟩ := Traced.bind_eq_ok.mp h
    have hnodes : ∀ n ∈ t.nodes ++ (e.nodes ++ f.nodes), Q n :=
      List.forall_mem_append.mpr ⟨Scalar.resolve_allNodes hQ hscope hsub ht hte,
        List.forall_mem_append.mpr ⟨Scalar.resolve_allNodes hQ hscope hsub hx he,
          Scalar.resolve_allNodes hQ hscope hsub hy hf⟩⟩
    cases h
    exact List.forall_mem_cons.mpr ⟨hQ _ rfl, hnodes⟩
  | _, _, _, .subquery ⟨_, hover, _⟩, h => by
    obtain ⟨select, hselect, h⟩ := Traced.bind_eq_ok.mp h
    cases h
    exact List.forall_mem_singleton.mpr (hsub hover hscope hselect)
  | _, _, _, .composite _ _, h => by cases h

theorem Scalar.resolveList_allNodes (hQ : ∀ n : Sql.Expr, n.isComposed = true → Q n)
    (hscope : scope.Binds Q) (hsub : subqueries.Yield Q) :
    ∀ {xs ys : List Scalar} {es : List Sql.Expr}, Scalar.ListCoupled (.onAll env) xs ys →
      (Scalar.resolveList dialect subqueries scope position xs).outcome = .ok es →
        ∀ e ∈ es, e.AllNodes Q
  | _, _, _, .nil, h => by
    cases h
    simp
  | _, _, _, .cons hx hxs, h => by
    obtain ⟨e, he, h⟩ := Traced.bind_eq_ok.mp h
    obtain ⟨es, hes, h⟩ := Traced.bind_eq_ok.mp h
    cases h
    exact List.forall_mem_cons.mpr ⟨Scalar.resolve_allNodes hQ hscope hsub hx he,
      Scalar.resolveList_allNodes hQ hscope hsub hxs hes⟩
end

/-- **The scope of a statement**: its columns are those of what it selects from and of what is around
it, seen through any layers of records. -/
theorem Frame.scope_binds (hQ : ∀ n : Sql.Expr, n.isComposed = true → Q n)
    (hsub : subqueries.Yield Q) {frame : Frame}
    (hsource : ∀ owner member position e,
      frame.source.column? env.schema owner member position = .ok (some e) → Q e)
    (houter : ∀ scope, frame.outer = some scope → scope.Binds Q) {layers layers' : List Aliases}
    (hlayers : List.Forall₂ (Aliases.Coupled (.onAll env)) layers layers') :
    (frame.scope env subqueries layers).Binds Q := by
  induction hlayers with
  | nil =>
    intro token position e h
    obtain ⟨owner, _, hfound | ⟨_, scope, hscope, hcolumn⟩⟩ := Frame.bindToSource_eq_ok.mp h
    · obtain ⟨ref, rfl⟩ := Source.exists_column_of_column? hfound
      exact Sql.Expr.allNodes_column.mpr (hsource _ _ _ _ hfound)
    · exact houter scope hscope hcolumn
  | cons hlayer _ ih =>
    intro token position e h
    rcases Frame.bindThrough_cons_eq_ok.mp h with ⟨owner, target, _, hlookup, htarget⟩ | ⟨_, hbelow⟩
    · obtain ⟨_, _, hcoupled⟩ := (hlayer.lookup rfl).exists_of_eq_some hlookup
      exact Scalar.resolve_allNodes hQ ih hsub hcoupled htarget
    · exact ih hbelow

end Resolve

/-! ## 2. The parts of a selection -/

namespace Binder.Binds

variable {b : Binder}

theorem gives (hb : b.Binds Q) {x y : Scalar} (hx : x.Coupled (.onAll env) y) :
    b.Gives (·.AllNodes Q) x :=
  fun _ _ h => Scalar.resolve_allNodes hb.composed hb.scope hb.subqueries hx h

/-- An aggregate has the nodes of its argument. -/
theorem toSql (hb : b.Binds Q) (hcount : Q .countAll) {argument : Sql.Expr}
    (h : argument.AllNodes Q) (aggregate : Aggregate) : (aggregate.toSql argument).AllNodes Q := by
  cases aggregate with
  | count => exact List.forall_mem_singleton.mpr hcount
  | sum | min | max | average =>
    exact Sql.Expr.allNodes_call.mpr ⟨hb.composed _ rfl, List.forall_mem_singleton.mpr h⟩

end Binder.Binds

/-! ## 3. Selections -/

section Selection

variable {subqueries : Subqueries} {outer : Option Scope} {role : Role} {depth : Nat}
  {s : Statement} {ground : Ground} {select : Sql.Select}
  {lifted : List SortKey}

/-- **What a compiled selection selects from and joins**, by the form of its statement. -/
inductive Statement.SelectsFrom (env : Env) (subqueries : Subqueries) (outer : Option Scope)
    (depth : Nat) : Statement → Sql.From → List Sql.Join → Prop
  | table (clauses : Clauses) (rowType : String) (ref : Sql.TableRef) (label : Option String) :
      SelectsFrom env subqueries outer depth (.table clauses rowType) (.table ref label) []
  | join {clauses : Clauses} {left right : JoinedTable} {outerKey innerKey : Scalar}
      {result : Projection} {lifted : List SortKey} (ref ref' : Sql.TableRef)
      (leftKey rightKey : Sql.Expr) :
      SelectsFrom env subqueries outer depth
        (.join clauses left right outerKey innerKey result lifted) (.table ref none)
        [.inner ref' leftKey rightKey]
  | crossJoin {clauses : Clauses} {left right : Statement} {leftRow rightRow : Ty}
      {result : Projection} {leftSelect rightSelect : Sql.Select} {leftKeys rightKeys : List SortKey}
      (hleft : (left.toSelect env subqueries outer .crossJoinSource (depth + 1)).outcome
        = .ok (leftSelect, leftKeys))
      (hright : (right.toSelect env subqueries outer .crossJoinSource (depth + 1)).outcome
        = .ok (rightSelect, rightKeys)) :
      SelectsFrom env subqueries outer depth
        (.crossJoin clauses left right leftRow rightRow result)
        (.derived leftSelect "leftStatement") [.cross rightSelect "rightStatement"]

theorem Statement.selectsFrom_of_toSelect
    (h : (s.toSelect env subqueries outer role depth).outcome = .ok (select, lifted)) :
    ∃ clause joins, select.source = some clause ∧ select.joins = joins ∧
      s.SelectsFrom env subqueries outer depth clause joins := by
  obtain ⟨ground, hground, hparts⟩ := Statement.toSelect_eq_ok.mp h
  obtain ⟨list, joins, filter, orderBy, hjoins, _, _, _, rfl⟩ := Statement.assemble_eq_ok.mp hparts
  refine ⟨ground.clause, joins, rfl, rfl, ?_⟩
  cases s with
  | table clauses rowType =>
    obtain ⟨info, _, rfl⟩ := Ground.table_eq_ok.mp hground
    cases hjoins
    exact .table _ _ _ _
  | join clauses left right outerKey innerKey result lifted =>
    cases hground
    obtain ⟨leftKey, _, hjoins⟩ := Traced.bind_eq_ok.mp hjoins
    obtain ⟨rightKey, _, hjoins⟩ := Traced.bind_eq_ok.mp hjoins
    cases hjoins
    exact .join _ _ _ _
  | crossJoin clauses left right leftRow rightRow result =>
    obtain ⟨_, _, _, _, _, _, hleft, hright, _, _, rfl⟩ :=
      Statement.ground_crossJoin_eq_ok.mp hground
    cases hjoins
    exact .crossJoin hleft hright

/-- **The nodes of the expressions of a selection** have every property that composed nodes have and
that the scope of its statement keeps. -/
theorem Statement.assemble_nodes (hs : s.Coupled (.onAll env) s)
    (hground : (s.ground env subqueries outer depth).outcome = .ok ground)
    (hlifted : List.Forall₂ (SortKey.Coupled (.onAll env)) ground.lifted ground.lifted)
    (hb : (s.binder env subqueries outer depth ground.source).Binds Q) (hcount : Q .countAll)
    (halways : Q .always) (hdefault : s.FallsBack role → ∀ name, Q (.bareColumn name))
    (h : (s.assemble env subqueries outer role depth ground).outcome = .ok (select, lifted)) :
    ∀ e ∈ select.exprs, e.AllNodes Q := by
  refine Statement.forall_exprs hground rfl (hs.forall_joinKeys hb.gives)
    (hs.forall_projections hb.gives fun _ => rfl) (hs.forall_filter hb.gives) (fun k hk => ?_)
    (fun aggregate _ he => hb.toSql hcount he aggregate) (List.forall_mem_singleton.mpr hcount)
    (List.forall_mem_singleton.mpr halways)
    (fun hfalls name => Sql.Expr.allNodes_column.mpr (hdefault hfalls name)) h
  obtain ⟨_, _, hk⟩ := (List.rel_append hlifted hs.clauses.sortKeys).exists_of_mem hk
  exact hb.gives hk.key

/-! ## 4. Aggregates are plain -/

/-- A selection that stands for a value has no joins and no order, nor has any in it. -/
def Sql.Expr.PlainSelection (n : Sql.Expr) : Prop :=
  ∀ select, n = .subselect select → select.Everywhere Sql.Select.IsPlain

/-- What a statement is bound with, if aggregates are plain there. -/
theorem Statement.binder_plain (hsub : subqueries.Yield Sql.Expr.PlainSelection)
    (houter : ∀ scope, outer = some scope → scope.Binds Sql.Expr.PlainSelection)
    (hs : s.Coupled (.onAll env) s) (source : Source) :
    (s.binder env subqueries outer depth source).Binds Sql.Expr.PlainSelection := by
  have hcomposed : ∀ n : Sql.Expr, n.isComposed = true → n.PlainSelection := by
    rintro _ hn select rfl
    cases hn
  refine ⟨hcomposed, Frame.scope_binds hcomposed hsub ?_ houter hs.layers, hsub⟩
  rintro owner member position e hcolumn select rfl
  obtain ⟨_, ⟨⟩⟩ := Source.exists_column_of_column? hcolumn

/-- **The selections that stand for values in a compiled selection are plain everywhere.** -/
theorem Statement.plainSelection_of_assemble (hsub : subqueries.Yield Sql.Expr.PlainSelection)
    (houter : ∀ scope, outer = some scope → scope.Binds Sql.Expr.PlainSelection)
    (hs : s.Coupled (.onAll env) s)
    (hground : (s.ground env subqueries outer depth).outcome = .ok ground)
    (hlifted : List.Forall₂ (SortKey.Coupled (.onAll env)) ground.lifted ground.lifted)
    (h : (s.assemble env subqueries outer role depth ground).outcome = .ok (select, lifted)) :
    ∀ e ∈ select.exprs, e.AllNodes Sql.Expr.PlainSelection :=
  Statement.assemble_nodes hs hground hlifted (Statement.binder_plain hsub houter hs _)
    (by rintro _ ⟨⟩) (by rintro _ ⟨⟩) (by rintro _ _ _ ⟨⟩) h

/-- The rows of an aggregate are selected plainly. -/
theorem Statement.toSelect_table_plain (hsub : subqueries.Yield Sql.Expr.PlainSelection)
    (houter : ∀ scope, outer = some scope → scope.Binds Sql.Expr.PlainSelection)
    {clauses : Clauses} {rowType : String}
    (hs : (Statement.table clauses rowType).Coupled (.onAll env) (.table clauses rowType))
    (hrole : role ≠ .root)
    (h : ((Statement.table clauses rowType).toSelect env subqueries outer role depth).outcome
      = .ok (select, lifted)) : select.Everywhere Sql.Select.IsPlain := by
  obtain ⟨ground, hground, hparts⟩ := Statement.toSelect_eq_ok.mp h
  have hlifted : ground.lifted = [] := by
    obtain ⟨info, _, rfl⟩ := Ground.table_eq_ok.mp hground
    rfl
  have hnodes := Statement.plainSelection_of_assemble hsub houter hs hground (hlifted ▸ .nil) hparts
  have horder : select.orderBy = [] := by
    obtain ⟨_, _, _, _, _, _, _, horder, rfl⟩ := Statement.assemble_eq_ok.mp hparts
    exact Clauses.orderBy_eq_nil hrole horder
  obtain ⟨_, _, hclause, hjoins, hfrom⟩ := Statement.selectsFrom_of_toSelect h
  cases hfrom
  refine ⟨⟨hjoins, horder⟩, Sql.Select.forall_mem_parts.mpr ⟨?_, hnodes⟩⟩
  simp [Sql.Select.derived, hclause, hjoins, Sql.From.derived?]

/-- **Aggregates are plain**, nested to any depth. -/
theorem Correlated.toSelect_yield (env : Env) (levels : Nat) :
    Subqueries.Yield Sql.Expr.PlainSelection (Correlated.toSelect env levels) := by
  induction levels with
  | zero =>
    intro c _ scope _ select h
    cases h
  | succ levels ih =>
    rintro c hover scope hscope select h _ ⟨⟩
    obtain ⟨statement, hstatement, hselect⟩ := Correlated.toSelect_eq_ok.mp h
    have hs := (Query.toStatement_eq_ok.mp hstatement).coupled_onAll
    -- an aggregate is over a table, so there is nothing in it to join
    obtain ⟨clauses, rowType, rfl⟩ := hover.statement hstatement
    have houter : ∀ outer, some scope = some outer → outer.Binds Sql.Expr.PlainSelection := by
      rintro _ ⟨⟩
      exact hscope
    rcases hselect with ⟨_, pairs, lifted, hpairs, rfl⟩ | ⟨_, lifted, hselect⟩
    · have hpairs := Statement.toSelect_table_plain ih houter hs (by simp) hpairs
      refine ⟨⟨rfl, rfl⟩, Sql.Select.forall_mem_parts.mpr ⟨List.forall_mem_singleton.mpr hpairs, ?_⟩⟩
      -- what is selected from the pairs is an aggregate of their values
      cases c.aggregate <;>
        simp [Sql.Select.exprs, Sql.Select.fromDerived, Sql.SelectList.exprs, Aggregate.toSql,
          Sql.Expr.AllNodes, Sql.Expr.nodes, Sql.Expr.listNodes, Sql.Expr.bareColumn, Sql.Expr.always]
    · exact Statement.toSelect_table_plain ih houter hs (by simp) hselect

section Everywhere

variable {P : Sql.Select → Prop} {levels : Nat}

/-- The keys of the sides of a statement with nothing around it. -/
theorem Statement.lifted_coupled (hs : s.Coupled (.onAll env) s)
    (hground : (s.ground env (Correlated.toSelect env levels) none depth).outcome = .ok ground) :
    List.Forall₂ (SortKey.Coupled (.onAll env)) ground.lifted ground.lifted := by
  have hself : Subqueries.Coupled (.onAll env) (Correlated.toSelect env levels)
      (Correlated.toSelect env levels) :=
    Correlated.toSelect_coupled Coupling.renaming_sound (Nat.le_refl _) fun h => h.1.elim
  exact ((hs.ground hself .none depth).related hground hground).lifted

/-- **A property of plain selections holds everywhere in the parts of a compiled selection if it does
in its derived tables.** -/
theorem Statement.parts_toSelect_iff (hP : ∀ t, t.IsPlain → P t) (hs : s.Coupled (.onAll env) s)
    (h : (s.toSelect env (Correlated.toSelect env levels) none role depth).outcome
      = .ok (select, lifted)) :
    (∀ t ∈ select.parts, t.Everywhere P) ↔ ∀ t ∈ select.derived, t.Everywhere P := by
  obtain ⟨ground, hground, hparts⟩ := Statement.toSelect_eq_ok.mp h
  have hnodes := Statement.plainSelection_of_assemble (Correlated.toSelect_yield env levels)
    (by rintro _ ⟨⟩) hs hground (Statement.lifted_coupled hs hground) hparts
  rw [Sql.Select.forall_mem_parts]
  exact and_iff_left fun e he n hn t ht => (hnodes e he n hn t ht).mono hP

theorem Statement.everywhere_toSelect_iff (hP : ∀ t, t.IsPlain → P t)
    (hs : s.Coupled (.onAll env) s)
    (h : (s.toSelect env (Correlated.toSelect env levels) none role depth).outcome
      = .ok (select, lifted)) :
    select.Everywhere P ↔ P select ∧ ∀ t ∈ select.derived, t.Everywhere P := by
  rw [Sql.Select.everywhere_iff, Statement.parts_toSelect_iff hP hs h]

end Everywhere

end Selection

end ChainQuery
