import ChainQuery.Proofs.Compile.Scopes
import ChainQuery.Schema.Shop
/-!
# Unqualified columns

A column without a qualifier is one of the only table in scope, so it belongs into a selection that
joins nothing (`Sql.Select.BareAlone`).  The columns that a query reads are never bound to one in a
join: tables that are joined qualify them by their names, and derived tables by their aliases.

But a select list that finds no column to select falls back on the columns of the type of its rows, by
their bare names and whatever they are selected from.  Over a join these can be columns of more than
one table.  `Query.bareAlone_of_toSelect` says that this is the only way, and
`Query.not_bareAlone_orders` has a query that goes it.
-/

namespace ChainQuery

/-! ## 1. Queries that fall back on their rows -/

/-- Whether a lambda reads no column, and builds no member of its record if these are selected under
their names. -/
def Lambda.readsNoColumn (env : Env) (arity : Nat) (exportsMembers : Bool) (l : Lambda) : Bool :=
  match (l.read env arity).outcome with
  | .ok p => p.columns.isEmpty && !(exportsMembers && !p.recordMembers.isEmpty)
  | .error _ => false

/-- **Whether the select list of a chain over a join falls back on the type of its rows**: its
projection reads no column, or the result selector of the join if there is no projection. -/
def Query.joinFallsBack (env : Env) (role : Role) (q : Query) : Bool :=
  match q.base with
  | .join _ _ _ _ result | .crossJoin _ _ result =>
    match q.projections with
    | [] => result.readsNoColumn env 2 false
    | selector :: _ => selector.readsNoColumn env 1 role.exportsMembers
  | _ => false

variable {env : Env}

theorem Lambda.readsNoColumn_of_read {arity : Nat} {exportsMembers : Bool} {l : Lambda}
    {p : Projection} (h : (l.read env arity).outcome = .ok p) :
    l.readsNoColumn env arity exportsMembers = true ↔
      p.columns = [] ∧ (exportsMembers = true → p.recordMembers = []) := by
  unfold Lambda.readsNoColumn
  rw [h]
  cases exportsMembers <;> simp

section Statement

variable {role : Role} {q : Query} {s : Statement}

theorem Statement.fallsBack_of_select {p : Projection} (hselect : s.clauses.select = some p) :
    s.FallsBack role ↔ p.columns = [] ∧ (role.exportsMembers = true → p.recordMembers = []) := by
  unfold Statement.FallsBack
  rw [Statement.exportedMembers?_eq, hselect]
  cases role.exportsMembers <;> simp [and_comm]

theorem Statement.fallsBack_of_result {p : Projection} (hselect : s.clauses.select = none)
    (hresult : s.result? = some p) : s.FallsBack role ↔ p.columns = [] := by
  unfold Statement.FallsBack
  rw [Statement.exportedMembers?_eq, hselect, hresult]
  simp

/-- The projections of a chain over a join, and whether they fall back. -/
theorem Statement.fallsBack_iff {result : Lambda} {p : Projection}
    (hselect : Clauses.Taken env q.projections none s.clauses.select)
    (hresult : s.result? = some p) (hread : (result.read env 2).outcome = .ok p) :
    s.FallsBack role ↔
      (match q.projections with
        | [] => result.readsNoColumn env 2 false
        | selector :: _ => selector.readsNoColumn env 1 role.exportsMembers) = true := by
  generalize hchosen : s.clauses.select = select at hselect
  generalize q.projections = ls at hselect
  cases hselect with
  | none =>
    rw [Statement.fallsBack_of_result hchosen hresult, Lambda.readsNoColumn_of_read hread]
    simp
  | one hselector =>
    rw [Statement.fallsBack_of_select hchosen, Lambda.readsNoColumn_of_read hselector]

/-- **The select list of a statement over a join falls back if that of its query does.** -/
theorem Query.Gathers.joinFallsBack_iff (h : q.Gathers env {} s) :
    q.joinFallsBack env role = true ↔ s.rowType? = none ∧ s.FallsBack role := by
  unfold Query.joinFallsBack
  cases s with
  | table clauses rowType =>
    rw [h.base_table]
    simp [Statement.rowType?]
  | join clauses left right outerKey innerKey p lifted =>
    obtain ⟨_, _, _, _, result, _, _, hbase, hread, _⟩ := h.base_join
    rw [hbase, Statement.fallsBack_iff h.select_taken rfl hread]
    simp [Statement.rowType?]
  | crossJoin clauses left right leftRow rightRow p =>
    obtain ⟨_, _, result, hbase, hread, _⟩ := h.base_crossJoin
    rw [hbase, Statement.fallsBack_iff h.select_taken rfl hread]
    simp [Statement.rowType?]

end Statement

/-! ## 2. The columns of a selection -/

section Selection

variable {subqueries : Subqueries} {role : Role} {depth : Nat} {q : Query}
  {s : Statement} {select : Sql.Select} {lifted : List SortKey}

theorem Sql.Expr.bareColumns_eq_nil {e : Sql.Expr} :
    e.bareColumns = [] ↔ e.AllNodes (·.bareName? = none) :=
  List.filterMap_eq_nil_iff

/-- The columns of joins are qualified. -/
theorem Statement.ground_qualified (hs : s.rowType? = none) {ground : Ground}
    (hground : (s.ground env subqueries none depth).outcome = .ok ground) {owner : Ty}
    {member : String} {position : Position} {e : Sql.Expr}
    (h : ground.source.column? env.schema owner member position = .ok (some e)) :
    e.bareName? = none := by
  cases s with
  | table clauses rowType => cases hs
  | join clauses left right outerKey innerKey result keys =>
    cases hground
    obtain ⟨_, _, _, _, rfl⟩ := Source.column?_join_eq_some h
    rfl
  | crossJoin clauses left right leftRow rightRow result =>
    obtain ⟨_, _, _, _, _, _, _, _, _, _, rfl⟩ := Statement.ground_crossJoin_eq_ok.mp hground
    obtain ⟨_, _, _, rfl⟩ := Source.column?_crossJoin_eq_some h
    rfl

/-- **A join that does not fall back refers to no column by its bare name.** -/
theorem Statement.bareColumns_eq_nil {levels : Nat} (hs : s.Coupled (.onAll env) s)
    (hjoin : s.rowType? = none) (hfalls : ¬s.FallsBack role)
    (h : (s.toSelect env (Correlated.toSelect env levels) none role depth).outcome
      = .ok (select, lifted)) :
    ∀ e ∈ select.exprs, e.bareColumns = [] := by
  obtain ⟨ground, hground, hparts⟩ := Statement.toSelect_eq_ok.mp h
  have hcomposed : ∀ n : Sql.Expr, n.isComposed = true → n.bareName? = none := by
    intro n hn
    cases n with
    | column ref => cases hn
    | _ => rfl
  have hsub : (Correlated.toSelect env levels).Yield (·.bareName? = none) := fun _ _ _ _ _ _ => rfl
  have hb : (s.binder env (Correlated.toSelect env levels) none depth ground.source).Binds
      (·.bareName? = none) :=
    ⟨hcomposed, Frame.scope_binds hcomposed hsub
      (fun _ _ _ _ => Statement.ground_qualified hjoin hground) (by rintro _ ⟨⟩) hs.layers, hsub⟩
  intro e he
  exact Sql.Expr.bareColumns_eq_nil.mpr (Statement.assemble_nodes hs hground
    (Statement.lifted_coupled hs hground) hb rfl rfl (fun h => absurd h hfalls) hparts e he)

/-- **A select list that falls back has a bare column.** -/
theorem Statement.exists_bareColumn (hrole : role = .root ∨ role = .crossJoinSource)
    (hfalls : s.FallsBack role)
    (h : (s.toSelect env subqueries none role depth).outcome = .ok (select, lifted)) :
    ∃ e ∈ select.exprs, e.bareColumns ≠ [] := by
  obtain ⟨ground, hground, hparts⟩ := Statement.toSelect_eq_ok.mp h
  obtain ⟨list, _, _, _, _, hlist, _, _, rfl⟩ := Statement.assemble_eq_ok.mp hparts
  -- in both roles the select list is one of rows, not of an aggregate
  have hlist : (s.rowList (s.binder env subqueries none depth ground.source) role).outcome
      = .ok list := by
    rcases hrole with rfl | rfl
    · exact hlist
    · exact hlist
  unfold Statement.rowList at hlist
  rw [hfalls.1, hfalls.2] at hlist
  dsimp only at hlist
  split at hlist
  · obtain ⟨names, hnames, hlist⟩ := Traced.bind_eq_ok.mp hlist
    cases hlist
    obtain ⟨name, hname⟩ := List.exists_mem_of_ne_nil names (defaultColumns_ne_nil hnames)
    refine ⟨.bareColumn name, ?_, List.cons_ne_nil name []⟩
    exact List.mem_append_left _ (List.mem_append_left _ (List.mem_map_of_mem hname))
  · cases hlist

/-- Only tables are selected from without a join. -/
theorem Statement.joins_eq_nil_iff
    (h : (s.toSelect env subqueries none role depth).outcome = .ok (select, lifted)) :
    select.joins = [] ↔ s.rowType? ≠ none := by
  obtain ⟨_, _, _, hjoins, hfrom⟩ := Statement.selectsFrom_of_toSelect h
  rw [hjoins]
  cases hfrom <;> simp [Statement.rowType?]

/-- **When the bare columns of a selection are alone**: always, unless it joins something and its
select list falls back. -/
theorem Statement.bareAlone_iff {levels : Nat} (hrole : role = .root ∨ role = .crossJoinSource)
    (hs : s.Coupled (.onAll env) s)
    (h : (s.toSelect env (Correlated.toSelect env levels) none role depth).outcome
      = .ok (select, lifted)) :
    select.BareAlone ↔ ¬(s.rowType? = none ∧ s.FallsBack role) := by
  constructor
  · rintro (hjoins | hbare) ⟨hjoin, hfalls⟩
    · exact (Statement.joins_eq_nil_iff h).mp hjoins hjoin
    · obtain ⟨e, he, hne⟩ := Statement.exists_bareColumn hrole hfalls h
      exact hne (hbare e he)
  · intro hnot
    by_cases hjoin : s.rowType? = none
    · exact Or.inr (Statement.bareColumns_eq_nil hs hjoin (fun hfalls => hnot ⟨hjoin, hfalls⟩) h)
    · exact Or.inl ((Statement.joins_eq_nil_iff h).mpr hjoin)

/-- **The bare columns of all selections in a compiled one are alone if no scope falls back over a
join.** -/
theorem Statement.everywhere_bareAlone_iff {levels : Nat}
    (hrole : role = .root ∨ role = .crossJoinSource) (hq : q.Gathers env {} s)
    (h : (s.toSelect env (Correlated.toSelect env levels) none role depth).outcome
      = .ok (select, lifted)) :
    select.Everywhere Sql.Select.BareAlone ↔
      q.joinFallsBack env role = false ∧
        ∀ scope ∈ q.innerScopes, scope.joinFallsBack env .crossJoinSource = false := by
  have hplain : ∀ t : Sql.Select, t.IsPlain → t.BareAlone := fun _ ht => Or.inl ht.1
  refine Statement.everywhere_iff_scopes (fun role scope => scope.joinFallsBack env role = false)
    hplain ?_ hrole hq h
  intro role depth q s select lifted hrole hq h
  rw [Statement.bareAlone_iff hrole hq.coupled_onAll h, ← hq.joinFallsBack_iff, Bool.not_eq_true]

end Selection

/-! ## 3. Queries -/

/-- **Unqualified columns are unambiguous, unless a select list falls back over a join.**  In a
compiled query, every selection that refers to a column by its bare name joins nothing, if and only if
neither the outermost scope nor a side of a cross join has a select list over a join that falls back on
the type of its rows. -/
theorem Query.bareAlone_of_toSelect {env : Env} {q : Query} {select : Sql.Select}
    (h : (q.toSelect env).outcome = .ok select) :
    select.Everywhere Sql.Select.BareAlone ↔
      q.joinFallsBack env .root = false ∧
        ∀ scope ∈ q.innerScopes, scope.joinFallsBack env .crossJoinSource = false := by
  obtain ⟨s, lifted, hs, hselect⟩ := Query.toSelect_eq_ok.mp h
  exact Statement.everywhere_bareAlone_iff (Or.inl rfl) (Query.toStatement_eq_ok.mp hs) hselect

/-- The numbers of customers and of their orders: every column of the join is qualified. -/
theorem Query.bareAlone_of_toSelect_numbers :
    let env : Env := ⟨Shop.schema, {}⟩
    let c : Parameter := ⟨"c", .row "Customer"⟩
    let o : Parameter := ⟨"o", .row "Order"⟩
    let pair : Ty := .record "Pair" [("First", .scalar .int32), ("Second", .scalar .int32)]
    let q := Query.join (.table "Customer") (.table "Order") ⟨[c], Shop.field c "Id"⟩
      ⟨[o], Shop.field o "CustomerId"⟩
      ⟨[c, o], .new pair [("First", Shop.field c "Id"), ("Second", Shop.field o "Id")]⟩
    ∃ select, (q.toSelect env).outcome = .ok select ∧ select.joins.length = 1 ∧
      q.joinFallsBack env .root = false ∧ q.innerScopes = [] ∧
      select.Everywhere Sql.Select.BareAlone := by
  intro env c o pair q
  have hselect : (q.toSelect env).outcome = .ok _ := rfl
  have hfalls : q.joinFallsBack env .root = false := rfl
  have hscopes : q.innerScopes = [] := rfl
  refine ⟨_, hselect, rfl, hfalls, hscopes, (Query.bareAlone_of_toSelect hselect).mpr ⟨hfalls, ?_⟩⟩
  simp [hscopes]

/-- **The orders of a join have no qualifier.**  The result selector returns the order itself, so the
columns of orders are selected by their bare names, while customers have a column `Id` too. -/
theorem Query.not_bareAlone_orders :
    let env : Env := ⟨Shop.schema, {}⟩
    let c : Parameter := ⟨"c", .row "Customer"⟩
    let o : Parameter := ⟨"o", .row "Order"⟩
    let q := Query.join (.table "Customer") (.table "Order") ⟨[c], Shop.field c "Id"⟩
      ⟨[o], Shop.field o "CustomerId"⟩ ⟨[c, o], .parameter "o" o.type⟩
    ∃ select, (q.toSelect env).outcome = .ok select ∧
      select.list.exprs = [.bareColumn "Id", .bareColumn "CustomerId", .bareColumn "Amount"] ∧
      select.joins.length = 1 ∧ ¬select.Everywhere Sql.Select.BareAlone := by
  refine ⟨_, rfl, rfl, rfl, ?_⟩
  rintro ⟨hjoins | hbare, _⟩
  · cases hjoins
  · cases hbare (.bareColumn "Id") List.mem_cons_self

end ChainQuery
