import ChainQuery.Proofs.Compile.Selection
import ChainQuery.Proofs.Sql.Nesting
/-!
# The parts of a selection

The expressions in the parts of a selection are scalars of its statement as they were bound, aggregates of
such, or stand for no scalar at all.  So a property of expressions holds in a select list, in a filter, in
the keys of a join or of an order if the scalars of that part are bound to expressions that have it
(`Binder.Gives`), and it holds in the selection if it holds in its parts (`Statement.forall_exprs`).

Of what stands for no scalar, the bare columns are only there where a select list falls back on the type of
its rows (`Statement.FallsBack`).
-/

namespace ChainQuery

/-! ## 1. What a statement binds -/

/-- The scalars of a lambda with its body read. -/
def Projection.scalars (p : Projection) : List Scalar :=
  p.body :: p.columns ++ p.aliases.map Prod.snd

theorem Projection.mem_scalars_of_mem_recordMembers {p : Projection} {m : String × Scalar}
    (h : m ∈ p.recordMembers) : m.2 ∈ p.scalars := by
  obtain ⟨a, ha, rfl⟩ := List.mem_map.mp h
  exact List.mem_append_right _ (List.mem_map_of_mem (List.mem_filter.mp ha).1)

/-- The keys of an equi-join. -/
def Statement.joinKeys : Statement → List Scalar
  | .join _ _ _ outerKey innerKey _ _ => [outerKey, innerKey]
  | .table .. | .crossJoin .. => []

/-- The columns that a statement selects are those of its projection or of its result selector. -/
theorem Statement.mem_scalars_of_columns {s : Statement} {x : Scalar}
    (h : x ∈ ((s.clauses.select <|> s.result?).map Projection.columns).getD []) :
    ∃ p ∈ s.clauses.select.toList ++ s.result?.toList, x ∈ p.scalars := by
  obtain ⟨p, hp, hcolumn⟩ : ∃ p ∈ s.clauses.select.toList ++ s.result?.toList, x ∈ p.columns := by
    cases hselect : s.clauses.select with
    | some p => exact ⟨p, by simp, by simpa [hselect] using h⟩
    | none =>
      cases hresult : s.result? with
      | some p => exact ⟨p, by simp, by simpa [hselect, hresult] using h⟩
      | none => simp [hselect, hresult] at h
  exact ⟨p, hp, List.mem_append_left _ (List.mem_cons_of_mem _ hcolumn)⟩

/-- **A select list falls back on the type of the rows**: no members are selected under their names,
and the projection reads no column. -/
def Statement.FallsBack (role : Role) (s : Statement) : Prop :=
  s.exportedMembers? role = none ∧
    ((s.clauses.select <|> s.result?).map Projection.columns).getD [] = []

/-! ## 2. The parts -/

/-- What a scalar is bound to has a property, wherever it stands. -/
def Binder.Gives (b : Binder) (P : Sql.Expr → Prop) (x : Scalar) : Prop :=
  ∀ ⦃position : Position⦄ ⦃e : Sql.Expr⦄, (b.resolve position x).outcome = .ok e → P e

variable {env : Env} {subqueries : Subqueries} {outer : Option Scope} {role : Role} {depth : Nat}
  {b : Binder} {P : Sql.Expr → Prop} {s : Statement}

/-- The select list of rows. -/
theorem Statement.forall_rowList {list : Sql.SelectList}
    (hbound : ∀ p ∈ s.clauses.select.toList ++ s.result?.toList, ∀ x ∈ p.scalars, b.Gives P x)
    (hbare : s.FallsBack role → ∀ name, P (.bareColumn name))
    (h : (s.rowList b role).outcome = .ok list) : ∀ e ∈ list.exprs, P e := by
  unfold rowList at h
  split at h
  · rename_i members hmembers
    obtain ⟨p, hselect, rfl⟩ := exportedMembers?_eq_some hmembers
    obtain ⟨items, hitems, h⟩ := Traced.bind_eq_ok.mp h
    cases h
    intro _ hitem
    obtain ⟨item, hmem, rfl⟩ := List.mem_map.mp hitem
    obtain ⟨m, hm, h⟩ := Traced.exists_of_mem_mapM hitems hmem
    obtain ⟨e, he, h⟩ := Traced.bind_eq_ok.mp h
    cases h
    exact hbound p (by simp [hselect]) m.2 (Projection.mem_scalars_of_mem_recordMembers hm) he
  · rename_i hmembers
    split at h
    · rename_i hcolumns
      split at h
      · obtain ⟨names, _, h⟩ := Traced.bind_eq_ok.mp h
        cases h
        exact List.forall_mem_map.mpr fun name _ => hbare ⟨hmembers, hcolumns⟩ name
      · cases h
    · obtain ⟨items, hitems, h⟩ := Traced.bind_eq_ok.mp h
      cases h
      intro e he
      obtain ⟨x, hx, he⟩ := Traced.exists_of_mem_mapM hitems he
      obtain ⟨p, hp, hx⟩ := mem_scalars_of_columns hx
      exact hbound p hp x hx he

/-- **The select list of a statement.** -/
theorem Statement.forall_selectList {list : Sql.SelectList}
    (hbound : ∀ p ∈ s.clauses.select.toList ++ s.result?.toList, ∀ x ∈ p.scalars, b.Gives P x)
    (haggregate : ∀ a e, P e → P (Aggregate.toSql e a)) (hcount : P .countAll)
    (hbare : s.FallsBack role → ∀ name, P (.bareColumn name))
    (h : (s.selectList b role).outcome = .ok list) : ∀ e ∈ list.exprs, P e := by
  cases role with
  | root | crossJoinSource | correlatedPairs => exact forall_rowList hbound hbare h
  | correlated a =>
    unfold selectList aggregateList at h
    dsimp only at h
    split at h
    · cases h
      exact List.forall_mem_singleton.mpr hcount
    · rename_i p _ hselect
      obtain ⟨e, he, h⟩ := Traced.bind_eq_ok.mp h
      cases h
      exact List.forall_mem_singleton.mpr
        (haggregate _ _ (hbound p (by simp [hselect]) p.body List.mem_cons_self he))
    · cases h

/-- The filter of a statement. -/
theorem Clauses.filterExpr_gives {clauses : Clauses}
    (hbound : ∀ p, clauses.filter = some p → b.Gives P p.body) (halways : P .always) {e : Sql.Expr}
    (h : (clauses.filterExpr b).outcome = .ok e) : P e := by
  unfold filterExpr at h
  split at h
  · rename_i p hfilter
    exact hbound p hfilter h
  · cases h
    exact halways

/-- The keys that a statement orders by. -/
theorem Clauses.forall_order {clauses : Clauses} {keys lifted : List SortKey}
    (hbound : ∀ k ∈ keys, b.Gives P k.key) {orderBy : List (Sql.Expr × Sql.Direction)}
    (h : (clauses.order b role keys).outcome = .ok (orderBy, lifted)) :
    ∀ key ∈ orderBy, P key.1 := by
  cases role with
  | root =>
    intro item hitem
    obtain ⟨k, hk, hitem⟩ := Traced.exists_of_mem_mapM (order_root_eq_ok.mp h).1 hitem
    obtain ⟨e, he, hitem⟩ := Traced.bind_eq_ok.mp hitem
    cases hitem
    exact hbound k hk he
  | crossJoinSource | correlated | correlatedPairs =>
    rw [orderBy_eq_nil (by simp) h]
    simp

/-- The keys of the join of a statement. -/
theorem Statement.forall_joins {ground : Ground}
    (hground : (s.ground env subqueries outer depth).outcome = .ok ground)
    (hbound : ∀ x ∈ s.joinKeys, b.Gives P x) {joins : List Sql.Join}
    (h : (ground.joins b).outcome = .ok joins) : ∀ e ∈ joins.flatMap Sql.Join.keys, P e := by
  cases s with
  | table clauses rowType =>
    obtain ⟨info, _, rfl⟩ := Ground.table_eq_ok.mp hground
    cases h
    simp
  | join clauses left right outerKey innerKey result keys =>
    cases hground
    have houter := hbound outerKey List.mem_cons_self
    have hinner := hbound innerKey (List.mem_cons_of_mem _ List.mem_cons_self)
    obtain ⟨leftKey, hleft, h⟩ := Traced.bind_eq_ok.mp h
    obtain ⟨rightKey, hright, h⟩ := Traced.bind_eq_ok.mp h
    cases h
    simpa [Sql.Join.keys] using ⟨houter hleft, hinner hright⟩
  | crossJoin clauses left right leftRow rightRow result =>
    obtain ⟨_, _, _, _, _, _, _, _, _, _, rfl⟩ := ground_crossJoin_eq_ok.mp hground
    cases h
    simp [Sql.Join.keys]

/-! ## 3. The selection -/

/-- **The expressions of a selection** have every property that its scalars are bound to, and that what
stands for no scalar has. -/
theorem Statement.forall_exprs {ground : Ground} {select : Sql.Select} {lifted : List SortKey}
    (hground : (s.ground env subqueries outer depth).outcome = .ok ground)
    (hb : s.binder env subqueries outer depth ground.source = b)
    (hjoin : ∀ x ∈ s.joinKeys, b.Gives P x)
    (hselect : ∀ p ∈ s.clauses.select.toList ++ s.result?.toList, ∀ x ∈ p.scalars, b.Gives P x)
    (hfilter : ∀ p, s.clauses.filter = some p → b.Gives P p.body)
    (hkeys : ∀ k ∈ ground.lifted ++ s.clauses.orderings.map OrderingClause.sortKey, b.Gives P k.key)
    (haggregate : ∀ a e, P e → P (Aggregate.toSql e a)) (hcount : P .countAll)
    (halways : P .always) (hbare : s.FallsBack role → ∀ name, P (.bareColumn name))
    (h : (s.assemble env subqueries outer role depth ground).outcome = .ok (select, lifted)) :
    ∀ e ∈ select.exprs, P e := by
  subst hb
  obtain ⟨list, joins, filter, orderBy, hjoins, hlist, hfilterExpr, horder, rfl⟩ := assemble_eq_ok.mp h
  refine List.forall_mem_append.mpr ⟨List.forall_mem_append.mpr ⟨?_, ?_⟩,
    List.forall_mem_cons.mpr ⟨?_, List.forall_mem_map.mpr ?_⟩⟩
  · exact forall_selectList hselect haggregate hcount hbare hlist
  · exact forall_joins hground hjoin hjoins
  · exact Clauses.filterExpr_gives hfilter halways hfilterExpr
  · exact Clauses.forall_order hkeys horder

end ChainQuery
