import ChainQuery.Proofs.Compile.Binding
import ChainQuery.Proofs.Compile.Parts
import ChainQuery.Proofs.Sql.Scoping
import ChainQuery.Schema.Shop
/-!
# Every compiled statement is well scoped

A column is bound through the records of its statement, then against the source of the statement,
then in the scopes around it, and an aggregate is compiled in whatever scope its scalar is bound in,
which may be that of an outer statement.  `Query.wellScoped_of_toSelect` says that a name never escapes
on the way: every qualified column of the result names a table that is exposed where the column
stands.

The invariant relates the scopes of the compiler to those of the text.  A scope is sound for a list
of names if it binds columns to expressions that need no others (`Scope.Sound`); a way to compile
aggregates is sound if in every sound scope its selections need no more than the scope provides
(`Subqueries.Sound`).  The scope of a statement is sound for the names of its source and those for
which the scope around it is sound (`Frame.scope_sound`), and these are the names that the selection
sees (`Ground.Sound`).
-/

namespace ChainQuery

open Sql (TableRef)

/-! ## 1. Sound scopes -/

/-- **A scope is sound for the names in a list**: the columns that it binds name no other tables. -/
def Scope.Sound (visible : List TableRef) (scope : Scope) : Prop :=
  ∀ ⦃token : ColumnToken⦄ ⦃position : Position⦄ ⦃e : Sql.Expr⦄,
    (scope.column token position).outcome = .ok e → e.WellScoped visible

/-- **Aggregates are compiled soundly**: their selections name what the scope around is sound
for. -/
def Subqueries.Sound (subqueries : Subqueries) : Prop :=
  ∀ ⦃visible : List TableRef⦄ ⦃scope : Scope⦄ ⦃c : Correlated⦄ ⦃select : Sql.Select⦄,
    scope.Sound visible → (subqueries c scope).outcome = .ok select → select.WellScoped visible

/-- What is around a statement is sound for the names outside. -/
def Scope.OuterSound (outside : List TableRef) (outer : Option Scope) : Prop :=
  ∀ scope, outer = some scope → scope.Sound outside

theorem Literal.toSql_wellScoped {visible : List TableRef} {v : Literal} {e : Sql.Expr}
    (h : v.toSql = .ok e) : e.WellScoped visible := by
  cases v <;> cases h <;> trivial

section Resolve

variable {dialect : Dialect} {subqueries : Subqueries} {scope : Scope} {position : Position}
  {visible : List TableRef}

mutual
/-- **A scalar bound in a sound scope is well scoped.** -/
theorem Scalar.resolve_wellScoped (hscope : scope.Sound visible) (hsub : subqueries.Sound) :
    ∀ {s : Scalar} {e : Sql.Expr},
      (s.resolve dialect subqueries scope position).outcome = .ok e → e.WellScoped visible
  | .column _, _, h => hscope h
  | .value _, _, h => Literal.toSql_wellScoped h
  | .null, _, h => by
    cases h
    trivial
  | .binary _ left right, _, h => by
    rcases Scalar.resolve_binary_cases h with ⟨x, hx, he⟩ | ⟨x, y, hx, hy, he⟩
    · have hscoped : x.WellScoped visible := by
        rcases hx with ⟨_, hx⟩ | ⟨_, hx⟩
        · exact Scalar.resolve_wellScoped hscope hsub hx
        · exact Scalar.resolve_wellScoped hscope hsub hx
      rcases he with ⟨_, rfl⟩ | ⟨_, rfl⟩
      · exact hscoped
      · exact hscoped
    · have hboth : x.WellScoped visible ∧ y.WellScoped visible :=
        ⟨Scalar.resolve_wellScoped hscope hsub hx, Scalar.resolve_wellScoped hscope hsub hy⟩
      rcases he with ⟨_, rfl⟩ | ⟨_, rfl⟩ | ⟨_, rfl, _⟩
      · exact hboth
      · exact hboth
      · exact hboth
  | .not operand, _, h => by
    obtain ⟨x, hx, h⟩ := Traced.bind_eq_ok.mp h
    have hscoped : x.WellScoped visible := Scalar.resolve_wellScoped hscope hsub hx
    cases h
    exact hscoped
  | .negate operand, _, h => by
    obtain ⟨x, hx, h⟩ := Traced.bind_eq_ok.mp h
    have hscoped : x.WellScoped visible := Scalar.resolve_wellScoped hscope hsub hx
    cases h
    exact hscoped
  | .function f args, _, h => by
    obtain ⟨xs, hxs, h⟩ := Traced.bind_eq_ok.mp h
    cases h
    exact Scalar.resolveList_wellScoped hscope hsub hxs
  | .like subject pattern _, _, h => by
    obtain ⟨x, hx, h⟩ := Traced.bind_eq_ok.mp h
    obtain ⟨y, hy, h⟩ := Traced.bind_eq_ok.mp h
    cases h
    exact ⟨Scalar.resolve_wellScoped hscope hsub hx, Scalar.resolve_wellScoped hscope hsub hy⟩
  | .case test ifTrue ifFalse, _, h => by
    obtain ⟨t, ht, h⟩ := Traced.bind_eq_ok.mp h
    obtain ⟨x, hx, h⟩ := Traced.bind_eq_ok.mp h
    obtain ⟨y, hy, h⟩ := Traced.bind_eq_ok.mp h
    cases h
    exact ⟨Scalar.resolve_wellScoped hscope hsub ht, Scalar.resolve_wellScoped hscope hsub hx,
      Scalar.resolve_wellScoped hscope hsub hy⟩
  | .subquery c, _, h => by
    obtain ⟨select, hselect, h⟩ := Traced.bind_eq_ok.mp h
    cases h
    exact hsub hscope hselect
  | .composite _, _, h => by cases h

theorem Scalar.resolveList_wellScoped (hscope : scope.Sound visible) (hsub : subqueries.Sound) :
    ∀ {args : List Scalar} {es : List Sql.Expr},
      (Scalar.resolveList dialect subqueries scope position args).outcome = .ok es →
        Sql.Expr.ListWellScoped visible es
  | [], _, h => by
    cases h
    trivial
  | s :: rest, _, h => by
    obtain ⟨x, hx, h⟩ := Traced.bind_eq_ok.mp h
    obtain ⟨xs, hxs, h⟩ := Traced.bind_eq_ok.mp h
    cases h
    exact ⟨Scalar.resolve_wellScoped hscope hsub hx, Scalar.resolveList_wellScoped hscope hsub hxs⟩
end

end Resolve

/-! ## 2. The scope of a statement -/

/-- The names of the tables of a source. -/
def Source.names : Source → List TableRef
  | .table _ label => [.aliased label]
  | .join left right => [.table left.table, .table right.table]
  | .crossJoin left right => [.aliased left.label, .aliased right.label]

theorem JoinedTable.column?_wellScoped {schema : Schema} {owner : Ty} {member : String}
    {t : JoinedTable} {visible : List TableRef} (ht : .table t.table ∈ visible) {e : Sql.Expr}
    (h : t.column? schema owner member = .ok (some e)) : e.WellScoped visible := by
  unfold JoinedTable.column? at h
  split at h
  · obtain ⟨name, _, h⟩ := Except.bind_eq_ok.mp h
    cases h
    exact ht
  · cases h

theorem DerivedTable.column?_wellScoped {owner : Ty} {member : String} {t : DerivedTable}
    {visible : List TableRef} (ht : .aliased t.label ∈ visible) {e : Sql.Expr}
    (h : t.column? owner member = some e) : e.WellScoped visible := by
  unfold DerivedTable.column? at h
  split at h
  · cases h
    exact ht
  · cases h

/-- **The columns of a source name its tables.** -/
theorem Source.column?_wellScoped {schema : Schema} {owner : Ty} {member : String}
    {position : Position} {source : Source} {e : Sql.Expr}
    (h : source.column? schema owner member position = .ok (some e)) :
    e.WellScoped source.names := by
  cases source with
  | table rowType label =>
    rw [Source.column?] at h
    split at h
    · obtain ⟨name, _, h⟩ := Except.bind_eq_ok.mp h
      cases position with
      | selectList =>
        cases h
        trivial
      | predicate =>
        cases h
        exact List.mem_cons_self
    · cases h
  | join left right =>
    obtain ⟨found, hleft, h⟩ := Except.bind_eq_ok.mp h
    cases found with
    | some column =>
      cases h
      exact JoinedTable.column?_wellScoped List.mem_cons_self hleft
    | none =>
      exact JoinedTable.column?_wellScoped (List.mem_cons_of_mem _ List.mem_cons_self) h
  | crossJoin left right =>
    have h : (left.column? owner member).or (right.column? owner member) = some e :=
      Except.ok.inj h
    rcases Option.or_eq_some_iff.mp h with hleft | ⟨_, hright⟩
    · exact DerivedTable.column?_wellScoped List.mem_cons_self hleft
    · exact DerivedTable.column?_wellScoped (List.mem_cons_of_mem _ List.mem_cons_self) hright

section Frame

variable {env : Env} {subqueries : Subqueries} {outside : List TableRef} {frame : Frame}

/-- A column that no record has names a table of the source, or what the scope around names. -/
theorem Frame.bindToSource_wellScoped (houter : Scope.OuterSound outside frame.outer)
    {token : ColumnToken} {position : Position} {e : Sql.Expr}
    (h : (frame.bindToSource env token position).outcome = .ok e) :
    e.WellScoped (frame.source.names ++ outside) := by
  obtain ⟨owner, _, hfound | ⟨_, scope, hscope, hcolumn⟩⟩ := Frame.bindToSource_eq_ok.mp h
  · exact e.wellScoped_mono (List.subset_append_left _ _) (Source.column?_wellScoped hfound)
  · exact e.wellScoped_mono (List.subset_append_right _ _) (houter scope hscope hcolumn)

/-- **The scope of a statement is sound** for the names of its source and those outside, through any
layers of records: the members of each are bound in the scope of the layers below. -/
theorem Frame.scope_sound (houter : Scope.OuterSound outside frame.outer)
    (hsub : subqueries.Sound) (layers : List Aliases) :
    (frame.scope env subqueries layers).Sound (frame.source.names ++ outside) := by
  induction layers with
  | nil =>
    intro token position e h
    exact Frame.bindToSource_wellScoped houter h
  | cons layer below ih =>
    intro token position e h
    rcases Frame.bindThrough_cons_eq_ok.mp h with ⟨_, target, _, _, htarget⟩ | ⟨_, hbelow⟩
    · exact Scalar.resolve_wellScoped ih hsub htarget
    · exact ih hbelow

end Frame

/-! ## 3. The parts of a selection -/

/-- Members are exported only if there are some. -/
theorem Statement.exportedMembers?_ne_nil {s : Statement} {role : Role}
    {members : List (String × Scalar)} (h : s.exportedMembers? role = some members) :
    members ≠ [] := by
  unfold Statement.exportedMembers? at h
  split at h
  · cases h
  · obtain ⟨p, _, h⟩ := Option.bind_eq_some_iff.mp h
    dsimp only at h
    split at h
    · cases h
    · rename_i hempty
      cases h
      exact fun hnil => hempty (List.isEmpty_iff.mpr hnil)

/-- An aggregate names what its argument names. -/
theorem Aggregate.toSql_wellScoped {visible : List TableRef} {argument : Sql.Expr}
    (h : argument.WellScoped visible) (aggregate : Aggregate) :
    (aggregate.toSql argument).WellScoped visible := by
  cases aggregate with
  | count => trivial
  | sum | min | max | average => exact ⟨h, trivial⟩

/-- What the parts of a selection are bound with is sound for the names that they see. -/
structure Binder.Sound (visible : List TableRef) (b : Binder) : Prop where
  scope : b.scope.Sound visible
  subqueries : b.subqueries.Sound

theorem Binder.Sound.gives {visible : List TableRef} {b : Binder} (hb : b.Sound visible) (x : Scalar) :
    b.Gives (·.WellScoped visible) x :=
  fun _ _ h => Scalar.resolve_wellScoped hb.scope hb.subqueries h

/-- **A select list is not empty.** -/
theorem Statement.selectList_ne_nil {b : Binder} {role : Role} {s : Statement} {list : Sql.SelectList}
    (h : (s.selectList b role).outcome = .ok list) : list.exprs ≠ [] := by
  have hrows : ∀ role, (s.rowList b role).outcome = .ok list → list.exprs ≠ [] := by
    intro role h
    unfold Statement.rowList at h
    split at h
    · rename_i members hmembers
      obtain ⟨items, hitems, h⟩ := Traced.bind_eq_ok.mp h
      cases h
      intro hnil
      obtain rfl := List.map_eq_nil_iff.mp hnil
      exact Statement.exportedMembers?_ne_nil hmembers (Traced.mapM_eq_nil hitems)
    · split at h
      · split at h
        · obtain ⟨names, hnames, h⟩ := Traced.bind_eq_ok.mp h
          cases h
          exact fun hnil => defaultColumns_ne_nil hnames (List.map_eq_nil_iff.mp hnil)
        · cases h
      · rename_i hcolumns
        obtain ⟨items, hitems, h⟩ := Traced.bind_eq_ok.mp h
        cases h
        rintro rfl
        exact hcolumns (Traced.mapM_eq_nil hitems)
  cases role with
  | root | crossJoinSource | correlatedPairs => exact hrows _ h
  | correlated aggregate =>
    unfold Statement.selectList Statement.aggregateList at h
    dsimp only at h
    split at h
    · cases h
      exact List.cons_ne_nil _ _
    · obtain ⟨e, he, h⟩ := Traced.bind_eq_ok.mp h
      cases h
      exact List.cons_ne_nil _ _
    · cases h

/-! ## 4. Selections -/

/-- **A ground is sound**: its derived tables name only what is outside, its keys what is visible,
and its selection exposes the names of its source. -/
structure Ground.Sound (outside : List TableRef) (ground : Ground) : Prop where
  clause : ground.clause.WellScoped outside
  joins : ∀ ⦃visible : List TableRef⦄ ⦃b : Binder⦄ ⦃joins : List Sql.Join⦄, b.Sound visible →
    (ground.joins b).outcome = .ok joins →
      Sql.exposed (some ground.clause) joins = ground.source.names ∧
        Sql.Join.ListWellScoped visible outside joins

section Selection

variable {env : Env} {subqueries : Subqueries} {outer : Option Scope} {outside : List TableRef}
  {depth : Nat}

theorem Ground.table_sound {rowType : String} {ground : Ground}
    (h : (Ground.table env depth rowType).outcome = .ok ground) : ground.Sound outside := by
  obtain ⟨info, _, rfl⟩ := Ground.table_eq_ok.mp h
  refine ⟨trivial, ?_⟩
  intro visible b joins _ hjoins
  cases hjoins
  exact ⟨rfl, trivial⟩

theorem Ground.join_sound (left right : JoinedTable) (outerKey innerKey : Scalar)
    (lifted : List SortKey) :
    (Ground.join left right outerKey innerKey lifted).Sound outside := by
  refine ⟨trivial, ?_⟩
  intro visible b joins hb hjoins
  obtain ⟨leftKey, hleft, h⟩ := Traced.bind_eq_ok.mp hjoins
  obtain ⟨rightKey, hright, h⟩ := Traced.bind_eq_ok.mp h
  cases h
  exact ⟨rfl, ⟨hb.gives _ hleft, hb.gives _ hright⟩, trivial⟩

theorem Ground.crossJoin_sound (left right : DerivedTable) {leftSelect rightSelect : Sql.Select}
    (hleft : leftSelect.WellScoped outside) (hright : rightSelect.WellScoped outside)
    (lifted : List SortKey) :
    (Ground.crossJoin left right leftSelect rightSelect lifted).Sound outside := by
  refine ⟨hleft, ?_⟩
  intro visible b joins _ hjoins
  cases hjoins
  exact ⟨rfl, hright, trivial⟩

/-- **A selection over a sound ground is well scoped.** -/
theorem Statement.assemble_wellScoped (houter : Scope.OuterSound outside outer)
    (hsub : subqueries.Sound) {s : Statement} {role : Role} {ground : Ground}
    (hground : ground.Sound outside) {select : Sql.Select} {lifted : List SortKey}
    (h : (s.assemble env subqueries outer role depth ground).outcome = .ok (select, lifted)) :
    select.WellScoped outside := by
  obtain ⟨list, joins, filter, orderBy, hjoins, hlist, hfilter, horder, rfl⟩ :=
    Statement.assemble_eq_ok.mp h
  have hb : (s.binder env subqueries outer depth ground.source).Sound
      (ground.source.names ++ outside) :=
    ⟨Frame.scope_sound houter hsub s.layers, hsub⟩
  obtain ⟨hexposed, hscoped⟩ := hground.joins hb hjoins
  rw [← hexposed] at hb hscoped
  refine ⟨Sql.SelectList.wellScoped_iff.mpr ⟨Statement.selectList_ne_nil hlist, ?_⟩, hground.clause,
    hscoped, ?_, Sql.Expr.orderWellScoped_iff.mpr ?_⟩
  · exact Statement.forall_selectList (fun _ _ x _ => hb.gives x)
      (fun aggregate _ he => Aggregate.toSql_wellScoped he aggregate) trivial (fun _ _ => trivial) hlist
  · exact Clauses.filterExpr_gives (fun p _ => hb.gives p.body) trivial hfilter
  · exact Clauses.forall_order (fun k _ => hb.gives k.key) horder

/-- **The selection of a statement is well scoped** for what the scope around it is sound for.  The
sides of a cross join are compiled in that same scope, not in that of the join. -/
theorem Statement.toSelect_wellScoped (houter : Scope.OuterSound outside outer)
    (hsub : subqueries.Sound) {s : Statement} {role : Role} {select : Sql.Select}
    {lifted : List SortKey}
    (h : (s.toSelect env subqueries outer role depth).outcome = .ok (select, lifted)) :
    select.WellScoped outside := by
  induction s generalizing role depth select lifted with
  | table clauses rowType =>
    obtain ⟨ground, hground, h⟩ := Statement.toSelect_table_eq_ok.mp h
    exact Statement.assemble_wellScoped houter hsub (Ground.table_sound hground) h
  | join clauses left right outerKey innerKey result keys =>
    exact Statement.assemble_wellScoped houter hsub
      (Ground.join_sound left right outerKey innerKey keys) h
  | crossJoin clauses left right leftRow rightRow result ihl ihr =>
    obtain ⟨leftSelect, leftKeys, rightSelect, rightKeys, leftExports, rightExports, hleft, hright,
      _, _, h⟩ := Statement.toSelect_crossJoin_eq_ok.mp h
    exact Statement.assemble_wellScoped houter hsub
      (Ground.crossJoin_sound _ _ (ihl hleft) (ihr hright) _) h

end Selection

/-! ## 5. Aggregates and queries -/

/-- A selection from a derived table names what the derived table names. -/
theorem Sql.Select.fromDerived_wellScoped {outside : List TableRef} {inner : Sql.Select}
    (hinner : inner.WellScoped outside) {label : String} {e : Sql.Expr}
    (he : e.WellScoped (.aliased label :: outside)) :
    (Sql.Select.fromDerived [e] inner label).WellScoped outside :=
  ⟨⟨List.cons_ne_nil _ _, he, trivial⟩, hinner, trivial, trivial, trivial⟩

/-- **Aggregates are compiled soundly**, nested to any depth. -/
theorem Correlated.toSelect_sound (env : Env) (levels : Nat) :
    Subqueries.Sound (Correlated.toSelect env levels) := by
  induction levels with
  | zero =>
    intro visible scope c select hscope h
    cases h
  | succ levels ih =>
    intro visible scope c select hscope h
    have houter : Scope.OuterSound visible (some scope) := by
      rintro outer ⟨⟩
      exact hscope
    obtain ⟨statement, _, ⟨_, pairs, lifted, hpairs, rfl⟩ | ⟨_, lifted, hselect⟩⟩ :=
      Correlated.toSelect_eq_ok.mp h
    · have hvalue : (Sql.Expr.bareColumn "Value").WellScoped
          (.aliased (Sql.depthAlias (scope.depth + 1)) :: visible) := trivial
      exact Sql.Select.fromDerived_wellScoped (Statement.toSelect_wellScoped houter ih hpairs)
        (Aggregate.toSql_wellScoped hvalue _)
    · exact Statement.toSelect_wellScoped houter ih hselect

/-- **Every compiled statement is well scoped.**  Each selection in it has a source and a select
list that is not empty, and every qualified column names a table or an alias that is exposed to it
by a selection around it; there is nothing outside the whole. -/
theorem Query.wellScoped_of_toSelect {env : Env} {q : Query} {select : Sql.Select}
    (h : (q.toSelect env).outcome = .ok select) : select.WellScoped [] := by
  obtain ⟨statement, lifted, _, hselect⟩ := Query.toSelect_eq_ok.mp h
  have houter : Scope.OuterSound [] none := fun scope hnone => by cases hnone
  have hsub := Correlated.toSelect_sound env q.aggregateDepth
  exact Statement.toSelect_wellScoped houter hsub hselect

/-- What every customer spent: the orders are selected inside, and refer to the customer outside. -/
theorem Query.wellScoped_of_toSelect_sample :
    let c : Parameter := ⟨"c", .row "Customer"⟩
    let o : Parameter := ⟨"o", .row "Order"⟩
    let q := Query.select (.table "Customer")
      ⟨[c], .aggregate .sum (Shop.field c "Orders") (some ⟨[o], Shop.field o "Amount"⟩)
        (.scalar .decimal)⟩
    let spent : Sql.Select :=
      { list := .plain [.call .sum [.bareColumn "Amount"]]
        source := some (.table (.table "Order") (some (Sql.depthAlias 1)))
        joins := []
        filter := .op (.aliasedColumn (Sql.depthAlias 1) "CustomerId") "="
          (.aliasedColumn (Sql.depthAlias 0) "Id")
        orderBy := [] }
    let select : Sql.Select :=
      { list := .plain [.subselect spent]
        source := some (.table (.table "Customer") (some (Sql.depthAlias 0)))
        joins := []
        filter := .always
        orderBy := [] }
    (q.toSelect ⟨Shop.schema, {}⟩).outcome = .ok select ∧ select.WellScoped [] := by
  intro c o q spent select
  have h : (q.toSelect ⟨Shop.schema, {}⟩).outcome = .ok select := rfl
  exact ⟨h, Query.wellScoped_of_toSelect h⟩

end ChainQuery
