import ChainQuery.Proofs.Compile.Parts
import ChainQuery.Proofs.Compile.SideColumns
import ChainQuery.Proofs.Coupling.Renaming
import ChainQuery.Schema.Shop
/-!
# Columns of derived tables exist

The columns of a cross join are those of its two sides, under aliases.  If every column that a query
reads is one of its type, and every side of a cross join has the columns of its rows, then every
column that the compiled statement takes from a side is put out by that side
(`Query.readsOutputs_of_toSelect`).

The invariant is one of scopes, as for well-scoped statements: a scope reads outputs if it binds the
columns that may be read to expressions that do (`Scope.ReadsOutputs`).  Only the outermost statements
have cross joins, since aggregates are computed over tables; so an expression that an aggregate takes
from the scope around it sees the same derived tables where it is used.

Without the condition on the sides the compiler goes wrong: an equi-join that names a column
differently puts it out under the name that it has in the database, and is asked for it under the
other (`Query.not_readsOutputs_label`).
-/

namespace ChainQuery

open Sql (DerivedTables)

/-- A run beside itself, on the columns that their types have. -/
abbrev Coupling.onColumns (env : Env) : Coupling :=
  .self env fun token => (token.columnName? env.schema).isSome = true

variable {env : Env}

/-! ## 1. Scopes that read outputs -/

/-- **A scope reads outputs**: it binds the columns that types have to expressions that do. -/
def Scope.ReadsOutputs (env : Env) (tables : DerivedTables) (scope : Scope) : Prop :=
  ∀ ⦃token : ColumnToken⦄, (token.columnName? env.schema).isSome = true →
    ∀ ⦃position : Position⦄ ⦃e : Sql.Expr⦄,
      (scope.column token position).outcome = .ok e → e.ReadsOutputs tables

/-- **Aggregates read outputs** in every scope that does. -/
def Subqueries.ReadsOutputs (env : Env) (subqueries : Subqueries) : Prop :=
  ∀ ⦃c : Correlated⦄, c.OverTable →
    (∀ token ∈ c.query.reads env.schema, (token.columnName? env.schema).isSome = true) →
      ∀ ⦃tables : DerivedTables⦄ ⦃scope : Scope⦄ ⦃select : Sql.Select⦄,
        scope.ReadsOutputs env tables → (subqueries c scope).outcome = .ok select →
          select.ReadsOutputs tables

theorem Literal.toSql_readsOutputs {tables : DerivedTables} {v : Literal} {e : Sql.Expr}
    (h : v.toSql = .ok e) : e.ReadsOutputs tables := by
  cases v <;> cases h <;> trivial

section Resolve

variable {dialect : Dialect} {subqueries : Subqueries} {scope : Scope} {position : Position}
  {tables : DerivedTables}

mutual
/-- **A scalar over columns that types have reads outputs.** -/
theorem Scalar.resolve_readsOutputs (hscope : scope.ReadsOutputs env tables)
    (hsub : subqueries.ReadsOutputs env) :
    ∀ {x y : Scalar} {e : Sql.Expr}, x.Coupled (.onColumns env) y →
      (x.resolve dialect subqueries scope position).outcome = .ok e → e.ReadsOutputs tables
  | _, _, _, .column htoken, h => hscope htoken h
  | _, _, _, .value _, h => Literal.toSql_readsOutputs h
  | _, _, _, .null, h => by
    cases h
    trivial
  | _, _, _, .binary _ hl hr, h => by
    rcases Scalar.resolve_binary_cases h with ⟨x, hx, he⟩ | ⟨x, y, hx, hy, he⟩
    · have hreads : x.ReadsOutputs tables := by
        rcases hx with ⟨_, hx⟩ | ⟨_, hx⟩
        · exact Scalar.resolve_readsOutputs hscope hsub hl hx
        · exact Scalar.resolve_readsOutputs hscope hsub hr hx
      rcases he with ⟨_, rfl⟩ | ⟨_, rfl⟩
      · exact hreads
      · exact hreads
    · have hboth : x.ReadsOutputs tables ∧ y.ReadsOutputs tables :=
        ⟨Scalar.resolve_readsOutputs hscope hsub hl hx,
          Scalar.resolve_readsOutputs hscope hsub hr hy⟩
      rcases he with ⟨_, rfl⟩ | ⟨_, rfl⟩ | ⟨_, rfl, _⟩
      · exact hboth
      · exact hboth
      · exact hboth
  | _, _, _, .not hx, h => by
    obtain ⟨e, he, h⟩ := Traced.bind_eq_ok.mp h
    have hreads : e.ReadsOutputs tables := Scalar.resolve_readsOutputs hscope hsub hx he
    cases h
    exact hreads
  | _, _, _, .negate hx, h => by
    obtain ⟨e, he, h⟩ := Traced.bind_eq_ok.mp h
    have hreads : e.ReadsOutputs tables := Scalar.resolve_readsOutputs hscope hsub hx he
    cases h
    exact hreads
  | _, _, _, .function _ hxs, h => by
    obtain ⟨es, hes, h⟩ := Traced.bind_eq_ok.mp h
    cases h
    exact Scalar.resolveList_readsOutputs hscope hsub hxs hes
  | _, _, _, .like _ hx hp, h => by
    obtain ⟨e, he, h⟩ := Traced.bind_eq_ok.mp h
    obtain ⟨f, hf, h⟩ := Traced.bind_eq_ok.mp h
    cases h
    exact ⟨Scalar.resolve_readsOutputs hscope hsub hx he,
      Scalar.resolve_readsOutputs hscope hsub hp hf⟩
  | _, _, _, .case ht hx hy, h => by
    obtain ⟨t, hte, h⟩ := Traced.bind_eq_ok.mp h
    obtain ⟨e, he, h⟩ := Traced.bind_eq_ok.mp h
    obtain ⟨f, hf, h⟩ := Traced.bind_eq_ok.mp h
    cases h
    exact ⟨Scalar.resolve_readsOutputs hscope hsub ht hte,
      Scalar.resolve_readsOutputs hscope hsub hx he, Scalar.resolve_readsOutputs hscope hsub hy hf⟩
  | _, _, _, .subquery ⟨_, hover, hreads⟩, h => by
    obtain ⟨select, hselect, h⟩ := Traced.bind_eq_ok.mp h
    cases h
    exact hsub hover hreads hscope hselect
  | _, _, _, .composite _ _, h => by cases h

theorem Scalar.resolveList_readsOutputs (hscope : scope.ReadsOutputs env tables)
    (hsub : subqueries.ReadsOutputs env) :
    ∀ {xs ys : List Scalar} {es : List Sql.Expr}, Scalar.ListCoupled (.onColumns env) xs ys →
      (Scalar.resolveList dialect subqueries scope position xs).outcome = .ok es →
        Sql.Expr.ListReadsOutputs tables es
  | _, _, _, .nil, h => by
    cases h
    trivial
  | _, _, _, .cons hx hxs, h => by
    obtain ⟨e, he, h⟩ := Traced.bind_eq_ok.mp h
    obtain ⟨es, hes, h⟩ := Traced.bind_eq_ok.mp h
    cases h
    exact ⟨Scalar.resolve_readsOutputs hscope hsub hx he,
      Scalar.resolveList_readsOutputs hscope hsub hxs hes⟩
end

end Resolve

/-! ## 2. The parts of a selection -/

/-- An aggregate reads what its argument reads. -/
theorem Aggregate.toSql_readsOutputs {tables : DerivedTables} {argument : Sql.Expr}
    (h : argument.ReadsOutputs tables) (aggregate : Aggregate) :
    (aggregate.toSql argument).ReadsOutputs tables := by
  cases aggregate with
  | count => trivial
  | sum | min | max | average => exact ⟨h, trivial⟩

/-- What the parts of a selection are bound with reads outputs. -/
structure Binder.ReadsOutputs (env : Env) (tables : DerivedTables) (b : Binder) : Prop where
  scope : b.scope.ReadsOutputs env tables
  subqueries : b.subqueries.ReadsOutputs env

theorem Binder.ReadsOutputs.gives {tables : DerivedTables} {b : Binder} (hb : b.ReadsOutputs env tables)
    {x y : Scalar} (hx : x.Coupled (.onColumns env) y) : b.Gives (·.ReadsOutputs tables) x :=
  fun _ _ h => Scalar.resolve_readsOutputs hb.scope hb.subqueries hx h

/-! ## 3. Grounds -/

/-- What is around a statement reads the outputs of what is outside. -/
def Scope.OuterReadsOutputs (env : Env) (outside : DerivedTables) (outer : Option Scope) : Prop :=
  ∀ scope, outer = some scope → scope.ReadsOutputs env outside

/-- **A ground reads outputs** and adds derived tables that have the columns of their rows.  If it adds
any, nothing is around its statement. -/
structure Ground.ReadsOutputs (env : Env) (outer : Option Scope) (outside tables : DerivedTables)
    (ground : Ground) : Prop where
  clause : ground.clause.ReadsOutputs outside
  joins : ∀ ⦃visible : DerivedTables⦄ ⦃b : Binder⦄ ⦃joins : List Sql.Join⦄,
    b.ReadsOutputs env visible → (ground.joins b).outcome = .ok joins →
      Sql.derivedTables (some ground.clause) joins = tables ∧
        Sql.Join.ListReadsOutputs visible outside joins
  source : ground.source.Provides env.schema tables
  label : ∀ rowType label, ground.source = .table rowType label → label ∉ Sql.sideAliases
  outer : tables = [] ∨ outer = none
  lifted : List.Forall₂ (SortKey.Coupled (.onColumns env)) ground.lifted ground.lifted

section Ground

variable {subqueries : Subqueries} {outer : Option Scope} {outside tables : DerivedTables}
  {ground : Ground} {depth : Nat}

/-- A column of a source reads outputs. -/
theorem Ground.ReadsOutputs.column (hground : ground.ReadsOutputs env outer outside tables)
    {owner : Ty} {member name : String} {position : Position} {e : Sql.Expr}
    (hname : (owner.columns env.schema).lookup member = some name)
    (h : ground.source.column? env.schema owner member position = .ok (some e)) :
    e.ReadsOutputs (tables ++ outside) := by
  have hsource := hground.source
  have hlabel := hground.label
  cases hkind : ground.source with
  | table rowType label =>
    rw [hkind] at h
    obtain ⟨found, _, _, rfl | rfl⟩ := Source.column?_table_eq_some h
    · trivial
    · exact fun hside => absurd hside (hlabel rowType label hkind)
  | join left right =>
    rw [hkind] at h
    obtain ⟨t, found, _, _, rfl⟩ := Source.column?_join_eq_some h
    trivial
  | crossJoin left right =>
    rw [hkind] at h hsource
    obtain ⟨t, ht, rfl, rfl⟩ := Source.column?_crossJoin_eq_some h
    obtain ⟨outputs, hlookup, hprovides⟩ := hsource t ht
    intro _
    refine ⟨outputs, ?_, ?_⟩
    · rw [List.lookup_append, hlookup]
      rfl
    · rw [(hprovides hname).1]
      exact (hprovides hname).2

/-- **The scope of a statement reads outputs**, through any layers of records. -/
theorem Ground.ReadsOutputs.scope (hground : ground.ReadsOutputs env outer outside tables)
    (houter : Scope.OuterReadsOutputs env outside outer) (hsub : subqueries.ReadsOutputs env)
    {layers layers' : List Aliases}
    (hlayers : List.Forall₂ (Aliases.Coupled (.onColumns env)) layers layers') :
    (Frame.scope env subqueries ⟨depth, ground.source, outer⟩ layers).ReadsOutputs env
      (tables ++ outside) := by
  induction hlayers with
  | nil =>
    intro token htoken position e h
    obtain ⟨name, hname⟩ := Option.isSome_iff_exists.mp htoken
    obtain ⟨owner, howner, hfound | ⟨_, scope, hscope, hcolumn⟩⟩ := Frame.bindToSource_eq_ok.mp h
    · rw [ColumnToken.columnName?, howner, Option.bind_some] at hname
      exact hground.column hname hfound
    · have htables : tables = [] :=
        hground.outer.resolve_right fun hnone => by cases hnone.symm.trans hscope
      rw [htables]
      exact houter scope hscope htoken hcolumn
  | cons hlayer _ ih =>
    intro token htoken position e h
    rcases Frame.bindThrough_cons_eq_ok.mp h with ⟨owner, target, _, hlookup, htarget⟩ | ⟨_, hbelow⟩
    · obtain ⟨_, _, hcoupled⟩ := (hlayer.lookup rfl).exists_of_eq_some hlookup
      exact Scalar.resolve_readsOutputs ih hsub hcoupled htarget
    · exact ih htoken hbelow

/-- **A selection over a ground that reads outputs reads outputs.** -/
theorem Statement.assemble_readsOutputs (hground : ground.ReadsOutputs env outer outside tables)
    (houter : Scope.OuterReadsOutputs env outside outer) (hsub : subqueries.ReadsOutputs env)
    {s : Statement} (hs : s.Coupled (.onColumns env) s) {role : Role}
    {select : Sql.Select} {lifted : List SortKey}
    (h : (s.assemble env subqueries outer role depth ground).outcome = .ok (select, lifted)) :
    select.ReadsOutputs outside := by
  obtain ⟨list, joins, filter, orderBy, hjoins, hlist, hfilter, horder, rfl⟩ :=
    Statement.assemble_eq_ok.mp h
  have hb : (s.binder env subqueries outer depth ground.source).ReadsOutputs env
      (tables ++ outside) :=
    ⟨hground.scope houter hsub hs.layers, hsub⟩
  obtain ⟨htables, hjoined⟩ := hground.joins hb hjoins
  rw [← htables] at hb hjoined
  refine ⟨Sql.SelectList.readsOutputs_iff.mpr ?_, hground.clause, hjoined, ?_,
    Sql.Expr.orderReadsOutputs_iff.mpr ?_⟩
  · exact Statement.forall_selectList (hs.forall_projections hb.gives fun _ => rfl)
      (fun aggregate _ he => Aggregate.toSql_readsOutputs he aggregate) trivial
      (fun _ _ => trivial) hlist
  · exact Clauses.filterExpr_gives (hs.forall_filter hb.gives) trivial hfilter
  · refine Clauses.forall_order (fun k hk => ?_) horder
    obtain ⟨_, _, hk⟩ := (List.rel_append hground.lifted hs.clauses.sortKeys).exists_of_mem hk
    exact hb.gives hk.key

theorem Ground.table_readsOutputs (outer : Option Scope) (outside : DerivedTables) {rowType : String}
    (h : (Ground.table env depth rowType).outcome = .ok ground) :
    ground.ReadsOutputs env outer outside [] := by
  obtain ⟨info, _, rfl⟩ := Ground.table_eq_ok.mp h
  refine ⟨trivial, ?_, trivial, ?_, Or.inl rfl, .nil⟩
  · intro visible b joins _ hjoins
    cases hjoins
    exact ⟨rfl, trivial⟩
  · rintro _ _ ⟨⟩
    exact Sql.depthAlias_not_mem_sideAliases depth

theorem Ground.join_readsOutputs (left right : JoinedTable)
    {outerKey innerKey outerKey' innerKey' : Scalar}
    (houterKey : outerKey.Coupled (.onColumns env) outerKey')
    (hinnerKey : innerKey.Coupled (.onColumns env) innerKey') {lifted : List SortKey}
    (hlifted : List.Forall₂ (SortKey.Coupled (.onColumns env)) lifted lifted) :
    (Ground.join left right outerKey innerKey lifted).ReadsOutputs env outer outside [] := by
  refine ⟨trivial, ?_, trivial, ?_, Or.inl rfl, hlifted⟩
  · intro visible b joins hb hjoins
    obtain ⟨leftKey, hleft, h⟩ := Traced.bind_eq_ok.mp hjoins
    obtain ⟨rightKey, hright, h⟩ := Traced.bind_eq_ok.mp h
    cases h
    exact ⟨rfl, ⟨hb.gives houterKey hleft, hb.gives hinnerKey hright⟩, trivial⟩
  · rintro _ _ ⟨⟩

theorem Ground.crossJoin_readsOutputs {leftRow rightRow : Ty}
    {leftExports rightExports : List (String × String)} {leftSelect rightSelect : Sql.Select}
    (hleft : leftSelect.ReadsOutputs []) (hright : rightSelect.ReadsOutputs [])
    (hleftTable : DerivedTable.Provides env.schema leftSelect.list.outputs
      ⟨leftRow, "leftStatement", leftExports⟩)
    (hrightTable : DerivedTable.Provides env.schema rightSelect.list.outputs
      ⟨rightRow, "rightStatement", rightExports⟩)
    {lifted : List SortKey}
    (hlifted : List.Forall₂ (SortKey.Coupled (.onColumns env)) lifted lifted) :
    (Ground.crossJoin ⟨leftRow, "leftStatement", leftExports⟩
      ⟨rightRow, "rightStatement", rightExports⟩ leftSelect rightSelect lifted).ReadsOutputs env
      none []
      [("leftStatement", leftSelect.list.outputs),
        ("rightStatement", rightSelect.list.outputs)] := by
  refine ⟨hleft, ?_, ?_, ?_, Or.inr rfl, hlifted⟩
  · intro visible b joins _ hjoins
    cases hjoins
    exact ⟨rfl, hright, trivial⟩
  · rintro t (rfl | rfl)
    · exact ⟨_, rfl, hleftTable⟩
    · exact ⟨_, rfl, hrightTable⟩
  · rintro _ _ ⟨⟩

end Ground

/-! ## 4. Statements -/

section Statement

variable {subqueries : Subqueries}

/-- **A side of a cross join reads outputs and puts out the columns of its rows**, if its own ground
reads outputs. -/
theorem Statement.side_readsOutputs (hsub : subqueries.ReadsOutputs env)
    {s : Statement} (hs : s.Coupled (.onColumns env) s) {row : Ty}
    (hprovides : s.Provides env.schema row) {depth : Nat} {ground : Ground} {tables : DerivedTables}
    (hground : ground.ReadsOutputs env none [] tables) {select : Sql.Select} {lifted : List SortKey}
    (h : (s.assemble env subqueries none .crossJoinSource depth ground).outcome
      = .ok (select, lifted))
    {exports : List (String × String)} (hexports : s.exports env.schema = .ok exports)
    (label : String) :
    select.ReadsOutputs [] ∧
      DerivedTable.Provides env.schema select.list.outputs ⟨row, label, exports⟩ := by
  have houter : Scope.OuterReadsOutputs env [] none := fun scope hnone => by cases hnone
  refine ⟨Statement.assemble_readsOutputs hground houter hsub hs h, fun member name hname => ?_⟩
  obtain ⟨list, joins, filter, orderBy, _, hlist, _, _, rfl⟩ := Statement.assemble_eq_ok.mp h
  exact hprovides.output hexports hground.source hlist hname

/-- **What a statement selects from reads outputs**, if every side of a cross join has the columns of
its rows. -/
theorem Statement.ground_readsOutputs (hsub : subqueries.ReadsOutputs env)
    (hcoupled : Subqueries.Coupled (.onColumns env) subqueries subqueries)
    {s : Statement} (hs : s.Coupled (.onColumns env) s) (hsides : s.SidesProvide env.schema)
    {depth : Nat} {ground : Ground}
    (h : (s.ground env subqueries none depth).outcome = .ok ground) :
    ∃ tables, ground.ReadsOutputs env none [] tables := by
  induction s generalizing depth ground with
  | table clauses rowType => exact ⟨[], Ground.table_readsOutputs none [] h⟩
  | join clauses left right outerKey innerKey result lifted =>
    cases h
    cases hs with
    | join _ _ _ houterKey hinnerKey _ hlifted =>
      exact ⟨[], Ground.join_readsOutputs left right houterKey hinnerKey hlifted⟩
  | crossJoin clauses left right leftRow rightRow result ihl ihr =>
    obtain ⟨hleftProvides, hrightProvides, hleftSides, hrightSides⟩ := hsides
    cases hs with
    | crossJoin _ hleft hright hleftExported hrightExported _ _ _ =>
      obtain ⟨⟨leftSelect, leftKeys⟩, hleftSelect, h⟩ := Traced.bind_eq_ok.mp h
      obtain ⟨⟨rightSelect, rightKeys⟩, hrightSelect, h⟩ := Traced.bind_eq_ok.mp h
      obtain ⟨leftExports, hleftExports, h⟩ := Traced.bind_eq_ok.mp h
      obtain ⟨rightExports, hrightExports, h⟩ := Traced.bind_eq_ok.mp h
      cases h
      obtain ⟨leftGround, hleftGround, hleftParts⟩ := Statement.toSelect_eq_ok.mp hleftSelect
      obtain ⟨rightGround, hrightGround, hrightParts⟩ := Statement.toSelect_eq_ok.mp hrightSelect
      obtain ⟨leftTables, hleftReads⟩ := ihl hleft hleftSides hleftGround
      obtain ⟨rightTables, hrightReads⟩ := ihr hright hrightSides hrightGround
      obtain ⟨hleftOutputs, hleftTable⟩ := Statement.side_readsOutputs hsub hleft hleftProvides
        hleftReads hleftParts hleftExports "leftStatement"
      obtain ⟨hrightOutputs, hrightTable⟩ := Statement.side_readsOutputs hsub hright hrightProvides
        hrightReads hrightParts hrightExports "rightStatement"
      -- the keys that a side hands on are columns of what it puts out
      have hleftKeys := ((hleft.toSelect hcoupled .none hleftExported _).related hleftSelect
        hleftSelect).2
      have hrightKeys := ((hright.toSelect hcoupled .none hrightExported _).related hrightSelect
        hrightSelect).2
      exact ⟨_, Ground.crossJoin_readsOutputs hleftOutputs hrightOutputs hleftTable hrightTable
        (List.rel_append hleftKeys hrightKeys)⟩

end Statement

/-! ## 5. Aggregates and queries -/

/-- **Aggregates read outputs**, nested to any depth. -/
theorem Correlated.toSelect_readsOutputs (env : Env) (levels : Nat) :
    Subqueries.ReadsOutputs env (Correlated.toSelect env levels) := by
  induction levels with
  | zero =>
    intro c _ _ tables scope select _ h
    cases h
  | succ levels ih =>
    intro c hover hreads tables scope select hscope h
    obtain ⟨statement, hstatement, hselect⟩ := Correlated.toSelect_eq_ok.mp h
    have hs : statement.Coupled (.onColumns env) statement :=
      Query.coupled_self_of_toStatement hstatement hreads
    obtain ⟨clauses, rowType, rfl⟩ := hover.statement hstatement
    have houter : Scope.OuterReadsOutputs env tables (some scope) := by
      rintro outer ⟨⟩
      exact hscope
    have hrows : ∀ {role depth select lifted},
        ((Statement.table clauses rowType).toSelect env (Correlated.toSelect env levels) (some scope)
          role depth).outcome = .ok (select, lifted) → select.ReadsOutputs tables := by
      intro role depth select lifted h
      obtain ⟨ground, hground, hparts⟩ := Statement.toSelect_table_eq_ok.mp h
      exact Statement.assemble_readsOutputs (Ground.table_readsOutputs _ _ hground) houter ih hs
        hparts
    rcases hselect with ⟨_, pairs, lifted, hpairs, rfl⟩ | ⟨_, lifted, hselect⟩
    · have hvalue : (Sql.Expr.bareColumn "Value").ReadsOutputs
          ((Sql.From.derived pairs (Sql.depthAlias (scope.depth + 1))).derivedTables ++ tables) :=
        trivial
      exact ⟨⟨Aggregate.toSql_readsOutputs hvalue _, trivial⟩, hrows hpairs, trivial, trivial,
        trivial⟩
    · exact hrows hselect

/-- **The columns of derived tables exist.**  If every column that a query reads is one of its type,
and every side of a cross join has the columns of its rows, then every column that the compiled
statement takes from a side of a cross join is put out by that side. -/
theorem Query.readsOutputs_of_toSelect {env : Env} {q : Query}
    (hreads : ∀ token ∈ q.reads env.schema, (token.columnName? env.schema).isSome = true)
    (hsides : q.sidesProvide env.schema = true) {select : Sql.Select}
    (h : (q.toSelect env).outcome = .ok select) : select.ReadsOutputs [] := by
  obtain ⟨s, lifted, hs, hselect⟩ := Query.toSelect_eq_ok.mp h
  obtain ⟨ground, hground, hparts⟩ := Statement.toSelect_eq_ok.mp hselect
  have hcoupled : s.Coupled (.onColumns env) s := Query.coupled_self_of_toStatement hs hreads
  have hsub := Correlated.toSelect_readsOutputs env q.aggregateDepth
  have hself : Subqueries.Coupled (.onColumns env) (Correlated.toSelect env q.aggregateDepth)
      (Correlated.toSelect env q.aggregateDepth) :=
    Correlated.toSelect_coupled Coupling.renaming_sound (Nat.le_refl _) fun h => h.1.elim
  obtain ⟨tables, hgroundReads⟩ := Statement.ground_readsOutputs hsub hself hcoupled
    ((Query.toStatement_eq_ok.mp hs).sidesProvide hsides) hground
  have houter : Scope.OuterReadsOutputs env [] none := fun scope hnone => by cases hnone
  exact Statement.assemble_readsOutputs hgroundReads houter hsub hcoupled hparts

/-! ## 6. Sides with and without a projection -/

namespace Shop

/-- A card with a label. -/
def cardType : Ty := .record "Card" [("Label", .scalar .string)]

/-- A card with the name of a customer. -/
def card (c : Parameter) : Expr := .new cardType [("Label", field c "Name")]

/-- The labels of cards, once for each line of an order. -/
def labels (cards : Query) : Query :=
  let card : Parameter := ⟨"card", cardType⟩
  let l : Parameter := ⟨"l", .row "OrderLine"⟩
  .crossJoin cards (.table "OrderLine") ⟨[card, l], card.member "Label" (.scalar .string)⟩

end Shop

/-- The cards of a projection: the label is put out under its name. -/
theorem Query.readsOutputs_of_toSelect_projected :
    let env : Env := ⟨Shop.schema, {}⟩
    let c : Parameter := ⟨"c", .row "Customer"⟩
    let q := Shop.labels (.select (.table "Customer") ⟨[c], Shop.card c⟩)
    (∀ token ∈ q.reads env.schema, (token.columnName? env.schema).isSome = true) ∧
    q.sidesProvide env.schema = true ∧
    ∃ select, (q.toSelect env).outcome = .ok select ∧
      select.list.outputs = ["Label"] ∧ select.ReadsOutputs [] := by
  intro env c q
  have hreads : ∀ token ∈ q.reads env.schema, (token.columnName? env.schema).isSome = true := by
    decide
  have hsides : q.sidesProvide env.schema = true := by decide
  exact ⟨hreads, hsides, _, rfl, rfl, Query.readsOutputs_of_toSelect hreads hsides rfl⟩

/-- **The cards of a join have no label.**  The join puts out the name of the customer, and the
statement around it asks for `leftStatement.Label`. -/
theorem Query.not_readsOutputs_label :
    let env : Env := ⟨Shop.schema, {}⟩
    let c : Parameter := ⟨"c", .row "Customer"⟩
    let o : Parameter := ⟨"o", .row "Order"⟩
    let q := Shop.labels (.join (.table "Customer") (.table "Order") ⟨[c], Shop.field c "Id"⟩
      ⟨[o], Shop.field o "CustomerId"⟩ ⟨[c, o], Shop.card c⟩)
    (∀ token ∈ q.reads env.schema, (token.columnName? env.schema).isSome = true) ∧
    ∃ select, (q.toSelect env).outcome = .ok select ∧ ¬select.ReadsOutputs [] := by
  intro env c o q
  have hreads : ∀ token ∈ q.reads env.schema, (token.columnName? env.schema).isSome = true := by
    decide
  refine ⟨hreads, _, rfl, ?_⟩
  rintro ⟨⟨hlabel, _⟩, _⟩
  obtain ⟨outputs, hlookup, hmem⟩ := hlabel (by decide)
  cases hlookup
  revert hmem
  decide

end ChainQuery
