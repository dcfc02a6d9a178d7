import ChainQuery.Proofs.Compile.Binding
import ChainQuery.Proofs.Coupling.Renaming
import ChainQuery.Schema.Shop
/-!
# Adding a projection

A projection on top of a query adds a layer of records to the scope of its statement, and that layer is
asked first for every column of the statement, also for those of the clauses below the projection.  As
long as the query reads no member that the projection builds, nothing but the select list changes
(`Query.toSelect_select`).

A projection that builds a record of the type that the clauses below it read does change them: it
captures their columns (`Query.toSelect_select_pair`).
-/

namespace ChainQuery

/-! ## 1. The statement of a query under a projection -/

/-- Whether a query has no projection in its outermost chain of operators. -/
def Query.isUnprojected : Query → Bool
  | .select _ _ => false
  | .filter source _ => source.isUnprojected
  | .orderBy source _ _ => source.isUnprojected
  | .call _ source _ => source.isUnprojected
  | .table _ | .join .. | .crossJoin .. => true

/-- A statement with a projection. -/
def Statement.withSelect (p : Projection) : Statement → Statement
  | .table clauses rowType => .table { clauses with select := some p } rowType
  | .join clauses left right outerKey innerKey result lifted =>
    .join { clauses with select := some p } left right outerKey innerKey result lifted
  | .crossJoin clauses left right leftRow rightRow result =>
    .crossJoin { clauses with select := some p } left right leftRow rightRow result

namespace Statement

variable (p : Projection) (s : Statement)

@[simp] theorem clauses_withSelect :
    (s.withSelect p).clauses = { s.clauses with select := some p } := by
  cases s <;> rfl

@[simp] theorem result?_withSelect : (s.withSelect p).result? = s.result? := by
  cases s <;> rfl

@[simp] theorem ground_withSelect (env : Env) (subqueries : Subqueries) (outer : Option Scope)
    (depth : Nat) :
    (s.withSelect p).ground env subqueries outer depth = s.ground env subqueries outer depth := by
  cases s <;> rfl

/-- The records of the projection are the outermost layer. -/
theorem layers_withSelect {s : Statement} (h : s.clauses.select = none) :
    (s.withSelect p).layers = p.aliases :: s.layers := by
  simp [layers, h]

end Statement

namespace Query

variable {env : Env}

/-- A chain has one statement. -/
theorem Gathers.unique {q : Query} {s s' : Statement} {clauses : Clauses}
    (hclauses : clauses.unsupported = []) (h : q.Gathers env clauses s)
    (h' : q.Gathers env clauses s') : s = s' :=
  Except.ok.inj ((h.gather hclauses).1.symm.trans (h'.gather hclauses).1)

/-- **A projection is carried past the operators below it.** -/
theorem Gathers.withSelect {q : Query} {clauses : Clauses} {s : Statement}
    (h : q.Gathers env clauses s) (hq : q.isUnprojected = true) (p : Projection) :
    s.clauses.select = clauses.select ∧
      q.Gathers env { clauses with select := some p } (s.withSelect p) := by
  induction h with
  | table hname hinfo => exact ⟨rfl, .table hname hinfo⟩
  | select => cases hq
  | filter hgrouped hfirst hread _ ih =>
    obtain ⟨hselect, hgathers⟩ := ih hq
    exact ⟨hselect, .filter hgrouped hfirst hread hgathers⟩
  | orderBy hgrouped hread _ ih =>
    obtain ⟨hselect, hgathers⟩ := ih hq
    exact ⟨hselect, .orderBy hgrouped hread hgathers⟩
  | join houterKey hinnerKey hresult hleft hright hdiffer =>
    exact ⟨rfl, .join houterKey hinnerKey hresult hleft hright hdiffer⟩
  | crossJoin hresult hrows hdiffer hleft hright =>
    exact ⟨rfl, .crossJoin hresult hrows hdiffer hleft hright⟩

/-- The statement of a query under a projection is that of the query, with the projection. -/
theorem toStatement_select {q : Query} (hq : q.isUnprojected = true) {selector : Lambda}
    {s s' : Statement} (h : (q.toStatement env).outcome = .ok s)
    (h' : ((Query.select q selector).toStatement env).outcome = .ok s') :
    s.clauses.select = none ∧
      ∃ p, (selector.read env 1).outcome = .ok p ∧ s' = s.withSelect p := by
  have hgathers := toStatement_eq_ok.mp h
  cases toStatement_eq_ok.mp h' with
  | select _ _ hread hsource =>
    obtain ⟨hselect, hwith⟩ := hgathers.withSelect hq _
    exact ⟨hselect, _, hread, hsource.unique rfl hwith⟩

end Query

/-! ## 2. Scopes with one more layer -/

/-- Records that do not have the columns that may be read do not change how these are bound. -/
theorem Scope.Coupled.withLayer {C : Coupling} {scope : Scope} {env : Env} {subqueries : Subqueries}
    {frame : Frame} {layers : List Aliases} {layer : Aliases}
    (h : Scope.Coupled C scope (frame.scope env subqueries layers))
    (hlayer : ∀ token, C.Reads token → ∀ owner, token.owner? = some owner →
      layer.lookup (owner, token.member) = none) :
    Scope.Coupled C scope (frame.scope env subqueries (layer :: layers)) := by
  refine ⟨h.depth, fun token htoken position => ?_⟩
  change C.Agrees _ _ (frame.bindThrough env subqueries (layer :: layers) token position)
  rw [Frame.bindThrough_cons_of_lookup_eq_none position (hlayer token htoken)]
  exact h.column htoken position

/-! ## 3. The parts of a statement under a projection -/

section WithSelect

variable {C : Coupling} {subqueries subqueries' : Subqueries} {s : Statement} {p : Projection}

/-- What the parts of a statement are bound with stays the same under a projection whose records do
not have the columns that may be read. -/
theorem Statement.binder_withSelect_coupled
    (hsub : Subqueries.Coupled C subqueries subqueries') (hs : s.Coupled C s)
    (hselect : s.clauses.select = none)
    (hp : ∀ token, C.Reads token → ∀ owner, token.owner? = some owner →
      p.aliases.lookup (owner, token.member) = none) (source : Source) :
    Binder.Coupled C (s.binder C.env subqueries none 0 source)
      ((s.withSelect p).binder C.env' subqueries' none 0 source) := by
  refine ⟨rfl, rfl, hsub, ?_⟩
  rw [Statement.binder, Statement.binder, Statement.layers_withSelect p hselect]
  exact (Frame.scope_coupled 0 source .none hsub hs.layers).withLayer hp

/-- **The joins, the filter and the orderings stay the same** under such a projection. -/
theorem Statement.assemble_withSelect (hrename : C.rename = id)
    (hsub : Subqueries.Coupled C subqueries subqueries') (hs : s.Coupled C s)
    (hselect : s.clauses.select = none)
    (hp : ∀ token, C.Reads token → ∀ owner, token.owner? = some owner →
      p.aliases.lookup (owner, token.member) = none)
    {ground ground' : Ground} (hground : ground.Coupled C ground') {select select' : Sql.Select}
    {lifted lifted' : List SortKey}
    (h : (s.assemble C.env subqueries none .root 0 ground).outcome = .ok (select, lifted))
    (h' : ((s.withSelect p).assemble C.env' subqueries' none .root 0 ground').outcome
      = .ok (select', lifted')) :
    select'.source = select.source ∧ select'.joins = select.joins ∧
      select'.filter = select.filter ∧ select'.orderBy = select.orderBy := by
  obtain ⟨list, joins, filter, orderBy, hjoins, _, hfilter, horderBy, rfl⟩ :=
    Statement.assemble_eq_ok.mp h
  obtain ⟨list', joins', filter', orderBy', hjoins', _, hfilter', horderBy', rfl⟩ :=
    Statement.assemble_eq_ok.mp h'
  rw [← hground.source] at hjoins' hfilter' horderBy'
  have hb := Statement.binder_withSelect_coupled hsub hs hselect hp ground.source
  have hfilters : Option.Rel (Projection.Coupled C) s.clauses.filter
      (s.withSelect p).clauses.filter := by
    rw [Statement.clauses_withSelect]
    exact hs.clauses.filter
  have hkeys : List.Forall₂ (SortKey.Coupled C)
      (ground.lifted ++ s.clauses.orderings.map OrderingClause.sortKey)
      (ground'.lifted ++ (s.withSelect p).clauses.orderings.map OrderingClause.sortKey) := by
    rw [Statement.clauses_withSelect]
    exact List.rel_append hground.lifted hs.clauses.sortKeys
  have hclause := hground.clause
  have hjoined := (hground.joins hb).related hjoins hjoins'
  have hfiltered := (hb.filterExpr hfilters).related hfilter hfilter'
  have hordered := (hb.sortKeys hkeys).related (Clauses.order_root_eq_ok.mp horderBy).1
    (Clauses.order_root_eq_ok.mp horderBy').1
  -- both runs have the same strings, so they have the same parameters
  rw [Coupling.param_eq_id hrename] at hclause hjoined hfiltered hordered
  rw [Sql.From.mapParams_id] at hclause
  rw [← Sql.Join.listMapParams_eq_map, Sql.Join.listMapParams_id] at hjoined
  rw [Sql.Expr.mapParams_id] at hfiltered
  rw [← Sql.Expr.orderMapParams_eq_map, Sql.Expr.orderMapParams_id] at hordered
  exact ⟨congrArg some hclause, hjoined, hfiltered, hordered⟩

end WithSelect

/-! ## 4. The theorem -/

/-- **Adding a projection changes only the select list**, if it builds no member that the query
reads: the source, the joins, the filter and the orderings are those of the query. -/
theorem Query.toSelect_select {env : Env} {q : Query} (hq : q.isUnprojected = true)
    {selector : Lambda}
    (hcaptures : ∀ token ∈ q.reads env.schema, selector.body.captures token = false)
    {select select' : Sql.Select} (h : (q.toSelect env).outcome = .ok select)
    (h' : ((Query.select q selector).toSelect env).outcome = .ok select') :
    select'.source = select.source ∧ select'.joins = select.joins ∧
      select'.filter = select.filter ∧ select'.orderBy = select.orderBy := by
  obtain ⟨s, lifted, hs, hselect⟩ := Query.toSelect_eq_ok.mp h
  obtain ⟨s', lifted', hs', hselect'⟩ := Query.toSelect_eq_ok.mp h'
  obtain ⟨hnone, p, hp, rfl⟩ := Query.toStatement_select hq hs hs'
  obtain ⟨ground, hground, hparts⟩ := Statement.toSelect_eq_ok.mp hselect
  obtain ⟨ground', hground', hparts'⟩ := Statement.toSelect_eq_ok.mp hselect'
  rw [Statement.ground_withSelect] at hground'
  -- both runs, on the columns that the projection does not capture
  let C : Coupling := .self env fun token => selector.body.captures token = false
  have hcoupled : s.Coupled C s := Query.coupled_self_of_toStatement hs hcaptures
  have hsub : Subqueries.Coupled C (Correlated.toSelect env q.aggregateDepth)
      (Correlated.toSelect env (Query.select q selector).aggregateDepth) :=
    Correlated.toSelect_coupled Coupling.renaming_sound (Nat.le_max_left _ _) fun h => h.1.elim
  have hgrounds : ground.Coupled C ground' :=
    (hcoupled.ground hsub .none 0).related hground hground'
  have hlookup : ∀ token, C.Reads token → ∀ owner, token.owner? = some owner →
      p.aliases.lookup (owner, token.member) = none := fun token htoken owner howner =>
    (Lambda.readFrom_of_read hp).lookup_eq_none htoken howner
  exact Statement.assemble_withSelect (C := C) rfl hsub hcoupled hnone hlookup hgrounds hparts hparts'

/-! ## 5. Captured columns -/

namespace Shop

/-- A pair of numbers. -/
def pairType : Ty := .record "Pair" [("First", .scalar .int32), ("Second", .scalar .int32)]

/-- The pair of two numbers. -/
def pair (first second : Expr) : Expr := .new pairType [("First", first), ("Second", second)]

/-- The numbers of customers and their orders, as pairs, for customers with a number above five. -/
def customerOrders : Query :=
  let c : Parameter := ⟨"c", .row "Customer"⟩
  let o : Parameter := ⟨"o", .row "Order"⟩
  let r : Parameter := ⟨"r", pairType⟩
  .filter
    (.join (.table "Customer") (.table "Order") ⟨[c], field c "Id"⟩ ⟨[o], field o "CustomerId"⟩
      ⟨[c, o], pair (field c "Id") (field o "Id")⟩)
    ⟨[r], .binary .greaterThan (r.member "First" (.scalar .int32))
      (.constant (.int 5) (.scalar .int32))⟩

end Shop

/-- The number of the order under another name: the filter is still on the customer. -/
theorem Query.toSelect_select_number :
    let env : Env := ⟨Shop.schema, {}⟩
    let r : Parameter := ⟨"r", Shop.pairType⟩
    let selector : Lambda :=
      ⟨[r], .record "Numbered" [("Number", r.member "Second" (.scalar .int32))]⟩
    Shop.customerOrders.isUnprojected = true ∧
    (∀ token ∈ Shop.customerOrders.reads env.schema, selector.body.captures token = false) ∧
    ∃ select select', (Shop.customerOrders.toSelect env).outcome = .ok select ∧
      ((Query.select Shop.customerOrders selector).toSelect env).outcome = .ok select' ∧
      select.filter = .op (.tableColumn "Customer" "Id") ">" (.param (.int 5)) ∧
      select'.source = select.source ∧ select'.joins = select.joins ∧
      select'.filter = select.filter ∧ select'.orderBy = select.orderBy := by
  intro env r selector
  have hcaptures : ∀ token ∈ Shop.customerOrders.reads env.schema,
      selector.body.captures token = false := by decide
  exact ⟨rfl, hcaptures, _, _, rfl, rfl, rfl, Query.toSelect_select rfl hcaptures rfl rfl⟩

/-- **A projection to pairs captures the columns of the filter below it.**  The customers with a number
above five become the orders with a number above five, because the first number of the projection's
pairs is that of the order. -/
theorem Query.toSelect_select_pair :
    let env : Env := ⟨Shop.schema, {}⟩
    let r : Parameter := ⟨"r", Shop.pairType⟩
    let second : Expr := r.member "Second" (.scalar .int32)
    let above (table : String) : Sql.Expr := .op (.tableColumn table "Id") ">" (.param (.int 5))
    Shop.customerOrders.isUnprojected = true ∧
    ∃ select select', (Shop.customerOrders.toSelect env).outcome = .ok select ∧
      ((Query.select Shop.customerOrders ⟨[r], Shop.pair second second⟩).toSelect env).outcome
        = .ok select' ∧
      select.filter = above "Customer" ∧ select'.filter = above "Order" ∧
      select'.filter ≠ select.filter := by
  intro env r second above
  refine ⟨rfl, _, _, rfl, rfl, rfl, rfl, fun h => ?_⟩
  have htable : above "Order" = above "Customer" := h
  simp [above, Sql.Expr.tableColumn] at htable

end ChainQuery
