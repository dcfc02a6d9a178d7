import ChainQuery.Proofs.Compile.Orderings
import ChainQuery.Proofs.Compile.Recording
/-!
# Which side of a cross join an ordering is by

The key of an ordering of one side is bound by the statement around, where columns are told apart by
the type that has them.  A key that is handed on as a column of the side's rows is bound to the side.
One that is not, because the projection of the side leaves it out, is still the column of a table; and
if the rows of the other side are rows of that table, it is bound there.
`Query.orderBy_sides_of_toSelect` states both, and `Query.orderBy_name_other_side` has a query that is
ordered by the wrong side.

Records that are built around the cross join come before both sides: a member with the name and the
type of the key captures it.
-/

/-- A relation with a list that is put together is one with its parts. -/
theorem List.Forall₂.exists_of_append {α β : Type} {R : α → β → Prop} {xs ys : List α} {zs : List β}
    (h : List.Forall₂ R (xs ++ ys) zs) :
    ∃ as bs, zs = as ++ bs ∧ List.Forall₂ R xs as ∧ List.Forall₂ R ys bs := by
  induction xs generalizing zs with
  | nil => exact ⟨[], zs, rfl, .nil, h⟩
  | cons x xs ih =>
    cases h with
    | cons hx h =>
      obtain ⟨as, bs, rfl, has, hbs⟩ := ih h
      exact ⟨_ :: as, bs, rfl, .cons hx has, hbs⟩

namespace ChainQuery

variable {env : Env}

/-! ## 1. Columns that are handed on -/

/-- **A column is handed on as a column**, by itself or as a member of a record. -/
theorem SortKey.exists_column_of_restate {ls : List Lambda} {k k' : SortKey} {token : ColumnToken}
    (hk : k.key = .column token) (h : k.restate env ls = .ok k') :
    ∃ handed, k'.key = .column handed := by
  induction ls generalizing k token with
  | nil =>
    cases h
    exact ⟨token, hk⟩
  | cons l ls ih =>
    obtain ⟨p, _, h⟩ := SortKey.restate_cons_eq_ok.mp h
    have hlift : ∃ handed, (k.lift p).key = .column handed := by
      unfold SortKey.lift
      split
      · exact ⟨_, rfl⟩
      · exact ⟨token, hk⟩
    obtain ⟨handed, hhanded⟩ := hlift
    exact ih hhanded h

/-! ## 2. The scope of a cross join -/

/-- What the expressions of a query over a cross join are bound with: the records of the lambdas
around, then the two sides. -/
theorem Query.binder_crossJoin {q source collection : Query} {result : Lambda}
    (hbase : q.base = .crossJoin source collection result) {b : Binder}
    (h : (q.binder env).outcome = .ok b) :
    ∃ leftExports rightExports layers,
      b.scope = Frame.scope env b.subqueries
        { depth := 0
          source := .crossJoin ⟨result.rowTypes.1, "leftStatement", leftExports⟩
            ⟨result.rowTypes.2, "rightStatement", rightExports⟩
          outer := none } layers ∧
      result.rowTypes.1 ≠ result.rowTypes.2 ∧
      ∀ layer ∈ layers, ∃ l ∈ result :: q.projections, ∃ p : Projection,
        p.ReadFrom l ∧ layer = p.aliases := by
  obtain ⟨s, hs, h⟩ := Traced.bind_eq_ok.mp h
  obtain ⟨ground, hground, h⟩ := Traced.bind_eq_ok.mp h
  cases h
  have hgathers := Query.toStatement_eq_ok.mp hs
  have hover := hgathers.base
  have hselect := hgathers.select_taken
  rw [hbase] at hover
  clear hs hgathers hbase
  -- the clauses are an index of the rules, and must not depend on the statement there
  generalize hclauses : s.clauses = clauses at hover hselect
  cases hover with
  | crossJoin hresult hrows hdiffer _ _ =>
    obtain ⟨_, _, _, _, leftExports, rightExports, _, _, _, _, rfl⟩ :=
      Statement.ground_crossJoin_eq_ok.mp hground
    rw [hrows]
    refine ⟨leftExports, rightExports, _, rfl, hdiffer, ?_⟩
    intro layer hlayer
    obtain ⟨p, hp, rfl⟩ := List.mem_map.mp hlayer
    rcases List.mem_append.mp hp with hp | hp
    · have hp : clauses.select = some p := Option.mem_toList.mp hp
      rw [hp] at hselect
      obtain ⟨l, hl, hread⟩ := hselect.exists_of_eq_some
      exact ⟨l, List.mem_cons_of_mem _ hl, p, Lambda.readFrom_of_read hread, rfl⟩
    · cases List.mem_singleton.mp hp
      exact ⟨result, List.mem_cons_self, _, Lambda.readFrom_of_read hresult, rfl⟩

/-- **A column that no lambda around a cross join captures is of the side with its rows.** -/
theorem Query.column_of_crossJoin {q source collection : Query} {result : Lambda}
    (hbase : q.base = .crossJoin source collection result) {b : Binder}
    (hb : (q.binder env).outcome = .ok b) {token : ColumnToken}
    (htoken : ∀ l ∈ result :: q.projections, l.body.captures token = false) {position : Position}
    {e : Sql.Expr} (h : (b.scope.column token position).outcome = .ok e) :
    ((∃ name, e = .aliasedColumn "leftStatement" name) ↔ token.owner? = some result.rowTypes.1) ∧
    ((∃ name, e = .aliasedColumn "rightStatement" name) ↔ token.owner? = some result.rowTypes.2) := by
  obtain ⟨leftExports, rightExports, layers, hscope, hdiffer, hlayers⟩ :=
    Query.binder_crossJoin hbase hb
  have hlookup : ∀ layer ∈ layers, ∀ owner, token.owner? = some owner →
      layer.lookup (owner, token.member) = none := by
    intro layer hlayer owner howner
    obtain ⟨l, hl, p, hp, rfl⟩ := hlayers layer hlayer
    exact hp.lookup_eq_none (htoken l hl) howner
  rw [hscope] at h
  have h : (Frame.bindThrough env b.subqueries _ layers token position).outcome = .ok e := h
  rw [Frame.bindThrough_of_lookup_eq_none position hlookup] at h
  -- nothing is around the outermost statement, so the column is one of the two sides
  obtain ⟨owner, howner, hfound | ⟨_, _, ⟨⟩, _⟩⟩ := Frame.bindToSource_eq_ok.mp h
  obtain ⟨t, rfl | rfl, rfl, rfl⟩ := Source.column?_crossJoin_eq_some hfound
  · simp [howner, hdiffer, Sql.Expr.aliasedColumn]
  · simp [howner, hdiffer.symm, Sql.Expr.aliasedColumn]

/-! ## 3. The order of a cross join -/

/-- **When an element of an order is by one side of a cross join.**  If the key of the operator is a
column, it is handed on as a column.  If no lambda around captures that one, the element is a column of
the side if and only if it is a column of the type of the side's rows. -/
def Query.OrderingOperator.OrdersBy (env : Env) (around : List Lambda) (label : String) (row : Ty)
    (o : OrderingOperator) (item : Sql.Expr × Sql.Direction) : Prop :=
  ∀ p token, (o.key.read env 1).outcome = .ok p → p.body = .column token →
    ∃ k handed, o.restated env = .ok k ∧ k.key = .column handed ∧
      ((∀ l ∈ around, l.body.captures handed = false) →
        ((∃ name, item.1 = .aliasedColumn label name) ↔ handed.owner? = some row))

/-- The orderings of a side, given how the columns of a key that is handed on are bound. -/
theorem Query.OrderingOperator.ordersBy_of_restated {around : List Lambda} {label : String} {row : Ty}
    {b : Binder} {o : OrderingOperator} {k : SortKey} {item : Sql.Expr × Sql.Direction}
    (hcolumn : ∀ {handed : ColumnToken} {e : Sql.Expr},
      (∀ l ∈ around, l.body.captures handed = false) →
        (b.scope.column handed .predicate).outcome = .ok e →
          ((∃ name, e = .aliasedColumn label name) ↔ handed.owner? = some row))
    (hk : o.restated env = .ok k) (hitem : (k.toSql b).outcome = .ok item) :
    o.OrdersBy env around label row item := by
  intro p token hread hbody
  obtain ⟨ordering, hordering, hrestate⟩ := Except.bind_eq_ok.mp hk
  have hkey : ordering.sortKey.key = .column token := by
    obtain ⟨p', hread', hordering⟩ := Traced.bind_eq_ok.mp hordering
    cases hread.symm.trans hread'
    cases hordering
    exact hbody
  obtain ⟨handed, hhanded⟩ := SortKey.exists_column_of_restate hkey hrestate
  obtain ⟨e, he, hitem⟩ := Traced.bind_eq_ok.mp hitem
  cases hitem
  rw [hhanded] at he
  exact ⟨k, handed, hk, hhanded, fun htoken => hcolumn htoken he⟩

/-- **The order of a cross join, side by side.**  It starts with an element for each ordering of the
left side and goes on with one for each ordering of the right side.  An ordering by a column that no
lambda around captures is by its own side if and only if the column is handed on as one of the type of
the side's rows. -/
theorem Query.orderBy_sides_of_toSelect {env : Env} {q source collection : Query} {result : Lambda}
    (hbase : q.base = .crossJoin source collection result) {select : Sql.Select}
    (h : (q.toSelect env).outcome = .ok select) :
    ∃ left right own, select.orderBy = left ++ right ++ own ∧
      List.Forall₂
        (OrderingOperator.OrdersBy env (result :: q.projections) "leftStatement" result.rowTypes.1)
        (source.orderings.map (.handedOn source.projections)) left ∧
      List.Forall₂
        (OrderingOperator.OrdersBy env (result :: q.projections) "rightStatement" result.rowTypes.2)
        (collection.orderings.map (.handedOn collection.projections)) right ∧
      own.length = q.ownOrderings.length := by
  obtain ⟨b, hb, hitems⟩ := Query.forall₂_orderings_of_toSelect h
  rw [Query.orderings_eq_base_append, hbase, Query.orderings] at hitems
  obtain ⟨sides, own, heq, hsides, hown⟩ := hitems.exists_of_append
  obtain ⟨left, right, rfl, hleft, hright⟩ := hsides.exists_of_append
  refine ⟨left, right, own, heq, hleft.imp ?_, hright.imp ?_, hown.length_eq.symm⟩
  · rintro o item ⟨k, hk, hitem⟩
    refine OrderingOperator.ordersBy_of_restated (fun htoken he => ?_) hk hitem
    exact (Query.column_of_crossJoin hbase hb htoken he).1
  · rintro o item ⟨k, hk, hitem⟩
    refine OrderingOperator.ordersBy_of_restated (fun htoken he => ?_) hk hitem
    exact (Query.column_of_crossJoin hbase hb htoken he).2

/-- Cards of customers in the order of their names, with orders by falling amounts: the name is handed
on as the label of the card, and both orderings are by their own side. -/
theorem Query.orderBy_sides_of_toSelect_cards :
    let env : Env := ⟨Shop.schema, {}⟩
    let c : Parameter := ⟨"c", .row "Customer"⟩
    let o : Parameter := ⟨"o", .row "Order"⟩
    let card : Parameter := ⟨"card", .record "Card" [("Label", .scalar .string)]⟩
    let source := Query.select (.orderBy (.table "Customer") ⟨[c], Shop.field c "Name"⟩ .orderBy)
      ⟨[c], .new card.type [("Label", Shop.field c "Name")]⟩
    let collection := Query.orderBy (.table "Order") ⟨[o], Shop.field o "Amount"⟩ .orderByDescending
    let result : Lambda := ⟨[card, o], Shop.field o "Id"⟩
    let q := Query.crossJoin source collection result
    ∃ select, (q.toSelect env).outcome = .ok select ∧
      select.orderBy = [(.aliasedColumn "leftStatement" "Label", .asc),
        (.aliasedColumn "rightStatement" "Amount", .desc)] ∧
      ∃ left right own, select.orderBy = left ++ right ++ own ∧
        List.Forall₂ (OrderingOperator.OrdersBy env [result] "leftStatement" card.type)
          (source.orderings.map (.handedOn source.projections)) left ∧
        List.Forall₂ (OrderingOperator.OrdersBy env [result] "rightStatement" o.type)
          (collection.orderings.map (.handedOn collection.projections)) right ∧
        own.length = q.ownOrderings.length := by
  intro env c o card source collection result q
  have hbase : q.base = .crossJoin source collection result := rfl
  exact ⟨_, rfl, rfl, Query.orderBy_sides_of_toSelect hbase rfl⟩

/-- **An ordering of the left side that is by the right side.**  Only the names of the customers on
the left are selected, in the order of these names.  The name is handed on as a column of customers;
the rows on the left are strings by now, and those on the right are customers. -/
theorem Query.orderBy_name_other_side :
    let env : Env := ⟨Shop.schema, {}⟩
    let c : Parameter := ⟨"c", .row "Customer"⟩
    let name : Parameter := ⟨"name", .scalar .string⟩
    let source := Query.select (.orderBy (.table "Customer") ⟨[c], Shop.field c "Name"⟩ .orderBy)
      ⟨[c], Shop.field c "Name"⟩
    let collection := Query.table "Customer"
    let q := Query.crossJoin source collection ⟨[name, c], Shop.field c "City"⟩
    source.orderings.length = 1 ∧ collection.orderings.length = 0 ∧ q.ownOrderings.length = 0 ∧
    ∃ select, (q.toSelect env).outcome = .ok select ∧
      select.orderBy = [(.aliasedColumn "rightStatement" "Name", .asc)] ∧
      ∀ item ∈ select.orderBy, ¬∃ name, item.1 = .aliasedColumn "leftStatement" name := by
  refine ⟨rfl, rfl, rfl, _, rfl, rfl, ?_⟩
  intro item hitem
  cases List.mem_singleton.mp hitem
  simp [Sql.Expr.aliasedColumn]

end ChainQuery
