import ChainQuery.Proofs.Compile.Chains
import ChainQuery.Proofs.Compile.Nodes
import ChainQuery.Schema.Shop
/-!
# Orderings are neither lost nor doubled

Orderings travel.  Those of an equi-join's sides are gathered with the join; those of a cross join's
sides are left over when the sides are compiled, restated in terms of what the sides put out; and both
end up in front of the orderings of the statement around them, until the outermost one orders by all
of them.  `Statement.sortKeys` says which keys a statement orders by, or leaves, and
`Query.Gathers.sortKeys` that these are the keys of the ordering operators of its query
(`Query.orderings`), one for each and in order.

So the compiled selection has an element of its order for every ordering operator, and no selection
inside of it has any (`Query.orderBy_of_toSelect`).
-/

/-- Two relations between lists, one after the other. -/
theorem List.Forall₂.comp {α β γ : Type} {R : α → β → Prop} {S : β → γ → Prop} {xs : List α}
    {ys : List β} {zs : List γ} (hR : List.Forall₂ R xs ys) (hS : List.Forall₂ S ys zs) :
    List.Forall₂ (fun x z => ∃ y, R x y ∧ S y z) xs zs := by
  induction hR generalizing zs with
  | nil =>
    cases hS
    exact .nil
  | cons hxy _ ih =>
    cases hS with
    | cons hyz hS => exact .cons ⟨_, hxy, hyz⟩ (ih hS)

namespace ChainQuery

variable {env : Env}

/-! ## 1. Keys that are handed on -/

/-- A key as a side of a cross join hands it on: restated by its projection, if it has one. -/
def SortKey.handedOn (select : Option Projection) (k : SortKey) : SortKey :=
  match select with
  | some p => k.lift p
  | none => k

@[simp] theorem SortKey.lift_direction (p : Projection) (k : SortKey) :
    (k.lift p).direction = k.direction := by
  unfold SortKey.lift
  split <;> rfl

/-- A key as it is handed on through one projection after another. -/
def SortKey.restate (env : Env) (ls : List Lambda) (k : SortKey) : Except Error SortKey :=
  ls.foldlM (fun k l => return k.lift (← (l.read env 1).outcome)) k

theorem SortKey.restate_cons_eq_ok {l : Lambda} {ls : List Lambda} {k k' : SortKey} :
    k.restate env (l :: ls) = .ok k' ↔
      ∃ p, (l.read env 1).outcome = .ok p ∧ (k.lift p).restate env ls = .ok k' := by
  rw [restate, List.foldlM_cons, bind_assoc, Except.bind_eq_ok]
  rfl

theorem SortKey.restate_append_eq_ok {ls ls' : List Lambda} {k k' : SortKey} :
    k.restate env (ls ++ ls') = .ok k' ↔
      ∃ mid, k.restate env ls = .ok mid ∧ mid.restate env ls' = .ok k' := by
  rw [restate, List.foldlM_append, Except.bind_eq_ok]
  rfl

/-- **Handing a key on does not change its direction.** -/
theorem SortKey.direction_of_restate {ls : List Lambda} {k k' : SortKey}
    (h : k.restate env ls = .ok k') : k'.direction = k.direction := by
  induction ls generalizing k with
  | nil =>
    cases h
    rfl
  | cons l ls ih =>
    obtain ⟨p, _, h⟩ := SortKey.restate_cons_eq_ok.mp h
    rw [ih h, SortKey.lift_direction]

namespace Query.OrderingOperator

/-- **The key of an ordering operator**, as the outermost statement orders by it: it is restated by
every projection that it is handed on through. -/
def restated (env : Env) (o : OrderingOperator) : Except Error SortKey := do
  let ordering ← (o.key.readOrdering env o.kind).outcome
  ordering.sortKey.restate env o.through

variable {o : OrderingOperator} {k : SortKey}

theorem restated_of_readOrdering {key : Lambda} {kind : OrderingKind} {ordering : OrderingClause}
    (h : (key.readOrdering env kind).outcome = .ok ordering) :
    restated env { key, kind } = .ok ordering.sortKey :=
  Except.bind_eq_ok.mpr ⟨ordering, h, rfl⟩

/-- An operator in a side of a cross join, seen from around. -/
theorem restated_handedOn {ls : List Lambda} {select : Option Projection}
    (hselect : Clauses.Taken env ls none select) (h : o.restated env = .ok k) :
    (o.handedOn ls).restated env = .ok (k.handedOn select) := by
  obtain ⟨ordering, hordering, h⟩ := Except.bind_eq_ok.mp h
  refine Except.bind_eq_ok.mpr ⟨ordering, hordering, SortKey.restate_append_eq_ok.mpr ⟨k, h, ?_⟩⟩
  cases hselect with
  | none => rfl
  | one hread => exact SortKey.restate_cons_eq_ok.mpr ⟨_, hread, rfl⟩

/-- An operator sorts downwards if and only if its kind says so. -/
theorem direction_of_restated (h : o.restated env = .ok k) :
    k.direction = .desc ↔ o.kind = .orderByDescending ∨ o.kind = .thenByDescending := by
  obtain ⟨ordering, hordering, h⟩ := Except.bind_eq_ok.mp h
  obtain ⟨p, _, hordering⟩ := Traced.bind_eq_ok.mp hordering
  cases hordering
  rw [SortKey.direction_of_restate h]
  cases o.kind <;> simp [OrderingKind.isDescending]

end Query.OrderingOperator

/-! ## 2. The keys of a statement -/

/-- **The keys that a statement orders by or leaves**: those of its sides, then its own. -/
def Statement.sortKeys : Statement → List SortKey
  | .table clauses _ => clauses.orderings.map OrderingClause.sortKey
  | .join clauses _ _ _ _ _ lifted => lifted ++ clauses.orderings.map OrderingClause.sortKey
  | .crossJoin clauses left right _ _ _ =>
    left.sortKeys.map (.handedOn left.clauses.select)
      ++ right.sortKeys.map (.handedOn right.clauses.select)
      ++ clauses.orderings.map OrderingClause.sortKey

theorem Query.JoinedAs.restated {q : Query} {t : JoinedTable} {keys : List SortKey}
    (h : q.JoinedAs env t keys) :
    List.Forall₂ (fun o k => o.restated env = .ok k) q.orderings keys := by
  induction h with
  | table => exact .nil
  | orderBy _ hread _ ih =>
    exact List.rel_append ih (.cons (OrderingOperator.restated_of_readOrdering hread) .nil)

/-- The keys of a side of a cross join, seen from around. -/
theorem Query.Gathers.restated_handedOn {q : Query} {s : Statement} (h : q.Gathers env {} s)
    {os : List OrderingOperator} {keys : List SortKey}
    (hkeys : List.Forall₂ (fun o k => o.restated env = .ok k) os keys) :
    List.Forall₂ (fun o k => OrderingOperator.restated env o = .ok k)
      (os.map (OrderingOperator.handedOn q.projections))
      (keys.map (SortKey.handedOn s.clauses.select)) :=
  List.forall₂_map_left_iff.mpr (List.forall₂_map_right_iff.mpr
    (hkeys.imp fun _ _ hk => OrderingOperator.restated_handedOn h.select_taken hk))

/-- **The keys of a statement are those of the ordering operators of its query**, followed by those
found before. -/
theorem Query.Gathers.sortKeys {q : Query} {clauses : Clauses} {s : Statement}
    (h : q.Gathers env clauses s) :
    ∃ keys, List.Forall₂ (fun o k => o.restated env = .ok k) q.orderings keys ∧
      s.sortKeys = keys ++ clauses.orderings.map OrderingClause.sortKey := by
  induction h with
  | table => exact ⟨[], .nil, rfl⟩
  | select _ _ _ _ ih | filter _ _ _ _ ih => exact ih
  | orderBy _ hread _ ih =>
    obtain ⟨keys, hkeys, heq⟩ := ih
    -- the operator was put in front of those found before it, which are further out
    refine ⟨keys ++ [_], List.rel_append hkeys
      (.cons (OrderingOperator.restated_of_readOrdering hread) .nil), ?_⟩
    rw [heq, List.map_cons, List.append_assoc, List.singleton_append]
  | join _ _ _ hleft hright =>
    have hleftKeys := (joinedAs_of_toJoinedTable_empty hleft).restated
    have hrightKeys := (joinedAs_of_toJoinedTable_empty hright).restated
    exact ⟨_, List.rel_append hleftKeys hrightKeys, rfl⟩
  | crossJoin _ _ _ hleft hright ihl ihr =>
    obtain ⟨leftKeys, hleftKeys, hleftEq⟩ := ihl
    obtain ⟨rightKeys, hrightKeys, hrightEq⟩ := ihr
    refine ⟨_, List.rel_append (hleft.restated_handedOn hleftKeys)
      (hright.restated_handedOn hrightKeys), ?_⟩
    simp [Statement.sortKeys, hleftEq, hrightEq]

/-! ## 3. The order of a selection -/

section Selection

variable {subqueries : Subqueries} {outer : Option Scope} {depth : Nat} {s : Statement}
  {select : Sql.Select} {lifted : List SortKey}

/-- A side of a cross join leaves all keys, restated by its projection. -/
theorem Clauses.order_crossJoinSource_eq_ok {b : Binder} {clauses : Clauses} {keys : List SortKey}
    {orderBy : List (Sql.Expr × Sql.Direction)} :
    (clauses.order b .crossJoinSource keys).outcome = .ok (orderBy, lifted) ↔
      orderBy = [] ∧ lifted = keys.map (.handedOn clauses.select) := by
  unfold Clauses.order SortKey.handedOn
  cases clauses.select with
  | none => simp [eq_comm]
  | some p => simp [eq_comm]

/-- **A side of a cross join hands on the keys of its statement.** -/
theorem Statement.toSelect_crossJoinSource_lifted
    (h : (s.toSelect env subqueries outer .crossJoinSource depth).outcome = .ok (select, lifted)) :
    lifted = s.sortKeys.map (.handedOn s.clauses.select) := by
  induction s generalizing depth select lifted with
  | table clauses rowType =>
    obtain ⟨ground, hground, hparts⟩ := Statement.toSelect_eq_ok.mp h
    obtain ⟨info, _, rfl⟩ := Ground.table_eq_ok.mp hground
    obtain ⟨_, _, _, _, _, _, _, horder, _⟩ := Statement.assemble_eq_ok.mp hparts
    exact (Clauses.order_crossJoinSource_eq_ok.mp horder).2
  | join clauses left right outerKey innerKey result keys =>
    obtain ⟨_, _, _, _, _, _, _, horder, _⟩ := Statement.assemble_eq_ok.mp h
    exact (Clauses.order_crossJoinSource_eq_ok.mp horder).2
  | crossJoin clauses left right leftRow rightRow result ihl ihr =>
    obtain ⟨_, leftKeys, _, rightKeys, _, _, hleft, hright, _, _, hparts⟩ :=
      Statement.toSelect_crossJoin_eq_ok.mp h
    obtain ⟨_, _, _, _, _, _, _, horder, _⟩ := Statement.assemble_eq_ok.mp hparts
    obtain rfl := ihl hleft
    obtain rfl := ihr hright
    exact (Clauses.order_crossJoinSource_eq_ok.mp horder).2

/-- **All keys of a statement come together where it is assembled.** -/
theorem Statement.ground_lifted_append {ground : Ground}
    (h : (s.ground env subqueries outer depth).outcome = .ok ground) :
    ground.lifted ++ s.clauses.orderings.map OrderingClause.sortKey = s.sortKeys := by
  cases s with
  | table clauses rowType =>
    obtain ⟨info, _, rfl⟩ := Ground.table_eq_ok.mp h
    rfl
  | join clauses left right outerKey innerKey result keys =>
    cases h
    rfl
  | crossJoin clauses left right leftRow rightRow result =>
    obtain ⟨_, leftKeys, _, rightKeys, _, _, hleft, hright, _, _, rfl⟩ :=
      Statement.ground_crossJoin_eq_ok.mp h
    obtain rfl := Statement.toSelect_crossJoinSource_lifted hleft
    obtain rfl := Statement.toSelect_crossJoinSource_lifted hright
    rfl

section Unordered

variable {levels : Nat}

/-- A side of a cross join has no order, nor has any selection in it if its own sides have none. -/
theorem Statement.side_unordered (hs : s.Coupled (.onAll env) s)
    (h : (s.toSelect env (Correlated.toSelect env levels) none .crossJoinSource depth).outcome
      = .ok (select, lifted))
    (hderived : ∀ t ∈ select.derived, t.Everywhere (·.orderBy = [])) :
    select.Everywhere (·.orderBy = []) := by
  refine (Statement.everywhere_toSelect_iff (fun t ht => ht.2) hs h).mpr ⟨?_, hderived⟩
  obtain ⟨_, _, hparts⟩ := Statement.toSelect_eq_ok.mp h
  obtain ⟨_, _, _, _, _, _, _, horder, rfl⟩ := Statement.assemble_eq_ok.mp hparts
  exact Clauses.orderBy_eq_nil (by simp) horder

/-- **The derived tables of a selection have no order**, down to the innermost. -/
theorem Statement.derived_unordered {role : Role} (hs : s.Coupled (.onAll env) s)
    (h : (s.toSelect env (Correlated.toSelect env levels) none role depth).outcome
      = .ok (select, lifted)) :
    ∀ t ∈ select.derived, t.Everywhere (·.orderBy = []) := by
  induction s generalizing role depth select lifted with
  | table clauses rowType =>
    obtain ⟨_, _, hclause, hjoins, hfrom⟩ := Statement.selectsFrom_of_toSelect h
    cases hfrom
    simp [Sql.Select.derived, hclause, hjoins, Sql.From.derived?]
  | join clauses left right outerKey innerKey result keys =>
    obtain ⟨_, _, hclause, hjoins, hfrom⟩ := Statement.selectsFrom_of_toSelect h
    cases hfrom
    simp [Sql.Select.derived, hclause, hjoins, Sql.From.derived?, Sql.Join.derived?]
  | crossJoin clauses left right leftRow rightRow result ihl ihr =>
    cases hs with
    | crossJoin _ hleft hright =>
      obtain ⟨_, _, hclause, hjoins, hfrom⟩ := Statement.selectsFrom_of_toSelect h
      cases hfrom with
      | crossJoin hleftSelect hrightSelect =>
        have hleftSide := Statement.side_unordered hleft hleftSelect (ihl hleft hleftSelect)
        have hrightSide := Statement.side_unordered hright hrightSelect (ihr hright hrightSelect)
        simpa [Sql.Select.derived, hclause, hjoins, Sql.From.derived?, Sql.Join.derived?]
          using ⟨hleftSide, hrightSide⟩

end Unordered

end Selection

/-! ## 4. Queries -/

/-- What the expressions of the outermost selection of a query are bound with. -/
def Query.binder (env : Env) (q : Query) : Traced Binder := do
  let s ← q.toStatement env
  let ground ← s.ground env (Correlated.toSelect env q.aggregateDepth) none 0
  return s.binder env (Correlated.toSelect env q.aggregateDepth) none 0 ground.source

/-- **The order of a compiled selection**: one element for each ordering operator of the query, in
their order, which is what the operator's key is bound to. -/
theorem Query.forall₂_orderings_of_toSelect {q : Query} {select : Sql.Select}
    (h : (q.toSelect env).outcome = .ok select) :
    ∃ b, (q.binder env).outcome = .ok b ∧
      List.Forall₂
        (fun o item => ∃ k, OrderingOperator.restated env o = .ok k ∧ (k.toSql b).outcome = .ok item)
        q.orderings select.orderBy := by
  obtain ⟨s, lifted, hs, hselect⟩ := Query.toSelect_eq_ok.mp h
  obtain ⟨ground, hground, hparts⟩ := Statement.toSelect_eq_ok.mp hselect
  obtain ⟨_, _, _, _, _, _, _, horder, rfl⟩ := Statement.assemble_eq_ok.mp hparts
  obtain ⟨keys, hkeys, heq⟩ := (Query.toStatement_eq_ok.mp hs).sortKeys
  rw [Statement.ground_lifted_append hground, heq] at horder
  refine ⟨_, Traced.bind_eq_ok.mpr ⟨s, hs, Traced.bind_eq_ok.mpr ⟨ground, hground, rfl⟩⟩, ?_⟩
  have hitems := Traced.mapM_eq_ok.mp (Clauses.order_root_eq_ok.mp horder).1
  exact hkeys.comp (by simpa using hitems)

/-- **Orderings are neither lost nor doubled.**  No selection inside a compiled one has an order.  The
outermost order has one element for each ordering operator of the whole query: first those of the left
side of a join or cross join, then those of the right side, then the query's own from the table
outwards.  Each is the operator's key, restated by the projections of the sides that it is handed out
of, and descends if and only if the operator does. -/
theorem Query.orderBy_of_toSelect {env : Env} {q : Query} {select : Sql.Select}
    (h : (q.toSelect env).outcome = .ok select) :
    (∀ t ∈ select.parts, t.Everywhere (·.orderBy = [])) ∧
    ∃ b, (q.binder env).outcome = .ok b ∧
      List.Forall₂
        (fun o item =>
          (∃ k, OrderingOperator.restated env o = .ok k ∧ (k.toSql b).outcome = .ok item) ∧
          (item.2 = .desc ↔ o.kind = .orderByDescending ∨ o.kind = .thenByDescending))
        q.orderings select.orderBy := by
  constructor
  · obtain ⟨s, lifted, hs, hselect⟩ := Query.toSelect_eq_ok.mp h
    have hcoupled := (Query.toStatement_eq_ok.mp hs).coupled_onAll
    exact (Statement.parts_toSelect_iff (fun t ht => ht.2) hcoupled hselect).mpr
      (Statement.derived_unordered hcoupled hselect)
  · obtain ⟨b, hb, hitems⟩ := Query.forall₂_orderings_of_toSelect h
    refine ⟨b, hb, hitems.imp ?_⟩
    rintro o item ⟨k, hk, hitem⟩
    refine ⟨⟨k, hk, hitem⟩, ?_⟩
    obtain ⟨e, _, hitem⟩ := Traced.bind_eq_ok.mp hitem
    cases hitem
    exact OrderingOperator.direction_of_restated hk

/-- A cross join of cards, made of customers in descending order of their names, with the orders that
have lines: the names come first, under the name that they have on the cards; then come the ordering
under the equi-join, that of the right side, and the outermost. -/
theorem Query.orderBy_of_toSelect_sides :
    let env : Env := ⟨Shop.schema, {}⟩
    let c : Parameter := ⟨"c", .row "Customer"⟩
    let o : Parameter := ⟨"o", .row "Order"⟩
    let l : Parameter := ⟨"l", .row "OrderLine"⟩
    let card : Parameter := ⟨"card", .record "Card" [("Label", .scalar .string)]⟩
    let cards := Query.select
      (.orderBy (.table "Customer") ⟨[c], Shop.field c "Name"⟩ .orderByDescending)
      ⟨[c], .new card.type [("Label", Shop.field c "Name")]⟩
    let orders := Query.join (.orderBy (.table "Order") ⟨[o], Shop.field o "Amount"⟩ .orderBy)
      (.table "OrderLine") ⟨[o], Shop.field o "Id"⟩ ⟨[l], Shop.field l "OrderId"⟩
      ⟨[o, l], .parameter "o" o.type⟩
    let q := Query.orderBy
      (.crossJoin cards (.orderBy orders ⟨[o], Shop.field o "CustomerId"⟩ .thenByDescending)
        ⟨[card, o], card.member "Label" (.scalar .string)⟩)
      ⟨[o], Shop.field o "Id"⟩ .thenBy
    ∃ select, (q.toSelect env).outcome = .ok select ∧
      select.orderBy = [(.aliasedColumn "leftStatement" "Label", .desc),
        (.aliasedColumn "rightStatement" "Amount", .asc),
        (.aliasedColumn "rightStatement" "CustomerId", .desc),
        (.aliasedColumn "rightStatement" "Id", .asc)] ∧
      (∀ t ∈ select.parts, t.Everywhere (·.orderBy = [])) ∧
      ∃ b, (q.binder env).outcome = .ok b ∧
        List.Forall₂
          (fun o item =>
            (∃ k, OrderingOperator.restated env o = .ok k ∧ (k.toSql b).outcome = .ok item) ∧
            (item.2 = .desc ↔ o.kind = .orderByDescending ∨ o.kind = .thenByDescending))
          q.orderings select.orderBy :=
  ⟨_, rfl, rfl, Query.orderBy_of_toSelect rfl⟩

end ChainQuery
