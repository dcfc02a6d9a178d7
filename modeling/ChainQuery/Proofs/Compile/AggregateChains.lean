import ChainQuery.Proofs.Compile.AggregateDepth
import ChainQuery.Proofs.Compile.NavigationKeys
/-!
# Aggregates of aggregates correlate level by level

An aggregate of the rows that a navigation leads to may have an aggregate of their related rows as its
selector, and so on: the selector of a level is the level below it (`AggregateChain`), and the last one
is a column.  A level that is not the last becomes two selections, one of pairs from the table of its
rows and one from the pairs, and the last level becomes one.  So the depth grows by two and then by one,
and a level is compiled while the value of a pair is bound, in a scope where the members of the pair
stand in front of the columns of the rows.

`Query.toSelect_aggregateChain` says what comes out for every number of levels: the aliases of all
tables, and that each level compares its own foreign key with the primary key of the level above.  It
asks that two row types differ if one follows the other in the chain.
-/

namespace ChainQuery

/-! ## 1. Chains of aggregates -/

/-- **A level of a chain of aggregates**: which rows it is over, and the aggregate of them. -/
structure AggregateLevel (s : Schema) where
  navigation : Navigation s
  aggregate : Aggregate
  /-- The name of the parameter that stands for a related row. -/
  parameter : String
  /-- The static type of the aggregate. -/
  type : Ty
  ne_count : aggregate ≠ .count
  parentName_ne : navigation.parentName ≠ ""
  childName_ne : navigation.childName ≠ ""
  distinct : navigation.childName ≠ navigation.parentName

/-- **A chain of aggregates** of the rows of a type. -/
inductive AggregateChain (s : Schema) : String → Type
  /-- An aggregate of a scalar column. -/
  | column (l : AggregateLevel s) (member : String) (column : Column) (t : Ty)
      (hcolumn : l.navigation.child.columns.lookup member = some column) (ht : t.isScalar = true) :
      AggregateChain s l.navigation.parentName
  /-- An aggregate of a chain. -/
  | nested (l : AggregateLevel s) (below : AggregateChain s l.navigation.childName) :
      AggregateChain s l.navigation.parentName

/-- A related row. -/
def AggregateLevel.row {s : Schema} (l : AggregateLevel s) : Parameter :=
  ⟨l.parameter, .row l.navigation.childName⟩

/-- The call of a level, on the row that `x` stands for. -/
def AggregateLevel.call {s : Schema} (l : AggregateLevel s) (x : String) (body : Expr) : Expr :=
  .aggregate l.aggregate (l.navigation.collection (.parameter x (.row l.navigation.parentName)))
    (some ⟨[l.row], body⟩) l.type

namespace AggregateChain

variable {s : Schema}

/-- The number of levels. -/
def length : {row : String} → AggregateChain s row → Nat
  | _, column _ _ _ _ _ _ => 1
  | _, nested _ below => below.length + 1

theorem length_pos {row : String} (c : AggregateChain s row) : 0 < c.length := by
  cases c with
  | column => exact Nat.succ_pos _
  | nested => exact Nat.succ_pos _

/-- The row type that a chain is of. -/
def parent : {row : String} → AggregateChain s row → RowType
  | _, column l _ _ _ _ _ => l.navigation.parent
  | _, nested l _ => l.navigation.parent

/-- **The expression of a chain**, on the row that `x` stands for. -/
def expr (x : String) : {row : String} → AggregateChain s row → Expr
  | _, column l member _ t _ _ => l.call x (l.row.member member t)
  | _, nested l below => l.call x (below.expr l.parameter)

end AggregateChain

/-! ## 2. Selections of levels -/

/-- **The alias of the table of a level**, among `k` levels.  Level `0` is the table of the query. -/
def levelAlias (k i : Nat) : String := Sql.depthAlias (if i = k then 2 * k - 1 else 2 * i)

/-- The table of a level that is not the last. -/
theorem levelAlias_of_lt {k i : Nat} (h : i < k) : levelAlias k i = Sql.depthAlias (2 * i) := by
  rw [levelAlias, if_neg (Nat.ne_of_lt h)]

/-- The table of the last level. -/
theorem levelAlias_last (i : Nat) : levelAlias (i + 1) (i + 1) = Sql.depthAlias (2 * i + 1) := by
  rw [levelAlias, if_pos rfl]
  rfl

/-- **The rows of a level**: those whose foreign key is the primary key of the level above. -/
def AggregateLevel.rows {s : Schema} (l : AggregateLevel s) (label above : String)
    (list : Sql.SelectList) : Sql.Select where
  list
  source := some (.table (.table l.navigation.child.table) (some label))
  joins := []
  filter := .op (.aliasedColumn label l.navigation.reference.name) "="
    (.aliasedColumn above l.navigation.key.name)
  orderBy := []

/-- **The selection of a chain** whose first level is level `i` among `k`: the last level aggregates a
column, and every other one the values of its pairs. -/
def AggregateChain.select {s : Schema} (k : Nat) :
    (i : Nat) → {row : String} → AggregateChain s row → Sql.Select
  | i, _, column l _ c _ _ _ =>
    l.rows (levelAlias k i) (levelAlias k (i - 1)) (.plain [l.aggregate.toSql (.bareColumn c.name)])
  | i, _, nested l below =>
    .fromDerived [l.aggregate.toSql (.bareColumn "Value")]
      (l.rows (levelAlias k i) (levelAlias k (i - 1))
        (.aliased [("Key", .bareColumn l.navigation.reference.name),
          ("Value", .subselect (below.select k (i + 1)))]))
      (Sql.depthAlias (2 * i - 1))

/-! ## 3. Reading -/

/-- The query of a chain, on the row that `x` stands for. -/
def AggregateChain.correlated {s : Schema} (x : String) :
    {row : String} → AggregateChain s row → Correlated
  | _, column l member _ t _ _ =>
    ⟨l.navigation.related x l.parameter ⟨[l.row], l.row.member member t⟩, l.aggregate, false⟩
  | _, nested l below =>
    ⟨l.navigation.related x l.parameter
      ⟨[l.row], l.navigation.pair l.parameter (below.expr l.parameter)⟩, l.aggregate, true⟩

section Reading

variable {env : Env}

/-- An aggregate is read as the query that computes it, and builds no record. -/
theorem Expr.toScalar_aggregate {a : Aggregate} {args : List Expr} {t : Ty} {c : Correlated}
    (h : (Correlated.ofCall env.schema (call (.aggregate a) none args t).text a args).outcome = .ok c)
    (r : Reading) :
    (((call (.aggregate a) none args t).toScalar env).run r).outcome
      = .ok (.subquery c, if r.columns.contains (.subquery c) then r
          else { r with columns := r.columns ++ [.subquery c] }) :=
  ReadM.bind_eq_ok.mpr ⟨c, r, Traced.bind_eq_ok.mpr ⟨c, h, rfl⟩, rfl⟩

/-- A member of a record is read after those before it. -/
theorem Expr.readMembers_cons {owner : Ty} {name : String} {e : Expr} {s : Scalar}
    {members : List (String × Expr)} {r mid r' : Reading}
    (he : ((e.toScalar env).run r).outcome = .ok (s, mid))
    (hmembers : ((readMembers env owner members).run
        { mid with aliases := Assoc.put (owner, propertyName name) s mid.aliases }).outcome
      = .ok ((), r')) :
    ((readMembers env owner ((name, e) :: members)).run r).outcome = .ok ((), r') :=
  ReadM.bind_eq_ok.mpr ⟨s, mid, he, ReadM.bind_eq_ok.mpr ⟨(), _, rfl, hmembers⟩⟩

/-- A chain is an aggregate. -/
theorem AggregateChain.isAggregate_expr {s : Schema} {row : String} (c : AggregateChain s row)
    (x : String) : (c.expr x).isAggregate = true := by
  cases c with
  | column => rfl
  | nested => rfl

/-- **A chain is read as its query.** -/
theorem AggregateChain.toScalar_expr {row : String} (c : AggregateChain env.schema row) (x : String)
    (r : Reading) :
    (((c.expr x).toScalar env).run r).outcome
      = .ok (.subquery (c.correlated x), if r.columns.contains (.subquery (c.correlated x)) then r
          else { r with columns := r.columns ++ [.subquery (c.correlated x)] }) := by
  cases c with
  | column l member column t hcolumn ht =>
    exact Expr.toScalar_aggregate (Navigation.ofCall_selector l.ne_count _ x l.parameter _) r
  | nested l below =>
    have hcall := Navigation.ofCall_selector (n := l.navigation) l.ne_count
      ((nested l below).expr x).text x l.parameter (below.expr l.parameter)
    rw [below.isAggregate_expr, if_pos rfl] at hcall
    exact Expr.toScalar_aggregate hcall r

/-- A chain builds no record. -/
theorem AggregateChain.exists_toScalar_expr {row : String} (c : AggregateChain env.schema row)
    (x : String) (r : Reading) :
    ∃ columns, (((c.expr x).toScalar env).run r).outcome
      = .ok (.subquery (c.correlated x), { r with columns }) := by
  have hread := c.toScalar_expr x r
  split at hread
  · exact ⟨r.columns, hread⟩
  · exact ⟨_, hread⟩

/-- **A pair is read as a record of the reference and the query of the value.** -/
theorem AggregateLevel.read_pair (l : AggregateLevel env.schema)
    (below : AggregateChain env.schema l.navigation.childName) :
    ∃ p, ((⟨[l.row], l.navigation.pair l.parameter (below.expr l.parameter)⟩ : Lambda).read
        env 1).outcome = .ok p ∧
      p.recordMembers = [("Key", .column ⟨[.row l.navigation.childName], l.navigation.foreignKey⟩),
        ("Value", .subquery (below.correlated l.parameter))] ∧
      ∀ a ∈ p.aliases, a.1.1.row? = none := by
  let t := (l.navigation.pair l.parameter (below.expr l.parameter)).type
  let reference := Scalar.column ⟨[.row l.navigation.childName], l.navigation.foreignKey⟩
  let value := Scalar.subquery (below.correlated l.parameter)
  obtain ⟨columns, hreference⟩ := Expr.toScalar_member env
    (t := .scalar l.navigation.reference.type) rfl l.parameter l.navigation.childName
    l.navigation.foreignKey {}
  obtain ⟨columns', hvalue⟩ := below.exists_toScalar_expr l.parameter
    ⟨columns, [((t, "Key"), reference)]⟩
  have haliases : Assoc.put (t, "Value") value [((t, "Key"), reference)]
      = [((t, "Key"), reference), ((t, "Value"), value)] := Assoc.put_of_not_mem (by simp) value
  have hmembers : ((Expr.readMembers env t
      [("Key", l.row.member l.navigation.foreignKey (.scalar l.navigation.reference.type)),
        ("Value", below.expr l.parameter)]).run {}).outcome
      = .ok ((), ⟨columns', [((t, "Key"), reference), ((t, "Value"), value)]⟩) := by
    refine Expr.readMembers_cons hreference (Expr.readMembers_cons hvalue ?_)
    rw [← haliases]
    rfl
  refine ⟨_, Lambda.read_of_toScalar (ReadM.bind_eq_ok.mpr
    ⟨(), {}, rfl, ReadM.bind_eq_ok.mpr ⟨(), _, hmembers, rfl⟩⟩), ?_, ?_⟩
  · simp [Projection.recordMembers, reference, value, t]
  · simp [t, Navigation.pair, Expr.record, Expr.type, Ty.row?]

end Reading

/-! ## 4. Compiling -/

/-- A scope binds the rows of a type to the table of its own statement. -/
def Scope.BindsRow (env : Env) (scope : Scope) (row : String) : Prop :=
  ∀ {member name : String}, env.schema.columnName row member = .ok name →
    (scope.column ⟨[.row row], member⟩ .predicate).outcome
      = .ok (.aliasedColumn (Sql.depthAlias scope.depth) name)

variable {env : Env}

/-- The primary key of the row at hand. -/
theorem Scope.BindsRow.key {scope : Scope} {n : Navigation env.schema}
    (h : scope.BindsRow env n.parentName) :
    (scope.column ⟨[.row n.parentName], n.parent.primaryKey⟩ .predicate).outcome
      = .ok (.aliasedColumn (Sql.depthAlias scope.depth) n.key.name) :=
  h (Schema.columnName_of_lookup n.parent_eq n.key_eq)

/-- **The last level** is one selection. -/
theorem AggregateChain.toSelect_column {l : AggregateLevel env.schema} {member : String}
    {column : Column} {t : Ty} (hcolumn : l.navigation.child.columns.lookup member = some column)
    (ht : t.isScalar = true) (x : String) (levels : Nat) {i : Nat} {scope : Scope}
    (hdepth : scope.depth = 2 * i) (hrow : scope.BindsRow env l.navigation.parentName) :
    (Correlated.toSelect env (levels + 1)
        ((AggregateChain.column l member column t hcolumn ht).correlated x) scope).outcome
      = .ok ((AggregateChain.column l member column t hcolumn ht).select (i + 1) (i + 1)) := by
  obtain ⟨p, hp⟩ := Navigation.projectsTo_column l.ne_count l.parameter hcolumn ht
  have hselect := hp.toSelect l.childName_ne x l.parameter levels hrow.key
  rw [Navigation.relatedRows, if_neg l.distinct, hdepth] at hselect
  rw [AggregateChain.select, levelAlias_last, Nat.add_sub_cancel, levelAlias_of_lt (Nat.lt_succ_self i)]
  exact hselect

/-- **Pairs are selected under the names of their members.** -/
theorem Navigation.selectList_pairs {n : Navigation env.schema} {p f : Projection} {b : Binder}
    {c : Correlated} {value : Sql.Select}
    (hmembers : p.recordMembers
      = [("Key", .column ⟨[.row n.childName], n.foreignKey⟩), ("Value", .subquery c)])
    (hreference : (b.scope.column ⟨[.row n.childName], n.foreignKey⟩ .selectList).outcome
      = .ok (.bareColumn n.reference.name))
    (hvalue : (b.subqueries c b.scope).outcome = .ok value) :
    ((n.rows p f).selectList b .correlatedPairs).outcome
      = .ok (.aliased [("Key", .bareColumn n.reference.name), ("Value", .subselect value)]) := by
  have hexported : (n.rows p f).exportedMembers? .correlatedPairs = some p.recordMembers := by
    rw [Statement.exportedMembers?_eq]
    change (if p.recordMembers.isEmpty then none else some p.recordMembers) = _
    rw [hmembers]
    rfl
  change ((n.rows p f).rowList b .correlatedPairs).outcome = _
  rw [Statement.rowList, hexported, hmembers]
  refine Traced.bind_eq_ok.mpr ⟨_, Traced.mapM_eq_ok.mpr (.cons ?key (.cons ?value .nil)), rfl⟩
  case key => exact Traced.bind_eq_ok.mpr ⟨_, hreference, rfl⟩
  case value => exact Traced.bind_eq_ok.mpr ⟨_, Traced.bind_eq_ok.mpr ⟨_, hvalue, rfl⟩, rfl⟩

/-- **A level that is not the last** is a selection from pairs, and the level below it stands in the scope
of the pairs. -/
theorem AggregateChain.toSelect_nested {l : AggregateLevel env.schema}
    {below : AggregateChain env.schema l.navigation.childName} (x : String) {levels i k : Nat}
    {scope : Scope} (hk : i + 1 < k) (hdepth : scope.depth = 2 * i)
    (hrow : scope.BindsRow env l.navigation.parentName)
    (hbelow : ∀ inner : Scope, inner.depth = 2 * (i + 1) →
      inner.BindsRow env l.navigation.childName →
      (Correlated.toSelect env levels (below.correlated l.parameter) inner).outcome
        = .ok (below.select k (i + 2))) :
    (Correlated.toSelect env (levels + 1) ((nested l below).correlated x) scope).outcome
      = .ok ((nested l below).select k (i + 1)) := by
  obtain ⟨p, hread, hmembers, haliases⟩ := l.read_pair below
  obtain ⟨f, hstatement, hf⟩ := Navigation.toStatement_related l.childName_ne rfl hread x l.parameter
  let b := l.navigation.binder p f (Correlated.toSelect env levels) scope (scope.depth + 2)
  have hreference : (b.scope.column ⟨[.row l.navigation.childName], l.navigation.foreignKey⟩
      .selectList).outcome = .ok (.bareColumn l.navigation.reference.name) :=
    Navigation.column_child haliases _ _
      (Schema.columnName_of_lookup l.navigation.child_eq l.navigation.reference_eq) .selectList
  have hinner : b.scope.BindsRow env l.navigation.childName := fun hname =>
    Navigation.column_child haliases _ _ hname .predicate
  have hvalue := hbelow b.scope (congrArg (· + 2) hdepth) hinner
  have hlist := Navigation.selectList_pairs (f := f) hmembers hreference hvalue
  have hpairs := Navigation.toSelect_rows haliases _ _ hf hrow.key (Or.inl rfl) hlist
  refine Correlated.toSelect_eq_ok.mpr ⟨_, hstatement, Or.inl ⟨rfl, _, [], hpairs, ?_⟩⟩
  rw [if_neg l.distinct, select, levelAlias_of_lt hk, Nat.add_sub_cancel,
    levelAlias_of_lt (Nat.lt_of_succ_lt hk), hdepth]
  rfl

/-- **A chain is compiled level by level**, in a scope that binds its rows. -/
theorem AggregateChain.toSelect_correlated {row : String} (c : AggregateChain env.schema row)
    (x : String) {levels i k : Nat} {scope : Scope} (hlevels : c.length ≤ levels)
    (hk : i + c.length = k) (hdepth : scope.depth = 2 * i) (hrow : scope.BindsRow env row) :
    (Correlated.toSelect env levels (c.correlated x) scope).outcome = .ok (c.select k (i + 1)) := by
  induction c generalizing x levels i scope with
  | column l member column t hcolumn ht =>
    obtain ⟨levels, rfl⟩ := Nat.exists_eq_add_one.mpr hlevels
    subst hk
    exact toSelect_column hcolumn ht x levels hdepth hrow
  | nested l below ih =>
    obtain ⟨levels, rfl⟩ := Nat.exists_eq_add_one.mpr (Nat.lt_of_lt_of_le (Nat.succ_pos _) hlevels)
    have hbelow : i + 1 + below.length = k := by
      rw [← hk, length]
      omega
    have hlast : i + 1 < k := by
      have hpositive := below.length_pos
      omega
    exact toSelect_nested x hlast hdepth hrow fun inner hinner hrow' =>
      ih l.parameter (Nat.le_of_succ_le_succ hlevels) hbelow hinner hrow'

/-! ## 5. Queries -/

/-- A chain is nested as deep as it has levels. -/
theorem AggregateChain.length_le_aggregateDepth {s : Schema} {row : String} (c : AggregateChain s row)
    (x : String) : c.length ≤ (c.expr x).aggregateDepth := by
  induction c generalizing x with
  | column l member column t hcolumn ht =>
    rw [Expr.aggregateDepth_eq]
    exact Nat.le_add_left 1 _
  | nested l below ih =>
    let selector : Lambda := ⟨[l.row], below.expr l.parameter⟩
    have hbody : (below.expr l.parameter).aggregateDepth ≤ selector.toExpr.aggregateDepth :=
      Expr.aggregateDepth_le_of_child List.mem_cons_self
    have hselector : selector.toExpr.aggregateDepth + 1 ≤ ((nested l below).expr x).aggregateDepth :=
      Expr.aggregateDepth_child (e := (nested l below).expr x)
        (List.mem_cons_of_mem _ List.mem_cons_self)
    exact Nat.le_trans (Nat.succ_le_succ (Nat.le_trans (ih l.parameter) hbody)) hselector

/-- **The value of an aggregate for each row of a table** is selected in a scope that binds the row. -/
theorem Query.toSelect_of_toScalar {row : String} {info : RowType} (hrow : row ≠ "")
    (hinfo : env.schema.rowTypes.lookup row = some info) {x : String} {e : Expr} {c : Correlated}
    (he : ((e.toScalar env).run {}).outcome = .ok (.subquery c, { columns := [.subquery c] }))
    {select : Sql.Select}
    (hselect : ∀ scope : Scope, scope.depth = 0 → scope.BindsRow env row →
      (Correlated.toSelect env e.aggregateDepth c scope).outcome = .ok select) :
    ((Query.select (.table row) ⟨[⟨x, .row row⟩], e⟩).toSelect env).outcome
      = .ok { list := .plain [.subselect select]
              source := some (.table (.table info.table) (some (Sql.depthAlias 0)))
              joins := []
              filter := .always
              orderBy := [] } := by
  let body : Projection := ⟨.row row, e.type, .subquery c, [.subquery c], []⟩
  let statement := Statement.table { select := some body } row
  let frame : Frame := ⟨0, .table row (Sql.depthAlias 0), none⟩
  let b := statement.binder env (Correlated.toSelect env e.aggregateDepth) none 0 frame.source
  have hstatement : ((Query.select (.table row) ⟨[⟨x, .row row⟩], e⟩).toStatement env).outcome
      = .ok statement :=
    Query.toStatement_eq_ok.mpr (.select rfl rfl (Lambda.read_of_toScalar he)
      (.table hrow (Schema.rowType_eq_ok.mpr hinfo)))
  have hdepth : (Query.select (.table row) ⟨[⟨x, .row row⟩], e⟩).aggregateDepth
      = e.aggregateDepth := by
    rw [Query.aggregateDepth, Query.aggregateDepth, Nat.zero_max]
  have hvalue := hselect b.scope rfl fun hname =>
    Frame.column_of_table rfl hname .predicate
  have hitems : ([Scalar.subquery c].mapM (b.resolve .selectList)).outcome
      = .ok [.subselect select] :=
    Traced.mapM_eq_ok.mpr (.cons (Traced.bind_eq_ok.mpr ⟨_, hvalue, rfl⟩) .nil)
  refine Query.toSelect_eq_ok.mpr ⟨statement, [], hstatement, ?_⟩
  rw [hdepth]
  exact Statement.toSelect_table_eq_ok.mpr ⟨_, Ground.table_eq_ok.mpr
    ⟨info, Schema.rowType_eq_ok.mpr hinfo, rfl⟩, Statement.assemble_eq_ok.mpr
      ⟨_, [], _, [], rfl, Traced.bind_eq_ok.mpr ⟨_, hitems, rfl⟩, rfl, rfl, rfl⟩⟩

/-- **Aggregates of aggregates correlate level by level.**  For a chain of any number of levels, the value
of the chain for each row of a table is one selection from the table.  Level `i` has its table under
its own alias (`levelAlias`), and compares its foreign key with the primary key of the table of level
`i - 1`.  Each level but the last aggregates the values of its pairs, and the last its column. -/
theorem Query.toSelect_aggregateChain {row : String} (c : AggregateChain env.schema row)
    (x : String) :
    ((Query.select (.table row) ⟨[⟨x, .row row⟩], c.expr x⟩).toSelect env).outcome
      = .ok { list := .plain [.subselect (c.select c.length 1)]
              source := some (.table (.table c.parent.table) (some (levelAlias c.length 0)))
              joins := []
              filter := .always
              orderBy := [] } := by
  have hname : row ≠ "" := by
    cases c with
    | column l => exact l.parentName_ne
    | nested l => exact l.parentName_ne
  have hinfo : env.schema.rowTypes.lookup row = some c.parent := by
    cases c with
    | column l => exact l.navigation.parent_eq
    | nested l => exact l.navigation.parent_eq
  rw [levelAlias_of_lt c.length_pos]
  exact toSelect_of_toScalar hname hinfo (c.toScalar_expr x {}) fun scope hdepth hrow =>
    c.toSelect_correlated x (c.length_le_aggregateDepth x) (Nat.zero_add _) hdepth hrow

/-- Three levels in a shop whose customers live in regions: the largest customer of a region, by the sum of
the average quantities of the orders. -/
theorem Query.toSelect_aggregateChain_regions :
    let region : RowType :=
      { table := "Region"
        primaryKey := "Id"
        columns := [Shop.column "Id" .int32]
        navigations := [("Customers", "Customer")] }
    let customer : RowType :=
      { Shop.customer with
        columns := Shop.customer.columns ++ [Shop.column "RegionId" .int32]
        foreignKeys := [("Region", "RegionId")] }
    let schema : Schema :=
      { rowTypes := [("Region", region), ("Customer", customer), ("Order", Shop.order),
          ("OrderLine", Shop.orderLine)] }
    let env : Env := ⟨schema, {}⟩
    let r : Parameter := ⟨"r", .row "Region"⟩
    let c : Parameter := ⟨"c", .row "Customer"⟩
    let o : Parameter := ⟨"o", .row "Order"⟩
    let l : Parameter := ⟨"l", .row "OrderLine"⟩
    let average := Expr.aggregate .average (Shop.field o "Lines")
      (some ⟨[l], Shop.field l "Quantity"⟩) (.scalar .double)
    let sum := Expr.aggregate .sum (Shop.field c "Orders") (some ⟨[o], average⟩) (.scalar .double)
    let largest := Expr.aggregate .max (r.member "Customers" (.collection (.row "Customer")))
      (some ⟨[c], sum⟩) (.scalar .double)
    let rows (table label reference above : String) (list : Sql.SelectList) : Sql.Select :=
      { list
        source := some (.table (.table table) (some label))
        joins := []
        filter := .op (.aliasedColumn label reference) "=" (.aliasedColumn above "Id")
        orderBy := [] }
    let pairs (table label reference above : String) (value : Sql.Select) : Sql.Select :=
      rows table label reference above
        (.aliased [("Key", .bareColumn reference), ("Value", .subselect value)])
    let averages := rows "OrderLine" "t5" "OrderId" "t4" (.plain [.call .avg [.bareColumn "Quantity"]])
    let sums := Sql.Select.fromDerived [.call .sum [.bareColumn "Value"]]
      (pairs "Order" "t4" "CustomerId" "t2" averages) "t3"
    let maxima := Sql.Select.fromDerived [.call .max [.bareColumn "Value"]]
      (pairs "Customer" "t2" "RegionId" "t0" sums) "t1"
    schema.validate = .ok () ∧
      ((Query.select (.table "Region") ⟨[r], largest⟩).toSelect env).outcome
        = .ok { list := .plain [.subselect maxima]
                source := some (.table (.table "Region") (some "t0"))
                joins := []
                filter := .always
                orderBy := [] } := by
  intro region customer schema env r c o l average sum largest rows pairs averages sums maxima
  let customers : AggregateLevel env.schema :=
    ⟨⟨"Region", "Customer", region, customer, "Customers", "RegionId", ⟨"RegionId", .int32, none⟩,
      ⟨"Id", .int32, none⟩, rfl, rfl, rfl, rfl, rfl, rfl⟩,
      .max, "c", .scalar .double, by decide, by decide, by decide, by decide⟩
  let orders : AggregateLevel env.schema :=
    ⟨⟨"Customer", "Order", customer, Shop.order, "Orders", "CustomerId", ⟨"CustomerId", .int32, none⟩,
      ⟨"Id", .int32, none⟩, rfl, rfl, rfl, rfl, rfl, rfl⟩,
      .sum, "o", .scalar .double, by decide, by decide, by decide, by decide⟩
  let lines : AggregateLevel env.schema :=
    ⟨⟨"Order", "OrderLine", Shop.order, Shop.orderLine, "Lines", "OrderId", ⟨"OrderId", .int32, none⟩,
      ⟨"Id", .int32, none⟩, rfl, rfl, rfl, rfl, rfl, rfl⟩,
      .average, "l", .scalar .double, by decide, by decide, by decide, by decide⟩
  let chain : AggregateChain env.schema "Region" :=
    .nested customers (.nested orders (.column lines "Quantity" ⟨"Quantity", .int32, none⟩
      (.scalar .int32) rfl rfl))
  have hexpr : chain.expr "r" = largest := rfl
  have hlength : chain.length = 3 := rfl
  have hselect : chain.select 3 1 = maxima := rfl
  have hlabel : levelAlias 3 0 = "t0" := rfl
  have h := Query.toSelect_aggregateChain chain "r"
  rw [hexpr, hlength, hselect, hlabel] at h
  exact ⟨rfl, h⟩

end ChainQuery
