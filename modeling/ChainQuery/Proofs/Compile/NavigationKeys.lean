import ChainQuery.Proofs.Compile.Binding
import ChainQuery.Proofs.Compile.Correlation
import ChainQuery.Proofs.Compile.Gathering
import ChainQuery.Proofs.Compile.Selection
import ChainQuery.Schema.Shop
/-!
# Aggregates over navigations compare keys

An aggregate over a navigation becomes a query over the rows that refer to the row at hand.  Its
filter compares two columns, the foreign key of the related rows and the primary key of the row at
hand, and both are bound by the type of the row that has them, innermost scope first.
`Query.toSelect_navigation` says where that leads for every navigation of a validated schema: the
foreign key is a column of the inner table, and the primary key one of the outer table unless the two
rows have the same type.

A row type that refers to itself is the exception.  There the inner table has the row of both columns,
and the filter compares two columns of the same row (`Query.toSelect_navigation_reports`).
-/

namespace ChainQuery

/-! ## 1. The aggregates -/

namespace Navigation

variable {s : Schema} (n : Navigation s)

/-- An aggregate over related rows that needs no more than a column of them, with its selector and
with what it selects. -/
inductive Selects : Aggregate → Option Lambda → Sql.Expr → Prop
  | count : Selects .count none .countAll
  | column {a : Aggregate} (hcount : a ≠ .count) (x : String) {member : String} {column : Column}
      {t : Ty} (hcolumn : n.child.columns.lookup member = some column) (ht : t.isScalar = true) :
      Selects a (some ⟨[⟨x, .row n.childName⟩], (⟨x, .row n.childName⟩ : Parameter).member member t⟩)
        (a.toSql (.bareColumn column.name))

/-- An aggregate of the related rows of a row that a parameter stands for. -/
def aggregate (x : String) (a : Aggregate) (selector : Option Lambda) (t : Ty) : Expr :=
  .aggregate a (n.collection (.parameter x (.row n.parentName))) selector t

/-- **The rows that refer to the row at hand**, selected from at some depth: the foreign key is their
own, and so is the primary key if they are of the same type. -/
def relatedRows (depth : Nat) (item : Sql.Expr) : Sql.Select where
  list := .plain [item]
  source := some (.table (.table n.child.table) (some (Sql.depthAlias (depth + 1))))
  joins := []
  filter := .op (.aliasedColumn (Sql.depthAlias (depth + 1)) n.reference.name) "="
    (.aliasedColumn (Sql.depthAlias (if n.childName = n.parentName then depth + 1 else depth))
      n.key.name)
  orderBy := []

end Navigation

/-! ## 2. Reading -/

section Reading

variable (env : Env)

/-- A member of a row is read as its column, and builds no record. -/
theorem Expr.toScalar_member {t : Ty} (ht : t.isScalar = true) (x row name : String) (r : Reading) :
    ∃ columns, ((((⟨x, .row row⟩ : Parameter).member name t).toScalar env).run r).outcome
      = .ok (.column ⟨[.row row], name⟩, { r with columns }) := by
  let column := Scalar.column ⟨[.row row], name⟩
  refine ⟨if r.columns.contains column then r.columns else r.columns ++ [column], ?_⟩
  have hrun : ((((⟨x, .row row⟩ : Parameter).member name t).toScalar env).run r).outcome
      = .ok (column, if r.columns.contains column then r
          else { r with columns := r.columns ++ [column] }) := by
    simp only [Parameter.member, Parameter.reference, toScalar, readMember, ht]
    rfl
  rw [hrun]
  split
  · rfl
  · rfl

variable {env}

/-- A lambda of one parameter is read as its body is. -/
theorem Lambda.read_of_toScalar {p : Parameter} {e : Expr} {s : Scalar} {r : Reading}
    (h : ((e.toScalar env).run {}).outcome = .ok (s, r)) :
    (Lambda.read env 1 ⟨[p], e⟩).outcome = .ok ⟨p.type, e.type, s, r.columns, r.aliases⟩ :=
  Traced.bind_eq_ok.mpr ⟨(s, r), h, rfl⟩

end Reading

/-! ## 3. Binding -/

/-- Records that a projection builds have no members of rows. -/
theorem Aliases.lookup_row_eq_none {aliases : Aliases} (h : ∀ a ∈ aliases, a.1.1.row? = none)
    (row member : String) : aliases.lookup (.row row, member) = none := by
  refine List.lookup_eq_none_iff.mpr fun a ha => bne_iff_ne.mpr fun heq => ?_
  have hrow := h a ha
  rw [← heq] at hrow
  cases hrow

/-- A column of the only table of a statement, behind records that do not have it. -/
theorem Frame.column_of_table_behind {env : Env} {subqueries : Subqueries} {frame : Frame}
    {layers : List Aliases} {row label member name : String}
    (hlayers : ∀ layer ∈ layers, layer.lookup (.row row, member) = none)
    (hsource : frame.source = .table row label)
    (hname : env.schema.columnName row member = .ok name) (position : Position) :
    ((frame.scope env subqueries layers).column ⟨[.row row], member⟩ position).outcome
      = .ok (match position with
        | .selectList => .bareColumn name
        | .predicate => .aliasedColumn label name) := by
  change (frame.bindThrough env subqueries layers _ _).outcome = _
  rw [Frame.bindThrough_of_lookup_eq_none position (by rintro layer hlayer _ ⟨⟩; exact hlayers layer hlayer)]
  refine Frame.bindToSource_eq_ok.mpr ⟨.row row, rfl, Or.inl ?_⟩
  rw [hsource]
  simp only [Source.column?, beq_self_eq_true, if_true, hname, Except.ok_bind]
  cases position with
  | selectList => rfl
  | predicate => rfl

/-- A column of the only table of a statement. -/
theorem Frame.column_of_table {env : Env} {subqueries : Subqueries} {frame : Frame}
    {row label member name : String} (hsource : frame.source = .table row label)
    (hname : env.schema.columnName row member = .ok name) (position : Position) :
    ((frame.scope env subqueries [[]]).column ⟨[.row row], member⟩ position).outcome
      = .ok (match position with
        | .selectList => .bareColumn name
        | .predicate => .aliasedColumn label name) :=
  column_of_table_behind (List.forall_mem_singleton.mpr rfl) hsource hname position

/-- A column of another row is one of the scope around. -/
theorem Frame.column_of_outer {env : Env} {subqueries : Subqueries} {frame : Frame}
    {layers : List Aliases} {row other label member : String} {outer : Scope} {e : Sql.Expr}
    (hlayers : ∀ layer ∈ layers, layer.lookup (.row other, member) = none)
    (hsource : frame.source = .table row label) (houter : frame.outer = some outer)
    (hother : other ≠ row) {position : Position}
    (he : (outer.column ⟨[.row other], member⟩ .predicate).outcome = .ok e) :
    ((frame.scope env subqueries layers).column ⟨[.row other], member⟩ position).outcome
      = .ok e := by
  change (frame.bindThrough env subqueries layers _ _).outcome = _
  rw [Frame.bindThrough_of_lookup_eq_none position (by rintro layer hlayer _ ⟨⟩; exact hlayers layer hlayer)]
  refine Frame.bindToSource_eq_ok.mpr ⟨.row other, rfl, Or.inr ⟨?_, outer, houter, he⟩⟩
  rw [hsource, Source.column?, if_neg (by simpa using hother)]

/-! ## 4. The statement of the related rows -/

namespace Navigation

/-- The rows that refer to the row that a parameter `x` stands for, projected. -/
def related {s : Schema} (n : Navigation s) (x row : String) (projection : Lambda) : Query :=
  .select (.filter (.table n.childName) ⟨[⟨row, .row n.childName⟩], .binary .equal
    ((⟨row, .row n.childName⟩ : Parameter).member n.foreignKey (.scalar n.reference.type))
    ((⟨x, .row n.parentName⟩ : Parameter).member n.parent.primaryKey (.scalar n.key.type))⟩) projection

/-- The pair of the reference of a related row and a value. -/
def pair {s : Schema} (n : Navigation s) (row : String) (value : Expr) : Expr :=
  .record "KeyValuePair"
    [("Key", (⟨row, .row n.childName⟩ : Parameter).member n.foreignKey (.scalar n.reference.type)),
      ("Value", value)]

/-- The comparison of the two keys, as it is read. -/
def keys {s : Schema} (n : Navigation s) : Scalar :=
  .binary .equal (.column ⟨[.row n.childName], n.foreignKey⟩)
    (.column ⟨[.row n.parentName], n.parent.primaryKey⟩)

/-- Related rows under a projection `p` and a filter `f`. -/
def rows {s : Schema} (n : Navigation s) (p f : Projection) : Statement :=
  .table { select := some p, filter := some f } n.childName

variable {env : Env} {n : Navigation env.schema} {p f : Projection}

/-- **The query of an aggregate with a selector** selects what the selector does, or pairs if that is an
aggregate itself. -/
theorem ofCall_selector {a : Aggregate} (hcount : a ≠ .count) (text x y : String) (body : Expr) :
    (Correlated.ofCall env.schema text a [n.collection (.parameter x (.row n.parentName)),
        (⟨[⟨y, .row n.childName⟩], body⟩ : Lambda).toExpr]).outcome
      = .ok ⟨n.related x y ⟨[⟨y, .row n.childName⟩],
          if body.isAggregate then n.pair y body else body⟩, a, body.isAggregate⟩ := by
  let selector : Lambda := ⟨[⟨y, .row n.childName⟩], body⟩
  let k : Correlated.Call env.schema
      [n.collection (.parameter x (.row n.parentName)), selector.toExpr] :=
    ⟨n, .parameter x (.row n.parentName), _, some selector, rfl, rfl, rfl, by rintro _ ⟨⟩; rfl⟩
  refine Correlated.ofCall_eq_ok.mpr ⟨k, _, _, _, ?_, rfl⟩
  cases a with
  | count => exact absurd rfl hcount
  | sum | min | max | average =>
    unfold Correlated.clauses
    dsimp only [k, selector]
    cases body.isAggregate with
    | true => rfl
    | false => rfl

/-- **The statement of related rows** compares the two keys. -/
theorem toStatement_related (hname : n.childName ≠ "") {projection : Lambda}
    (hgrouped : projection.isGrouped = false) (hread : (projection.read env 1).outcome = .ok p)
    (x row : String) :
    ∃ f, ((n.related x row projection).toStatement env).outcome = .ok (n.rows p f) ∧
      f.body = n.keys := by
  obtain ⟨columns, hreference⟩ := Expr.toScalar_member env (t := .scalar n.reference.type) rfl
    row n.childName n.foreignKey {}
  obtain ⟨columns', hkey⟩ := Expr.toScalar_member env (t := .scalar n.key.type) rfl
    x n.parentName n.parent.primaryKey { columns }
  let row : Parameter := ⟨row, .row n.childName⟩
  let correlation := Expr.binary .equal (row.member n.foreignKey (.scalar n.reference.type))
    ((⟨x, .row n.parentName⟩ : Parameter).member n.parent.primaryKey (.scalar n.key.type))
  have hcorrelation : ((correlation.toScalar env).run {}).outcome
      = .ok (n.keys, { columns := columns' }) :=
    ReadM.bind_eq_ok.mpr ⟨_, _, hreference, ReadM.bind_eq_ok.mpr ⟨_, _, hkey, rfl⟩⟩
  have hfilter := Lambda.read_of_toScalar (p := row) hcorrelation
  exact ⟨_, Query.toStatement_eq_ok.mpr (.select hgrouped rfl hread
    (.filter rfl rfl hfilter (.table hname (Schema.rowType_eq_ok.mpr n.child_eq)))), rfl⟩

/-- What related rows are bound with, at a depth inside of a scope. -/
def binder (n : Navigation env.schema) (p f : Projection) (subqueries : Subqueries) (scope : Scope)
    (depth : Nat) : Binder :=
  (n.rows p f).binder env subqueries (some scope) depth (.table n.childName (Sql.depthAlias depth))

section Binder

variable (haliases : ∀ a ∈ p.aliases, a.1.1.row? = none) (subqueries : Subqueries) {scope : Scope}
  (depth : Nat)

include haliases

/-- A column of the related rows is one of their table. -/
theorem column_child {member name : String}
    (hname : env.schema.columnName n.childName member = .ok name) (position : Position) :
    ((n.binder p f subqueries scope depth).scope.column ⟨[.row n.childName], member⟩
        position).outcome
      = .ok (match position with
        | .selectList => .bareColumn name
        | .predicate => .aliasedColumn (Sql.depthAlias depth) name) :=
  Frame.column_of_table_behind
    (List.forall_mem_singleton.mpr (Aliases.lookup_row_eq_none haliases _ _)) rfl hname position

/-- **The filter of related rows compares the foreign key with the primary key of the row at hand**, or of
the same row if it is of the same type: the inner table is asked first. -/
theorem filterExpr_rows (hf : f.body = n.keys)
    (hkey : (scope.column ⟨[.row n.parentName], n.parent.primaryKey⟩ .predicate).outcome
      = .ok (.aliasedColumn (Sql.depthAlias scope.depth) n.key.name)) :
    ((n.rows p f).clauses.filterExpr (n.binder p f subqueries scope depth)).outcome
      = .ok (.op (.aliasedColumn (Sql.depthAlias depth) n.reference.name) "="
          (.aliasedColumn (Sql.depthAlias (if n.childName = n.parentName then depth else scope.depth))
            n.key.name)) := by
  have hreference : ((n.binder p f subqueries scope depth).scope.column
      ⟨[.row n.childName], n.foreignKey⟩ .predicate).outcome
      = .ok (.aliasedColumn (Sql.depthAlias depth) n.reference.name) :=
    column_child haliases subqueries depth (Schema.columnName_of_lookup n.child_eq n.reference_eq)
      .predicate
  have hkeyInner : ((n.binder p f subqueries scope depth).scope.column
      ⟨[.row n.parentName], n.parent.primaryKey⟩ .predicate).outcome
      = .ok (.aliasedColumn (Sql.depthAlias
          (if n.childName = n.parentName then depth else scope.depth)) n.key.name) := by
    split
    · rename_i hsame
      rw [← hsame]
      refine column_child haliases subqueries depth (Schema.columnName_of_lookup ?_ n.key_eq) .predicate
      rw [hsame]
      exact n.parent_eq
    · rename_i hother
      exact Frame.column_of_outer
        (List.forall_mem_singleton.mpr (Aliases.lookup_row_eq_none haliases _ _)) rfl rfl
        (Ne.symm hother) hkey
  change (f.body.resolve env.dialect _ _ _).outcome = _
  rw [hf]
  exact Traced.bind_eq_ok.mpr ⟨_, hreference, Traced.bind_eq_ok.mpr ⟨_, hkeyInner, rfl⟩⟩

/-- **Related rows are selected from their table**, under their filter and in no order. -/
theorem toSelect_rows (hf : f.body = n.keys)
    (hkey : (scope.column ⟨[.row n.parentName], n.parent.primaryKey⟩ .predicate).outcome
      = .ok (.aliasedColumn (Sql.depthAlias scope.depth) n.key.name))
    {role : Role} (hrole : role = .correlatedPairs ∨ ∃ a, role = .correlated a)
    {list : Sql.SelectList}
    (hlist : ((n.rows p f).selectList (n.binder p f subqueries scope depth) role).outcome = .ok list) :
    ((n.rows p f).toSelect env subqueries (some scope) role depth).outcome
      = .ok ({ list
               source := some (.table (.table n.child.table) (some (Sql.depthAlias depth)))
               joins := []
               filter := .op (.aliasedColumn (Sql.depthAlias depth) n.reference.name) "="
                 (.aliasedColumn
                   (Sql.depthAlias (if n.childName = n.parentName then depth else scope.depth))
                   n.key.name)
               orderBy := [] }, []) := by
  have hfilter := filterExpr_rows haliases subqueries depth hf hkey
  refine Statement.toSelect_table_eq_ok.mpr ⟨_, Ground.table_eq_ok.mpr
    ⟨n.child, Schema.rowType_eq_ok.mpr n.child_eq, rfl⟩, Statement.assemble_eq_ok.mpr
      ⟨list, [], _, [], rfl, hlist, hfilter, ?_, rfl⟩⟩
  rcases hrole with rfl | ⟨a, rfl⟩
  · rfl
  · rfl

end Binder

/-! ## 5. The selection of the related rows -/

variable (n) in
/-- A projection of related rows, as it is read: it builds no record, and the aggregate selects
`item` wherever the columns of the rows are not qualified. -/
structure ProjectsTo (a : Aggregate) (item : Sql.Expr) (projection : Lambda) (p : Projection) :
    Prop where
  grouped : projection.isGrouped = false
  read : (projection.read env 1).outcome = .ok p
  aliases : p.aliases = []
  item : ∀ (b : Binder) (s : Statement), s.clauses.select = some p →
    (∀ member name, env.schema.columnName n.childName member = .ok name →
      (b.scope.column ⟨[.row n.childName], member⟩ .selectList).outcome = .ok (.bareColumn name)) →
    (s.aggregateList b a).outcome = .ok (.plain [item])

/-- A column of the related rows is selected as it is. -/
theorem projectsTo_column {a : Aggregate} (hcount : a ≠ .count) (y : String) {member : String}
    {column : Column} {t : Ty} (hcolumn : n.child.columns.lookup member = some column)
    (ht : t.isScalar = true) :
    ∃ p, n.ProjectsTo a (a.toSql (.bareColumn column.name))
      ⟨[⟨y, .row n.childName⟩], (⟨y, .row n.childName⟩ : Parameter).member member t⟩ p := by
  obtain ⟨columns, hread⟩ := Expr.toScalar_member env ht y n.childName member {}
  refine ⟨_, rfl, Lambda.read_of_toScalar hread, rfl, ?_⟩
  intro b s hs hbind
  have hitem := hbind _ _ (Schema.columnName_of_lookup n.child_eq hcolumn)
  unfold Statement.aggregateList
  rw [hs]
  cases a with
  | count => exact absurd rfl hcount
  | sum | min | max | average => exact Traced.bind_eq_ok.mpr ⟨_, hitem, rfl⟩

/-- **The query of an aggregate over a navigation** projects the related rows to what it selects. -/
theorem Selects.exists_query {a : Aggregate} {selector : Option Lambda} {item : Sql.Expr}
    (h : n.Selects a selector item) (text x : String) :
    ∃ row projection p,
      (Correlated.ofCall env.schema text a (n.collection (.parameter x (.row n.parentName))
          :: (selector.map Lambda.toExpr).toList)).outcome
        = .ok ⟨n.related x row projection, a, false⟩ ∧ n.ProjectsTo a item projection p := by
  cases h with
  | count =>
    let k : Correlated.Call env.schema [n.collection (.parameter x (.row n.parentName))] :=
      ⟨n, .parameter x (.row n.parentName), _, none, rfl, rfl, rfl, by simp⟩
    refine ⟨"src", .identity ⟨"src", .row n.childName⟩, _, ?_, rfl, rfl, rfl, ?_⟩
    · exact Correlated.ofCall_eq_ok.mpr ⟨k, _, _, _, rfl, rfl⟩
    · intro b s _ _
      rfl
  | column hcount y hcolumn ht =>
    obtain ⟨p, hp⟩ := projectsTo_column hcount y hcolumn ht
    exact ⟨y, _, p, ofCall_selector hcount text x y _, hp⟩

/-- **Related rows are selected by their foreign key**, in a scope that binds the primary key of the
row at hand to a column of its table. -/
theorem ProjectsTo.toSelect {a : Aggregate} {item : Sql.Expr} {projection : Lambda}
    {p : Projection} (h : n.ProjectsTo a item projection p) (hname : n.childName ≠ "")
    (x row : String) (levels : Nat) {scope : Scope}
    (hkey : (scope.column ⟨[.row n.parentName], n.parent.primaryKey⟩ .predicate).outcome
      = .ok (.aliasedColumn (Sql.depthAlias scope.depth) n.key.name)) :
    (Correlated.toSelect env (levels + 1) ⟨n.related x row projection, a, false⟩ scope).outcome
      = .ok (n.relatedRows scope.depth item) := by
  obtain ⟨f, hstatement, hf⟩ := toStatement_related hname h.grouped h.read x row
  have haliases : ∀ a ∈ p.aliases, a.1.1.row? = none := by simp [h.aliases]
  have hlist := h.item
    (n.binder p f (Correlated.toSelect env levels) scope (scope.depth + 1)) (n.rows p f) rfl
    fun member name hname => column_child haliases _ _ hname .selectList
  exact Correlated.toSelect_eq_ok.mpr ⟨_, hstatement, Or.inr ⟨rfl, [],
    toSelect_rows haliases _ _ hf hkey (Or.inr ⟨a, rfl⟩) hlist⟩⟩

end Navigation

/-! ## 6. The theorem -/

/-- An aggregate is nested at least once. -/
theorem Expr.exists_aggregateDepth_eq (a : Aggregate) (args : List Expr) (t : Ty) :
    ∃ levels, (Expr.call (.aggregate a) none args t).aggregateDepth = levels + 1 :=
  ⟨_, rfl⟩

/-- **Aggregates over navigations compare keys.**  In a configuration that passes its checks, every
navigation of a registered row type can be followed by its keys, and an aggregate over it that needs
no more than a column of the related rows is a selection from their table whose filter compares the
foreign key with the primary key. -/
theorem Query.toSelect_navigation {config : Config} {env : Env} (hconfig : config.toEnv = .ok env)
    {parentName childName member : String} {parent : RowType}
    (hparent : env.schema.rowTypes.lookup parentName = some parent)
    (hmember : parent.navigations.lookup member = some childName)
    (hparentName : parentName ≠ "") (hchildName : childName ≠ "") :
    ∃ n : Navigation env.schema,
      n.parentName = parentName ∧ n.parent = parent ∧ n.member = member ∧ n.childName = childName ∧
      ∀ {a : Aggregate} {selector : Option Lambda} {item : Sql.Expr}, n.Selects a selector item →
        ∀ (x : String) (t : Ty),
          ((Query.select (.table parentName)
            ⟨[⟨x, .row parentName⟩], n.aggregate x a selector t⟩).toSelect env).outcome
          = .ok { list := .plain [.subselect (n.relatedRows 0 item)]
                  source := some (.table (.table parent.table) (some (Sql.depthAlias 0)))
                  joins := []
                  filter := .always
                  orderBy := [] } := by
  obtain ⟨n, rfl, rfl, rfl, rfl⟩ :=
    (Config.schema_valid_of_toEnv hconfig).exists_navigation hparent hmember
  refine ⟨n, rfl, rfl, rfl, rfl, ?_⟩
  intro a selector item h x t
  obtain ⟨row, projection, p, hcall, hprojects⟩ :=
    h.exists_query (n.aggregate x a selector t).text x
  let c : Correlated := ⟨n.related x row projection, a, false⟩
  have hread : (((n.aggregate x a selector t).toScalar env).run {}).outcome
      = .ok (.subquery c, { columns := [.subquery c] }) := by
    exact ReadM.bind_eq_ok.mpr ⟨c, {}, Traced.bind_eq_ok.mpr ⟨c, hcall, rfl⟩, rfl⟩
  let body : Projection :=
    ⟨.row n.parentName, (n.aggregate x a selector t).type, .subquery c, [.subquery c], []⟩
  let statement := Statement.table { select := some body } n.parentName
  have hstatement : ((Query.select (.table n.parentName)
      ⟨[⟨x, .row n.parentName⟩], n.aggregate x a selector t⟩).toStatement env).outcome
      = .ok statement :=
    Query.toStatement_eq_ok.mpr (.select rfl rfl (Lambda.read_of_toScalar hread)
      (.table hparentName (Schema.rowType_eq_ok.mpr hparent)))
  obtain ⟨levels, hlevels⟩ := Expr.exists_aggregateDepth_eq a
    (n.collection (.parameter x (.row n.parentName)) :: (selector.map Lambda.toExpr).toList) t
  have hdepth : (Query.select (.table n.parentName)
      ⟨[⟨x, .row n.parentName⟩], n.aggregate x a selector t⟩).aggregateDepth = levels + 1 := by
    rw [Query.aggregateDepth, Query.aggregateDepth, Nat.zero_max]
    exact hlevels
  let frame : Frame := ⟨0, .table n.parentName (Sql.depthAlias 0), none⟩
  let scope := frame.scope env (Correlated.toSelect env (levels + 1)) [[]]
  have hkey : (scope.column ⟨[.row n.parentName], n.parent.primaryKey⟩ .predicate).outcome
      = .ok (.aliasedColumn (Sql.depthAlias 0) n.key.name) :=
    Frame.column_of_table rfl (Schema.columnName_of_lookup hparent n.key_eq) .predicate
  have hrelated := hprojects.toSelect hchildName x row levels hkey
  let b := statement.binder env (Correlated.toSelect env (levels + 1)) none 0 frame.source
  have hitems : ([Scalar.subquery c].mapM (b.resolve .selectList)).outcome
      = .ok [.subselect (n.relatedRows 0 item)] :=
    Traced.mapM_eq_ok.mpr (.cons (Traced.bind_eq_ok.mpr ⟨_, hrelated, rfl⟩) .nil)
  refine Query.toSelect_eq_ok.mpr ⟨statement, [], hstatement, ?_⟩
  rw [hdepth]
  exact Statement.toSelect_table_eq_ok.mpr ⟨_, Ground.table_eq_ok.mpr
    ⟨n.parent, Schema.rowType_eq_ok.mpr hparent, rfl⟩, Statement.assemble_eq_ok.mpr
      ⟨_, [], _, [], rfl, Traced.bind_eq_ok.mpr ⟨_, hitems, rfl⟩, rfl, rfl, rfl⟩⟩

/-- The lines of an order are those whose `OrderId` is the `Id` of the order. -/
theorem Query.toSelect_navigation_lines :
    let config : Config := { version := 1, schema := Shop.schema }
    let env : Env := ⟨Shop.schema, {}⟩
    let o : Parameter := ⟨"o", .row "Order"⟩
    let l : Parameter := ⟨"l", .row "OrderLine"⟩
    let q := Query.select (.table "Order")
      ⟨[o], .aggregate .sum (Shop.field o "Lines") (some ⟨[l], Shop.field l "Quantity"⟩)
        (.scalar .int32)⟩
    let lines : Sql.Select :=
      { list := .plain [.call .sum [.bareColumn "Quantity"]]
        source := some (.table (.table "OrderLine") (some (Sql.depthAlias 1)))
        joins := []
        filter := .op (.aliasedColumn (Sql.depthAlias 1) "OrderId") "="
          (.aliasedColumn (Sql.depthAlias 0) "Id")
        orderBy := [] }
    config.toEnv = .ok env ∧ (q.toSelect env).outcome
      = .ok { list := .plain [.subselect lines]
              source := some (.table (.table "Order") (some (Sql.depthAlias 0)))
              joins := []
              filter := .always
              orderBy := [] } := by
  intro config env o l q lines
  have hconfig : config.toEnv = .ok env := rfl
  have hparent : env.schema.rowTypes.lookup "Order" = some Shop.order := rfl
  have hmember : Shop.order.navigations.lookup "Lines" = some "OrderLine" := rfl
  obtain ⟨⟨_, _, _, child, _, foreignKey, reference, key, _, hchild, _, hforeignKey, hreference, hkey⟩,
    rfl, rfl, rfl, rfl, hselect⟩ :=
    Query.toSelect_navigation hconfig hparent hmember (by decide) (by decide)
  obtain rfl : Shop.orderLine = child := Option.some.inj hchild
  obtain rfl : "OrderId" = foreignKey := Option.some.inj hforeignKey
  obtain rfl : ⟨"OrderId", .int32, none⟩ = reference := Option.some.inj hreference
  obtain rfl : ⟨"Id", .int32, none⟩ = key := Option.some.inj hkey
  have hquantity : Shop.orderLine.columns.lookup "Quantity" = some ⟨"Quantity", .int32, none⟩ := rfl
  exact ⟨hconfig, hselect (.column (by decide) "l" hquantity rfl) "o" (.scalar .int32)⟩

/-- **A row type that refers to itself.**  Employees report to employees; the number of those who
report to an employee counts the employees who are their own manager instead, because the inner table
has the row of both keys. -/
theorem Query.toSelect_navigation_reports :
    let employee : RowType :=
      { table := "Employee"
        primaryKey := "Id"
        columns := [Shop.column "Id" .int32, Shop.column "ManagerId" .int32]
        foreignKeys := [("Employee", "ManagerId")]
        navigations := [("Reports", "Employee")] }
    let schema : Schema := { rowTypes := [("Employee", employee)] }
    let e : Parameter := ⟨"e", .row "Employee"⟩
    let q := Query.select (.table "Employee")
      ⟨[e], .aggregate .count (e.member "Reports" (.collection (.row "Employee"))) none
        (.scalar .int32)⟩
    let reports (manager : String) : Sql.Select :=
      { list := .plain [.countAll]
        source := some (.table (.table "Employee") (some (Sql.depthAlias 1)))
        joins := []
        filter := .op (.aliasedColumn (Sql.depthAlias 1) "ManagerId") "="
          (.aliasedColumn manager "Id")
        orderBy := [] }
    let employees (count : Sql.Select) : Sql.Select :=
      { list := .plain [.subselect count]
        source := some (.table (.table "Employee") (some (Sql.depthAlias 0)))
        joins := []
        filter := .always
        orderBy := [] }
    schema.validate = .ok () ∧
      (q.toSelect ⟨schema, {}⟩).outcome = .ok (employees (reports (Sql.depthAlias 1))) ∧
      (q.toSelect ⟨schema, {}⟩).outcome ≠ .ok (employees (reports (Sql.depthAlias 0))) := by
  intro employee schema e q reports employees
  have hselect : (q.toSelect ⟨schema, {}⟩).outcome
      = .ok (employees (reports (Sql.depthAlias 1))) := rfl
  refine ⟨rfl, hselect, fun h => ?_⟩
  rw [hselect] at h
  have hlabel : Sql.depthAlias 1 = Sql.depthAlias 0 := by
    simpa [employees, reports, Sql.Expr.aliasedColumn] using h
  exact absurd hlabel (by decide)

end ChainQuery
