import ChainQuery.Config.Basic
import ChainQuery.Proofs.Compile.Scopes
import ChainQuery.Proofs.Schema.Validated
import ChainQuery.Proofs.Sql.Scoping
import ChainQuery.Schema.Shop
/-!
# The names of sources

A qualified column names what it is a column of, so the names that a selection exposes have to differ
(`Sql.Select.SourcesDistinct`).  A chain over a table exposes one alias, and a cross join the aliases
of its two sides.  A join exposes the tables of its sides.

A join is refused if its sides have the same row type, but two row types can be kept in one table, and
nothing that is checked of a schema says otherwise.  `Query.sourcesDistinct_of_toSelect` says that
joins of such row types are the only selections with two sources of one name, and
`Query.not_sourcesDistinct_person` has a configuration and a query of that kind.  Where every row type
has a table of its own there are none (`Query.sourcesDistinct_of_oneRowType`).
-/

namespace ChainQuery

/-! ## 1. Names -/

/-- The name of a table, or the alias that stands for it. -/
def Sql.TableRef.name : Sql.TableRef → String
  | .table name => name
  | .aliased name => name

/-- The names by which the columns of a selection are qualified. -/
def Sql.Select.sourceNames (s : Sql.Select) : List String :=
  (Sql.exposed s.source s.joins).map Sql.TableRef.name

/-- **The sources of a selection have different names**, so that a name denotes one of them. -/
def Sql.Select.SourcesDistinct (s : Sql.Select) : Prop := s.sourceNames.Nodup

/-- The table of a row type. -/
def Schema.table? (schema : Schema) (rowType : String) : Option String :=
  (schema.rowTypes.lookup rowType).map RowType.table

/-- **Whether a chain is over a join of two row types that one table holds.** -/
def Query.joinsOneTable (schema : Schema) (q : Query) : Bool :=
  match q.base with
  | .join outer inner _ _ _ =>
    match outer.orderedTable?.bind schema.table?, inner.orderedTable?.bind schema.table? with
    | some left, some right => left == right
    | _, _ => false
  | _ => false

/-- The names that the selection of a statement at some depth exposes. -/
def Statement.sourceNames (depth : Nat) : Statement → List String
  | .table .. => [Sql.depthAlias depth]
  | .join _ left right _ _ _ _ => [left.table, right.table]
  | .crossJoin .. => ["leftStatement", "rightStatement"]

/-- A plain selection has one source at most. -/
theorem Sql.Select.IsPlain.sourcesDistinct {s : Sql.Select} (h : s.IsPlain) : s.SourcesDistinct := by
  unfold Sql.Select.SourcesDistinct Sql.Select.sourceNames Sql.exposed
  rw [h.1]
  cases s.source with
  | none => simp
  | some clause => simp

/-! ## 2. Statements -/

variable {env : Env} {q : Query} {s : Statement} {select : Sql.Select} {lifted : List SortKey}

/-- A side of an equi-join has the table of its row type. -/
theorem Query.JoinedAs.table?_eq {t : JoinedTable} {keys : List SortKey}
    (h : q.JoinedAs env t keys) : env.schema.table? t.rowType = some t.table := by
  induction h with
  | table _ hinfo =>
    rw [Schema.table?, Schema.rowType_eq_ok.mp hinfo]
    rfl
  | orderBy _ _ _ ih => exact ih

/-- **The names of a compiled selection** are those of its statement. -/
theorem Statement.sourceNames_of_toSelect {subqueries : Subqueries} {outer : Option Scope}
    {role : Role} {depth : Nat}
    (h : (s.toSelect env subqueries outer role depth).outcome = .ok (select, lifted)) :
    select.sourceNames = s.sourceNames depth := by
  obtain ⟨ground, hground, hparts⟩ := Statement.toSelect_eq_ok.mp h
  obtain ⟨_, _, _, _, hjoins, _, _, _, rfl⟩ := Statement.assemble_eq_ok.mp hparts
  cases s with
  | table clauses rowType =>
    obtain ⟨info, _, rfl⟩ := Ground.table_eq_ok.mp hground
    cases hjoins
    rfl
  | join clauses left right outerKey innerKey result keys =>
    cases hground
    obtain ⟨_, _, hjoins⟩ := Traced.bind_eq_ok.mp hjoins
    obtain ⟨_, _, hjoins⟩ := Traced.bind_eq_ok.mp hjoins
    cases hjoins
    rfl
  | crossJoin clauses left right leftRow rightRow result =>
    obtain ⟨_, _, _, _, _, _, _, _, _, _, rfl⟩ := Statement.ground_crossJoin_eq_ok.mp hground
    cases hjoins
    rfl

/-- **The names of a statement differ, unless its chain joins one table with itself.** -/
theorem Query.Gathers.nodup_sourceNames_iff (h : q.Gathers env {} s) (depth : Nat) :
    (s.sourceNames depth).Nodup ↔ q.joinsOneTable env.schema = false := by
  unfold Query.joinsOneTable
  cases s with
  | table clauses rowType =>
    rw [h.base_table]
    simp [Statement.sourceNames]
  | join clauses left right outerKey innerKey p lifted =>
    obtain ⟨_, _, _, _, _, _, _, hbase, _, hleft, hright, _⟩ := h.base_join
    rw [hbase]
    simp [Statement.sourceNames, hleft.orderedTable?, hleft.table?_eq, hright.orderedTable?,
      hright.table?_eq]
  | crossJoin clauses left right leftRow rightRow p =>
    obtain ⟨_, _, _, hbase, _⟩ := h.base_crossJoin
    rw [hbase]
    simp [Statement.sourceNames]

/-! ## 3. Queries -/

/-- **The sources of a selection are distinguishable, unless a join has one table on both sides.**  In
a compiled query, the names that every selection exposes differ if and only if no scope of the query is
over a join of two row types that one table holds. -/
theorem Query.sourcesDistinct_of_toSelect {env : Env} {q : Query} {select : Sql.Select}
    (h : (q.toSelect env).outcome = .ok select) :
    select.Everywhere Sql.Select.SourcesDistinct ↔
      ∀ scope ∈ q.scopes, scope.joinsOneTable env.schema = false := by
  obtain ⟨s, lifted, hs, hselect⟩ := Query.toSelect_eq_ok.mp h
  rw [Query.scopes, List.forall_mem_cons]
  refine Statement.everywhere_iff_scopes (fun _ scope => scope.joinsOneTable env.schema = false)
    (fun _ => Sql.Select.IsPlain.sourcesDistinct) ?_ (Or.inl rfl) (Query.toStatement_eq_ok.mp hs)
    hselect
  intro role depth q s select lifted _ hq hselect
  rw [Sql.Select.SourcesDistinct, Statement.sourceNames_of_toSelect hselect]
  exact hq.nodup_sourceNames_iff depth

/-- The orders of customers: a join of two tables. -/
theorem Query.sourcesDistinct_of_toSelect_orders :
    let env : Env := ⟨Shop.schema, {}⟩
    let c : Parameter := ⟨"c", .row "Customer"⟩
    let o : Parameter := ⟨"o", .row "Order"⟩
    let q := Query.join (.table "Customer") (.table "Order") ⟨[c], Shop.field c "Id"⟩
      ⟨[o], Shop.field o "CustomerId"⟩ ⟨[c, o], Shop.field o "Amount"⟩
    ∃ select, (q.toSelect env).outcome = .ok select ∧ select.sourceNames = ["Customer", "Order"] ∧
      select.Everywhere Sql.Select.SourcesDistinct := by
  intro env c o q
  have hselect : (q.toSelect env).outcome = .ok _ := rfl
  refine ⟨_, hselect, rfl, (Query.sourcesDistinct_of_toSelect hselect).mpr ?_⟩
  have hscopes : q.scopes = [q] := rfl
  have htables : q.joinsOneTable env.schema = false := by decide
  simpa [hscopes] using htables

/-- **Two persons under one name.**  Employees and their managers are kept in one table, which the
check of the configuration has nothing against.  A join of the two selects from `Person` and joins
`Person`, and every column of it is qualified by `Person`. -/
theorem Query.not_sourcesDistinct_person :
    let employee : RowType :=
      { table := "Person", primaryKey := "Id"
        columns := [Shop.column "Id" .int32, Shop.column "ManagerId" .int32] }
    let manager : RowType :=
      { table := "Person", primaryKey := "Id"
        columns := [Shop.column "Id" .int32, Shop.column "Name" .string] }
    let config : Config :=
      { version := 1, schema := ⟨[("Employee", employee), ("Manager", manager)]⟩ }
    let e : Parameter := ⟨"e", .row "Employee"⟩
    let m : Parameter := ⟨"m", .row "Manager"⟩
    let q := Query.join (.table "Employee") (.table "Manager")
      ⟨[e], e.member "ManagerId" (.scalar .int32)⟩ ⟨[m], m.member "Id" (.scalar .int32)⟩
      ⟨[e, m], m.member "Name" (.scalar .string)⟩
    ∃ env select, config.toEnv = .ok env ∧ (q.toSelect env).outcome = .ok select ∧
      select.sourceNames = ["Person", "Person"] ∧
      ¬select.Everywhere Sql.Select.SourcesDistinct := by
  refine ⟨_, _, rfl, rfl, rfl, ?_⟩
  rintro ⟨hown, _⟩
  have hnodup : ["Person", "Person"].Nodup := hown
  simp at hnodup

/-- **Where every row type has a table of its own**, the sources of all selections have different
names. -/
theorem Query.sourcesDistinct_of_oneRowType
    (hschema : ∀ ⦃r r' table⦄, env.schema.table? r = some table → env.schema.table? r' = some table →
      r = r')
    (h : (q.toSelect env).outcome = .ok select) :
    select.Everywhere Sql.Select.SourcesDistinct := by
  obtain ⟨s, lifted, hs, hselect⟩ := Query.toSelect_eq_ok.mp h
  refine (Statement.everywhere_iff_scopes (fun _ _ => True)
    (fun _ => Sql.Select.IsPlain.sourcesDistinct) ?_ (Or.inl rfl) (Query.toStatement_eq_ok.mp hs)
    hselect).mpr ⟨trivial, fun _ _ => trivial⟩
  intro role depth q s select lifted _ hq hselect
  refine iff_of_true ?_ trivial
  rw [Sql.Select.SourcesDistinct, Statement.sourceNames_of_toSelect hselect]
  cases s with
  | table | crossJoin => simp [Statement.sourceNames]
  | join clauses left right outerKey innerKey p lifted =>
    obtain ⟨_, _, _, _, _, _, _, _, _, hleft, hright, _, hdiffer⟩ := hq.base_join
    have htables : left.table ≠ right.table := fun heq =>
      hdiffer (hschema hleft.table?_eq (heq ▸ hright.table?_eq))
    simpa [Statement.sourceNames] using htables

end ChainQuery
