import ChainQuery.Proofs.Compile.Binding
import ChainQuery.Proofs.Compile.Gathering
import ChainQuery.Proofs.Compile.Recording
import ChainQuery.Proofs.Compile.Selection
import ChainQuery.Proofs.Schema.Validated
import ChainQuery.Proofs.Sql.Outputs
/-!
# What the sides of a cross join put out

A side of a cross join is read through the columns of the type of its rows (`Ty.columns`).  The name of
such a column is looked up in one place (`Statement.exports`) and put out in another
(`Statement.selectList`), and the two follow different rules.  `Query.provides` says when they agree:

* the rows of a table, and rows and records that are passed on whole, have all their columns;
* a projection puts out the members of its record under their names;
* a join puts out the columns that its record is built from, under the names of these.

The last is where the two can part: a member that is named differently from its column is looked for
under its own name.
-/

namespace ChainQuery

/-! ## 1. The columns of a type -/

/-- **The columns of a type**, by member: the registered columns of a row, and the scalar fields of a
record under their own names. -/
def Ty.columns (schema : Schema) : Ty → List (String × String)
  | .row name =>
    ((schema.rowTypes.lookup name).map fun info =>
      info.columns.map fun (member, column) => (member, column.name)).getD []
  | .record _ fields =>
    (fields.filter fun (_, t) => t.isScalar).map fun (name, _) =>
      (propertyName name, propertyName name)
  | _ => []

/-- The column that a token stands for, if the type that has the member has it as a column. -/
def ColumnToken.columnName? (schema : Schema) (token : ColumnToken) : Option String :=
  token.owner?.bind fun owner => (owner.columns schema).lookup token.member

theorem Ty.columns_row {schema : Schema} {name : String} {info : RowType}
    (h : schema.rowType name = .ok info) :
    (Ty.row name).columns schema =
      info.columns.map fun (member, column) => (member, column.name) := by
  rw [Ty.columns, Schema.rowType_eq_ok.mp h]
  rfl

/-- The fields of a record keep their names. -/
theorem Ty.eq_of_mem_columns_record {schema : Schema} {name : String} {fields : List (String × Ty)}
    {c : String × String} (h : c ∈ (Ty.record name fields).columns schema) : c.1 = c.2 := by
  obtain ⟨f, _, rfl⟩ := List.mem_map.mp h
  rfl

/-- A member that is a column of a row has its name in the database. -/
theorem Schema.columnName_of_mem_columns {schema : Schema} {rowType member name : String}
    (h : ((Ty.row rowType).columns schema).lookup member = some name) :
    schema.columnName rowType member = .ok name := by
  rw [Ty.columns] at h
  cases hinfo : schema.rowTypes.lookup rowType with
  | none => simp [hinfo] at h
  | some info =>
    simp only [hinfo, Option.map_some, Option.getD_some, Assoc.lookup_map] at h
    obtain ⟨column, hcolumn, rfl⟩ := Option.map_eq_some_iff.mp h
    exact Schema.columnName_of_lookup hinfo hcolumn

/-- **The default columns of a type are its columns.** -/
theorem mem_defaultColumns {schema : Schema} {t : Ty} {names : List String}
    (h : defaultColumns schema t = .ok names) {c : String × String} (hc : c ∈ t.columns schema) :
    c.2 ∈ names := by
  unfold defaultColumns at h
  cases t with
  | row name =>
    obtain ⟨info, hinfo, h⟩ := Except.bind_eq_ok.mp h
    rw [Ty.columns_row hinfo] at hc
    obtain ⟨column, hcolumn, rfl⟩ := List.mem_map.mp hc
    rw [pure_bind] at h
    dsimp only at h
    split at h
    · cases h
    · cases h
      exact List.mem_map_of_mem hcolumn
  | record name fields =>
    obtain ⟨f, hf, rfl⟩ := List.mem_map.mp hc
    dsimp only at h
    rw [pure_bind] at h
    split at h
    · cases h
    · cases h
      exact List.mem_mergeSort.mpr (List.mem_map_of_mem hf)
  | scalar | nullable | collection | group => cases hc

/-! ## 2. Queries whose rows have their columns -/

/-- Whether a lambda builds a record with a member for every column of its type. -/
def Lambda.namesColumns (schema : Schema) (l : Lambda) : Bool :=
  match l.body with
  | .new t members => (t.columns schema).all fun c =>
    -- a member is put out under its own name, so the column must have that name too
    c.1 == c.2 && members.any fun m => propertyName m.1 == c.1
  | _ => false

/-- Whether a lambda builds a record whose columns are copies of columns with the same names. -/
def Lambda.copiesColumns (schema : Schema) (l : Lambda) : Bool :=
  match l.body with
  | .new t members => (t.columns schema).all fun c => members.any fun m =>
    -- a column that the record has itself would be bound through the record
    m.2.token?.any fun token => token.columnName? schema == some c.2 && !l.body.captures token
  | _ => false

/-- Whether the results of a lambda have the columns of a type: they have no columns at all, or are
there already, or the given condition holds of the record that the lambda builds. -/
def Lambda.provides (schema : Schema) (row : Ty) (l : Lambda) (record : Bool) : Bool :=
  l.returnType == row && ((row.columns schema).isEmpty || l.body.isWhole || record)

namespace Query

/-- **Whether the rows of a query have all columns of a type**, as a side of a cross join. -/
def provides (schema : Schema) (row : Ty) : Query → Bool
  | .table rowType => row == .row rowType
  | .select _ selector => selector.provides schema row (selector.namesColumns schema)
  -- over a table, the parameter of an operator is what tells the type of the rows
  | .filter source predicate =>
    predicate.params.head?.map Parameter.type == some row && source.provides schema row
  | .orderBy source key _ =>
    key.params.head?.map Parameter.type == some row && source.provides schema row
  | .join _ _ _ _ result => result.provides schema row (result.copiesColumns schema)
  | .crossJoin _ _ result => result.provides schema row (result.copiesColumns schema)
  | .call _ source _ => source.provides schema row

/-- **Whether every side of a cross join in a query has the columns of its rows.** -/
def sidesProvide (schema : Schema) : Query → Bool
  | .table _ | .join .. => true
  | .select source _ | .filter source _ | .orderBy source _ _ | .call _ source _ =>
    source.sidesProvide schema
  | .crossJoin source collection result =>
    source.provides schema result.rowTypes.1 && collection.provides schema result.rowTypes.2
      && source.sidesProvide schema && collection.sidesProvide schema

end Query

/-! ## 3. Statements whose rows have their columns -/

/-- **How a statement puts out the columns of a type.** -/
inductive Statement.Provides (schema : Schema) (row : Ty) (s : Statement) : Prop
  /-- As members of a record under their names. -/
  | named {p : Projection} (hselect : s.clauses.select = some p)
      (hcolumns : ∀ c ∈ row.columns schema, c.1 = c.2 ∧ c.1 ∈ p.recordMembers.map Prod.fst)
  /-- As the default columns of the type. -/
  | whole (hmembers : s.exportedMembers? .crossJoinSource = none)
      (hcolumns : ((s.clauses.select <|> s.result?).map Projection.columns).getD [] = [])
      (htype : s.projectionType? .crossJoinSource = some row)
  /-- As the columns that the record of a join is built from. -/
  | copied {p : Projection} (hselect : s.clauses.select = none) (hresult : s.result? = some p)
      (htype : p.returnType = row)
      (hcolumns : ∀ c ∈ row.columns schema, ∃ token, .column token ∈ p.columns ∧
        token.columnName? schema = some c.2 ∧
          ∀ owner, token.owner? = some owner → p.aliases.lookup (owner, token.member) = none)

/-- Every side of a cross join puts out the columns of its rows. -/
def Statement.SidesProvide (schema : Schema) : Statement → Prop
  | .table _ _ | .join .. => True
  | .crossJoin _ left right leftRow rightRow _ =>
    left.Provides schema leftRow ∧ right.Provides schema rightRow
      ∧ left.SidesProvide schema ∧ right.SidesProvide schema

section Gathers

variable {env : Env} {row : Ty} {arity : Nat} {l : Lambda} {p : Projection} {s : Statement}

/-- A projection puts out the columns of its rows. -/
theorem Statement.provides_of_select (hselect : s.clauses.select = some p)
    (hread : (l.read env arity).outcome = .ok p)
    (h : l.provides env.schema row (l.namesColumns env.schema) = true) :
    s.Provides env.schema row := by
  simp only [Lambda.provides, Bool.and_eq_true, Bool.or_eq_true, beq_iff_eq, List.isEmpty_iff] at h
  obtain ⟨hreturn, (hnone | hwhole) | hnames⟩ := h
  · exact .named hselect (by simp [hnone])
  · obtain ⟨hcolumns, haliases⟩ := Lambda.read_isWhole hread hwhole
    refine .whole ?_ ?_ ?_
    · simp [Statement.exportedMembers?_eq, hselect, Projection.recordMembers, haliases]
    · simp [hselect, hcolumns]
    · simp [Statement.projectionType?, hselect, Lambda.returnType_of_read hread, hreturn]
  · unfold Lambda.namesColumns at hnames
    split at hnames
    · rename_i t members hbody
      have ht : t = row := by rw [← hreturn, Lambda.returnType, hbody]; rfl
      subst ht
      refine .named hselect fun c hc => ?_
      have hmember := List.all_eq_true.mp hnames c hc
      simp only [Bool.and_eq_true, beq_iff_eq, List.any_eq_true] at hmember
      obtain ⟨hname, m, hm, heq⟩ := hmember
      exact ⟨hname, heq ▸ (Lambda.recorded_of_read hread hbody m hm).1⟩
    · cases hnames

/-- A join without a projection puts out the columns of its rows. -/
theorem Statement.provides_of_result (hselect : s.clauses.select = none)
    (hresult : s.result? = some p) (hread : (l.read env arity).outcome = .ok p)
    (h : l.provides env.schema row (l.copiesColumns env.schema) = true) :
    s.Provides env.schema row := by
  simp only [Lambda.provides, Bool.and_eq_true, Bool.or_eq_true, beq_iff_eq, List.isEmpty_iff] at h
  obtain ⟨hreturn, (hnone | hwhole) | hcopies⟩ := h
  · exact .copied hselect hresult ((Lambda.returnType_of_read hread).trans hreturn) (by simp [hnone])
  · obtain ⟨hcolumns, _⟩ := Lambda.read_isWhole hread hwhole
    refine .whole ?_ ?_ ?_
    · simp [Statement.exportedMembers?_eq, hselect]
    · simp [hselect, hresult, hcolumns]
    · simp [Statement.projectionType?, hselect, hresult, Lambda.returnType_of_read hread, hreturn]
  · unfold Lambda.copiesColumns at hcopies
    split at hcopies
    · rename_i t members hbody
      have ht : t = row := by rw [← hreturn, Lambda.returnType, hbody]; rfl
      subst ht
      refine .copied hselect hresult ((Lambda.returnType_of_read hread).trans hreturn) fun c hc => ?_
      have hmember := List.all_eq_true.mp hcopies c hc
      simp only [List.any_eq_true, Option.any_eq_true, Bool.and_eq_true, beq_iff_eq,
        Bool.not_eq_true'] at hmember
      obtain ⟨m, hm, token, htoken, hname, hcaptures⟩ := hmember
      refine ⟨token, (Lambda.recorded_of_read hread hbody m hm).2 token htoken, hname, ?_⟩
      exact fun owner howner => (Lambda.readFrom_of_read hread).lookup_eq_none hcaptures howner
    · cases hcopies

/-- The type of the rows of a table is that over which its clauses range. -/
theorem Statement.projectionType?_table {clauses : Clauses} {rowType : String}
    (hselect : clauses.select = none)
    (hfilter : ∀ p, clauses.filter = some p → p.parameterType = row)
    (horderings : ∀ o ∈ clauses.orderings, o.parameterType = row) (hrow : .row rowType = row) :
    (Statement.table clauses rowType).projectionType? .crossJoinSource = some row := by
  unfold Statement.projectionType?
  simp only [Statement.clauses, Statement.result?, hselect, Option.map_none, Statement.rowType?,
    Option.map_some, hrow]
  cases hp : clauses.filter with
  | some p => simp [hfilter p hp]
  | none =>
    cases ho : clauses.orderings.getLast? with
    | some o => simp [horderings o (List.mem_of_getLast? ho)]
    | none => simp

namespace Query

variable {q : Query} {clauses : Clauses}

/-- **A query whose rows have the columns of a type is gathered to a statement that puts them out.**
The clauses met on the way down must range over the type, because they name the type of the rows where
no projection and no join does. -/
theorem Gathers.provides (h : q.Gathers env clauses s) (hq : q.provides env.schema row = true)
    (hselect : clauses.select = none)
    (hfilter : ∀ p, clauses.filter = some p → p.parameterType = row)
    (horderings : ∀ o ∈ clauses.orderings, o.parameterType = row) : s.Provides env.schema row := by
  induction h with
  | table hname hinfo =>
    refine .whole ?_ ?_ ?_
    · simp [Statement.exportedMembers?_eq, Statement.clauses, hselect]
    · simp [Statement.clauses, Statement.result?, hselect]
    · simp only [Query.provides, beq_iff_eq] at hq
      exact Statement.projectionType?_table hselect hfilter horderings hq.symm
  | select _ _ hread hsource _ =>
    exact Statement.provides_of_select (hsource.select_eq rfl) hread hq
  | filter _ _ hread _ ih =>
    simp only [Query.provides, Bool.and_eq_true, beq_iff_eq] at hq
    refine ih hq.2 hselect (fun p hp => ?_) horderings
    cases hp
    exact Option.some.inj ((Lambda.parameterType_of_read hread).symm.trans hq.1)
  | orderBy _ hread _ ih =>
    simp only [Query.provides, Bool.and_eq_true, beq_iff_eq] at hq
    obtain ⟨p, hp, hread⟩ := Traced.bind_eq_ok.mp hread
    cases hread
    refine ih hq.2 hselect hfilter (List.forall_mem_cons.mpr ⟨?_, horderings⟩)
    exact Option.some.inj ((Lambda.parameterType_of_read hp).symm.trans hq.1)
  | join _ _ hresult => exact Statement.provides_of_result hselect rfl hresult hq
  | crossJoin hresult => exact Statement.provides_of_result hselect rfl hresult hq

/-- **The sides of the cross joins of a statement put out what those of its query provide.** -/
theorem Gathers.sidesProvide (h : q.Gathers env clauses s)
    (hq : q.sidesProvide env.schema = true) : s.SidesProvide env.schema := by
  induction h with
  | table | join => trivial
  | select _ _ _ _ ih => exact ih hq
  | filter _ _ _ _ ih => exact ih hq
  | orderBy _ _ _ ih => exact ih hq
  | crossJoin _ hrows _ hleft hright ihl ihr =>
    simp only [Query.sidesProvide, hrows, Bool.and_eq_true] at hq
    obtain ⟨⟨⟨hsource, hcollection⟩, hsourceSides⟩, hcollectionSides⟩ := hq
    exact ⟨hleft.provides hsource rfl (by simp) (by simp),
      hright.provides hcollection rfl (by simp) (by simp), ihl hsourceSides, ihr hcollectionSides⟩

end Query

end Gathers

/-! ## 4. The columns of sources -/

section Source

variable {schema : Schema} {owner : Ty} {member : String} {position : Position} {e : Sql.Expr}

/-- **A derived table has the columns of its rows**: under the names by which they are read, and among
those that are put out. -/
def DerivedTable.Provides (schema : Schema) (outputs : List String) (t : DerivedTable) : Prop :=
  ∀ ⦃member name⦄, (t.row.columns schema).lookup member = some name →
    (t.exports.lookup member).getD member = name ∧ name ∈ outputs

/-- **The sides of a source have the columns of their rows**, if it is a cross join. -/
def Source.Provides (schema : Schema) (tables : Sql.DerivedTables) : Source → Prop
  | .table _ _ | .join _ _ => True
  | .crossJoin left right => ∀ t, t = left ∨ t = right →
    ∃ outputs, tables.lookup t.label = some outputs ∧ t.Provides schema outputs

/-- The columns of a source are put out under their names. -/
theorem Source.Provides.outputName {tables : Sql.DerivedTables} {source : Source}
    (hsource : source.Provides schema tables) {name : String}
    (hname : (owner.columns schema).lookup member = some name)
    (h : source.column? schema owner member position = .ok (some e)) :
    e.outputName? = some name := by
  cases source with
  | table rowType label =>
    obtain ⟨found, rfl, hfound, rfl | rfl⟩ := Source.column?_table_eq_some h
    · exact congrArg some (Except.ok.inj (hfound.symm.trans (Schema.columnName_of_mem_columns hname)))
    · exact congrArg some (Except.ok.inj (hfound.symm.trans (Schema.columnName_of_mem_columns hname)))
  | join left right =>
    obtain ⟨t, found, rfl, hfound, rfl⟩ := Source.column?_join_eq_some h
    exact congrArg some (Except.ok.inj (hfound.symm.trans (Schema.columnName_of_mem_columns hname)))
  | crossJoin left right =>
    obtain ⟨t, ht, rfl, rfl⟩ := Source.column?_crossJoin_eq_some h
    obtain ⟨outputs, _, hprovides⟩ := hsource t ht
    exact congrArg some (hprovides hname).1

end Source

/-! ## 5. Names and outputs -/

section Outputs

variable {env : Env} {subqueries : Subqueries} {depth : Nat} {row : Ty} {s : Statement}
  {source : Source} {exports : List (String × String)} {list : Sql.SelectList}
  {member name : String}

/-- A side that puts out no members is read by the columns of its type. -/
theorem Statement.exports_lookup (hmembers : s.exportedMembers? .crossJoinSource = none)
    (htype : s.projectionType? .crossJoinSource = some row)
    (hexports : s.exports env.schema = .ok exports)
    (h : (row.columns env.schema).lookup member = some name) :
    (exports.lookup member).getD member = name := by
  unfold Statement.exports at hexports
  rw [hmembers, htype] at hexports
  cases row with
  | row rowType =>
    obtain ⟨info, hinfo, hexports⟩ := Except.bind_eq_ok.mp hexports
    cases hexports
    rw [Ty.columns_row hinfo] at h
    rw [h]
    rfl
  | record recordName fields =>
    cases hexports
    exact Ty.eq_of_mem_columns_record (Assoc.mem_of_lookup h)
  | scalar | nullable | collection | group => cases h

/-- The members of a record are put out under their names. -/
theorem Statement.output_of_members {p : Projection} (hselect : s.clauses.select = some p)
    (hmember : member ∈ p.recordMembers.map Prod.fst)
    (hexports : s.exports env.schema = .ok exports) {b : Binder}
    (hlist : (s.rowList b .crossJoinSource).outcome = .ok list) :
    (exports.lookup member).getD member = member ∧ member ∈ list.outputs := by
  obtain ⟨m, hm, rfl⟩ := List.mem_map.mp hmember
  have hmembers := Statement.exportedMembers?_of_mem hselect hm
  constructor
  · unfold Statement.exports at hexports
    rw [hmembers] at hexports
    cases hexports
    change ((p.recordMembers.map fun m => (m.1, m.1)).lookup m.1).getD m.1 = m.1
    cases hfound : (p.recordMembers.map fun m => (m.1, m.1)).lookup m.1 with
    | none => rfl
    | some found =>
      obtain ⟨m', _, heq⟩ := List.mem_map.mp (Assoc.mem_of_lookup hfound)
      obtain ⟨hkey, hvalue⟩ := Prod.mk.inj heq
      exact hvalue.symm.trans hkey
  · unfold Statement.rowList at hlist
    rw [hmembers] at hlist
    obtain ⟨items, hitems, hlist⟩ := Traced.bind_eq_ok.mp hlist
    cases hlist
    obtain ⟨item, hitem, hm⟩ := Traced.exists_mem_of_mapM hitems hm
    obtain ⟨e, _, hm⟩ := Traced.bind_eq_ok.mp hm
    cases hm
    exact List.mem_map.mpr ⟨_, hitem, rfl⟩

/-- **A statement that puts out the columns of its rows puts them out where they are looked for.** -/
theorem Statement.Provides.output (hs : s.Provides env.schema row)
    (hexports : s.exports env.schema = .ok exports) {tables : Sql.DerivedTables}
    (hsource : source.Provides env.schema tables)
    (hlist : (s.rowList (s.binder env subqueries none depth source) .crossJoinSource).outcome
      = .ok list)
    (h : (row.columns env.schema).lookup member = some name) :
    (exports.lookup member).getD member = name ∧ name ∈ list.outputs := by
  have hcolumn := Assoc.mem_of_lookup h
  cases hs with
  | named hselect hcolumns =>
    obtain ⟨hname, hmember⟩ := hcolumns _ hcolumn
    obtain rfl : member = name := hname
    exact Statement.output_of_members hselect hmember hexports hlist
  | whole hmembers hcolumns htype =>
    refine ⟨Statement.exports_lookup hmembers htype hexports h, ?_⟩
    unfold Statement.rowList at hlist
    rw [hmembers, hcolumns, htype] at hlist
    obtain ⟨names, hnames, hlist⟩ := Traced.bind_eq_ok.mp hlist
    cases hlist
    refine List.mem_filterMap.mpr ⟨.bareColumn name, List.mem_map_of_mem ?_, rfl⟩
    exact mem_defaultColumns hnames hcolumn
  | @copied p hselect hresult htype hcolumns =>
    obtain ⟨token, htoken, hname, haliases⟩ := hcolumns _ hcolumn
    have hmembers : s.exportedMembers? .crossJoinSource = none := by
      simp [Statement.exportedMembers?_eq, hselect]
    have hprojection : s.projectionType? .crossJoinSource = some row := by
      simp [Statement.projectionType?, hselect, hresult, htype]
    refine ⟨Statement.exports_lookup hmembers hprojection hexports h, ?_⟩
    have hlayers : s.layers = [p.aliases] := by simp [Statement.layers, hselect, hresult]
    -- the column is not among the records of the join, so it is one of its source
    have hbound : ∀ e, ((s.binder env subqueries none depth source).resolve .selectList
        (.column token)).outcome = .ok e → e.outputName? = some name := by
      intro e he
      have he : (Frame.bindThrough env subqueries ⟨depth, source, none⟩ s.layers token
          .selectList).outcome = .ok e := he
      rw [hlayers, Frame.bindThrough_cons_of_lookup_eq_none _ haliases] at he
      obtain ⟨owner, howner, hfound | ⟨_, outer, houter, _⟩⟩ := Frame.bindToSource_eq_ok.mp he
      · rw [ColumnToken.columnName?, howner, Option.bind_some] at hname
        exact hsource.outputName hname hfound
      · cases houter
    have hchosen : ((s.clauses.select <|> s.result?).map Projection.columns).getD [] = p.columns := by
      simp [hselect, hresult]
    unfold Statement.rowList at hlist
    rw [hmembers, hchosen] at hlist
    dsimp only at hlist
    split at hlist
    · rename_i hnil
      rw [hnil] at htoken
      cases htoken
    · obtain ⟨items, hitems, hlist⟩ := Traced.bind_eq_ok.mp hlist
      cases hlist
      obtain ⟨e, he, hresolved⟩ := Traced.exists_mem_of_mapM hitems htoken
      exact List.mem_filterMap.mpr ⟨e, he, hbound e hresolved⟩

end Outputs

end ChainQuery
