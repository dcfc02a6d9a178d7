import ChainQuery.Compile.Select
import ChainQuery.Proofs.Schema.Validated
/-!
# Schemas with more row types

A schema is within another one if all of its row types are there, with the same information
(`Schema.Within`).  The compiler asks a schema by names, and ends where a name is not there.  So whatever
it finds in the one, it finds in the other.
-/

namespace ChainQuery

/-! ## 1. Row types -/

/-- **Every row type of a schema is in another one**, with the same information. -/
def Schema.Within (s s' : Schema) : Prop :=
  ∀ ⦃name info⦄, s.rowTypes.lookup name = some info → s'.rowTypes.lookup name = some info

namespace Schema.Within

variable {s s' : Schema} {name : String}

theorem rowType (h : s.Within s') : ∀ info, s.rowType name = .ok info → s'.rowType name = .ok info := by
  intro info hinfo
  exact Schema.rowType_eq_ok.mpr (h (Schema.rowType_eq_ok.mp hinfo))

theorem foreignKey (h : s.Within s') {principal : String} :
    ∀ key, s.foreignKey name principal = .ok key → s'.foreignKey name principal = .ok key := by
  intro key hkey
  obtain ⟨info, hinfo, hlookup⟩ := Schema.foreignKey_eq_ok.mp hkey
  exact Schema.foreignKey_eq_ok.mpr ⟨info, h hinfo, hlookup⟩

theorem navigation (h : s.Within s') {member : String} :
    ∀ target, s.navigation name member = .ok target → s'.navigation name member = .ok target := by
  intro target htarget
  obtain ⟨info, hinfo, hlookup⟩ := Schema.navigation_eq_ok.mp htarget
  exact Schema.navigation_eq_ok.mpr ⟨info, h hinfo, hlookup⟩

/-- A member that is no column keeps its name in both schemas: both know the row type. -/
theorem columnName (h : s.Within s') {member : String} :
    ∀ column, s.columnName name member = .ok column → s'.columnName name member = .ok column := by
  intro column hcolumn
  obtain ⟨info, hinfo, hname⟩ := Except.bind_eq_ok.mp hcolumn
  exact Except.bind_eq_ok.mpr ⟨info, h.rowType info hinfo, hname⟩

theorem columnType (h : s.Within s') {member : String} :
    ∀ t, s.columnType name member = .ok t → s'.columnType name member = .ok t := by
  intro t ht
  obtain ⟨info, column, hinfo, hcolumn, rfl⟩ := Schema.columnType_eq_ok.mp ht
  exact Schema.columnType_eq_ok.mpr ⟨info, column, h hinfo, hcolumn, rfl⟩

/-- Row types that are added at the end take none away. -/
theorem append (rowTypes more : List (String × RowType)) :
    Schema.Within ⟨rowTypes⟩ ⟨rowTypes ++ more⟩ := by
  intro name info hinfo
  rw [List.lookup_append, hinfo]
  rfl

end Schema.Within

/-- Two environments with the same dialect, the second with all row types of the first. -/
structure Env.Within (env env' : Env) : Prop where
  schema : env.schema.Within env'.schema
  dialect : env'.dialect = env.dialect

theorem Env.Within.refl (env : Env) : env.Within env := ⟨fun _ _ => id, rfl⟩

/-! ## 2. What the compiler looks up -/

/-- A source finds the same column: it asks for a row type that is registered. -/
theorem Source.column?_of_within {s s' : Schema} (h : s.Within s') (source : Source) (owner : Ty)
    (member : String) (position : Position) : ∀ found,
      source.column? s owner member position = .ok found →
        source.column? s' owner member position = .ok found := by
  have hjoined : ∀ (t : JoinedTable) (found : Option Sql.Expr),
      t.column? s owner member = .ok found → t.column? s' owner member = .ok found := by
    intro t found
    unfold JoinedTable.column?
    split
    · intro ht
      obtain ⟨name, hname, ht⟩ := Except.bind_eq_ok.mp ht
      exact Except.bind_eq_ok.mpr ⟨name, h.columnName name hname, ht⟩
    · exact id
  intro found
  cases source with
  | table rowType label =>
    rw [Source.column?, Source.column?]
    split
    · intro hfound
      obtain ⟨name, hname, hfound⟩ := Except.bind_eq_ok.mp hfound
      exact Except.bind_eq_ok.mpr ⟨name, h.columnName name hname, hfound⟩
    · exact id
  | join left right =>
    intro hfound
    obtain ⟨column, hleft, hfound⟩ := Except.bind_eq_ok.mp hfound
    refine Except.bind_eq_ok.mpr ⟨column, hjoined left column hleft, ?_⟩
    cases column with
    | some column => exact hfound
    | none => exact hjoined right found hfound
  | crossJoin left right => exact id

/-- The columns of a type that is looked up in the larger schema are the same. -/
theorem defaultColumns_of_within {s s' : Schema} (h : s.Within s') (t : Ty) :
    ∀ names, defaultColumns s t = .ok names → defaultColumns s' t = .ok names := by
  intro names hnames
  cases t with
  | row name =>
    obtain ⟨info, hinfo, hnames⟩ := Except.bind_eq_ok.mp hnames
    exact Except.bind_eq_ok.mpr ⟨info, h.rowType info hinfo, hnames⟩
  | record | scalar | nullable | collection | group => exact hnames

/-- **The output columns of a side of a cross join are the same**: there are none only where no schema is
asked for any. -/
theorem Statement.exports_of_within {schema schema' : Schema} (h : schema.Within schema')
    (s : Statement) : ∀ exports, s.exports schema = .ok exports → s.exports schema' = .ok exports := by
  unfold Statement.exports
  intro exports
  split
  · exact id
  · split
    · intro hexports
      obtain ⟨info, hinfo, hexports⟩ := Except.bind_eq_ok.mp hexports
      exact Except.bind_eq_ok.mpr ⟨info, h.rowType info hinfo, hexports⟩
    · exact id

end ChainQuery
