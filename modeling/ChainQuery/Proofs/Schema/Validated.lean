import ChainQuery.Config.Basic
import ChainQuery.Proofs.Outcome
/-!
# What a validated schema provides

The checks of a schema are made entry by entry, the compiler asks for names.  `Schema.Valid` says in
terms of look-ups what the checks establish: the primary key and every foreign key of a row type is
one of its columns, and every navigation leads to a row type that has a foreign key back.
-/

namespace ChainQuery

namespace Schema

/-- **A schema can be relied on**: keys are columns, and navigations can be followed back. -/
structure Valid (s : Schema) : Prop where
  primaryKey : ∀ ⦃name info⦄, s.rowTypes.lookup name = some info →
    ∃ column, info.columns.lookup info.primaryKey = some column
  foreignKey : ∀ ⦃name info principal member⦄, s.rowTypes.lookup name = some info →
    info.foreignKeys.lookup principal = some member →
      ∃ column, info.columns.lookup member = some column
  navigation : ∀ ⦃name info member target⦄, s.rowTypes.lookup name = some info →
    info.navigations.lookup member = some target →
      ∃ targetInfo key, s.rowTypes.lookup target = some targetInfo ∧
        targetInfo.foreignKeys.lookup name = some key

variable {s : Schema} {name : String} {info : RowType}

theorem checkPrimaryKey_eq_ok :
    checkPrimaryKey name info = .ok () ↔
      ∃ column, info.columns.lookup info.primaryKey = some column := by
  unfold checkPrimaryKey
  cases info.columns.lookup info.primaryKey with
  | none => simp
  | some column => simp

theorem checkForeignKey_eq_ok {principal member : String} :
    s.checkForeignKey name info principal member = .ok () ↔
      (∃ principalInfo, s.rowTypes.lookup principal = some principalInfo) ∧
        ∃ column, info.columns.lookup member = some column := by
  unfold checkForeignKey
  cases s.rowTypes.lookup principal with
  | none => simp
  | some principalInfo =>
    cases info.columns.lookup member with
    | none => simp
    | some column => simp

theorem checkNavigation_eq_ok {member target : String} :
    s.checkNavigation name member target = .ok () ↔
      ∃ targetInfo key, s.rowTypes.lookup target = some targetInfo ∧
        targetInfo.foreignKeys.lookup name = some key := by
  unfold checkNavigation
  cases s.rowTypes.lookup target with
  | none => simp
  | some targetInfo =>
    simp only [Option.some.injEq, exists_and_left, exists_eq_left']
    cases targetInfo.foreignKeys.lookup name with
    | none => simp
    | some key => simp

theorem checkRowType_eq_ok :
    s.checkRowType name info = .ok () ↔
      checkPrimaryKey name info = .ok () ∧
      (∀ key ∈ info.foreignKeys, s.checkForeignKey name info key.1 key.2 = .ok ()) ∧
        ∀ n ∈ info.navigations, s.checkNavigation name n.1 n.2 = .ok () := by
  unfold checkRowType
  rw [Except.bind_eq_ok]
  constructor
  · rintro ⟨_, hprimary, h⟩
    obtain ⟨_, hforeign, hnavigations⟩ := Except.bind_eq_ok.mp h
    exact ⟨hprimary, Except.forM_eq_ok.mp hforeign, Except.forM_eq_ok.mp hnavigations⟩
  · rintro ⟨hprimary, hforeign, hnavigations⟩
    exact ⟨(), hprimary, Except.bind_eq_ok.mpr
      ⟨(), Except.forM_eq_ok.mpr hforeign, Except.forM_eq_ok.mpr hnavigations⟩⟩

/-- **A schema that passes its checks can be relied on.** -/
theorem valid_of_validate (h : s.validate = .ok ()) : s.Valid := by
  have hentry : ∀ ⦃name info⦄, s.rowTypes.lookup name = some info →
      s.checkRowType name info = .ok () :=
    fun name info hlookup => Except.forM_eq_ok.mp h _ (Assoc.mem_of_lookup hlookup)
  refine ⟨fun name info hlookup => ?_, fun name info principal member hlookup hkey => ?_,
    fun name info member target hlookup hnavigation => ?_⟩
  · exact checkPrimaryKey_eq_ok.mp (checkRowType_eq_ok.mp (hentry hlookup)).1
  · have hchecked := (checkRowType_eq_ok.mp (hentry hlookup)).2.1 _ (Assoc.mem_of_lookup hkey)
    exact (checkForeignKey_eq_ok.mp hchecked).2
  · have hchecked := (checkRowType_eq_ok.mp (hentry hlookup)).2.2 _ (Assoc.mem_of_lookup hnavigation)
    exact checkNavigation_eq_ok.mp hchecked

/-! ## Look-ups that succeed -/

theorem rowType_eq_ok : s.rowType name = .ok info ↔ s.rowTypes.lookup name = some info := by
  unfold rowType
  cases s.rowTypes.lookup name with
  | none => simp
  | some found => simp

theorem columnType_eq_ok {member : String} {t : Ty} :
    s.columnType name member = .ok t ↔ ∃ info column, s.rowTypes.lookup name = some info ∧
      info.columns.lookup member = some column ∧ t = .scalar column.type := by
  rw [columnType, Except.bind_eq_ok]
  simp only [rowType_eq_ok, exists_and_left]
  refine exists_congr fun info => and_congr_right fun _ => ?_
  cases info.columns.lookup member with
  | none => simp [throw, throwThe, MonadExceptOf.throw]
  | some column => simp [pure, Except.pure, eq_comm]

theorem foreignKey_eq_ok {principal key : String} :
    s.foreignKey name principal = .ok key ↔ ∃ info, s.rowTypes.lookup name = some info ∧
      info.foreignKeys.lookup principal = some key := by
  rw [foreignKey, Except.bind_eq_ok]
  simp only [rowType_eq_ok]
  refine exists_congr fun info => and_congr_right fun _ => ?_
  cases info.foreignKeys.lookup principal with
  | none => simp [throw, throwThe, MonadExceptOf.throw]
  | some found => simp [pure, Except.pure]

theorem navigation_eq_ok {member target : String} :
    s.navigation name member = .ok target ↔ ∃ info, s.rowTypes.lookup name = some info ∧
      info.navigations.lookup member = some target := by
  rw [navigation, Except.bind_eq_ok]
  simp only [rowType_eq_ok]
  refine exists_congr fun info => and_congr_right fun _ => ?_
  cases info.navigations.lookup member with
  | none => simp [throw, throwThe, MonadExceptOf.throw]
  | some found => simp [pure, Except.pure]

theorem columnName_of_lookup {member : String} {column : Column}
    (h : s.rowTypes.lookup name = some info) (hc : info.columns.lookup member = some column) :
    s.columnName name member = .ok column.name := by
  simp [columnName, rowType_eq_ok.mpr h, hc, pure, Except.pure]

end Schema

/-- The schema of an environment that comes from a configuration can be relied on. -/
theorem Config.schema_valid_of_toEnv {config : Config} {env : Env} (h : config.toEnv = .ok env) :
    env.schema.Valid := by
  obtain ⟨_, hvalidate, h⟩ := Except.bind_eq_ok.mp h
  cases h
  exact Schema.valid_of_validate hvalidate

end ChainQuery
