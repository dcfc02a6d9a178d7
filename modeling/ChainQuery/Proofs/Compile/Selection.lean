import ChainQuery.Compile.Select
import ChainQuery.Proofs.Outcome
/-!
# What a compiled selection consists of

The inversions of `Statement.toSelect` and of what it is made of: if a selection was compiled, then
so were its parts, in the scope of its statement (`Statement.binder`), and it is put together from
them.  One lemma for each form of statement says what its ground is.  Results about emitted
statements start here, and do not unfold the compiler again.
-/

namespace ChainQuery

variable {env : Env} {subqueries : Subqueries} {outer : Option Scope} {role : Role} {depth : Nat}

/-- What the parts of a statement over a source are bound with. -/
def Statement.binder (env : Env) (subqueries : Subqueries) (outer : Option Scope) (depth : Nat)
    (s : Statement) (source : Source) : Binder where
  env := env
  subqueries := subqueries
  scope := Frame.scope env subqueries { depth, source, outer } s.layers

/-- The members selected under their names are those of the record that the projection returns. -/
theorem Statement.exportedMembers?_eq (s : Statement) (role : Role) :
    s.exportedMembers? role =
      if role.exportsMembers then s.clauses.select.bind fun p =>
        if p.recordMembers.isEmpty then none else some p.recordMembers
      else none := by
  unfold Statement.exportedMembers?
  cases role.exportsMembers with
  | false => rfl
  | true => rfl

theorem Statement.exportedMembers?_eq_some {s : Statement} {role : Role}
    {members : List (String × Scalar)} (h : s.exportedMembers? role = some members) :
    ∃ p, s.clauses.select = some p ∧ members = p.recordMembers := by
  rw [Statement.exportedMembers?_eq] at h
  split at h
  · obtain ⟨p, hselect, h⟩ := Option.bind_eq_some_iff.mp h
    split at h
    · cases h
    · exact ⟨p, hselect, (Option.some.inj h).symm⟩
  · cases h

/-- A side of a cross join whose projection returns a record exports its members. -/
theorem Statement.exportedMembers?_of_mem {s : Statement} {p : Projection} {m : String × Scalar}
    (hp : s.clauses.select = some p) (hm : m ∈ p.recordMembers) :
    s.exportedMembers? .crossJoinSource = some p.recordMembers := by
  simp [Statement.exportedMembers?_eq, hp, Role.exportsMembers, List.ne_nil_of_mem hm]

/-- There is always a column to select by default. -/
theorem defaultColumns_ne_nil {schema : Schema} {t : Ty} {names : List String}
    (h : defaultColumns schema t = .ok names) : names ≠ [] := by
  have hguard : ∀ found : List String,
      (if found.isEmpty then throw (.unresolvableProjection t.text) else pure found :
        Except Error (List String)) = .ok names → names ≠ [] := by
    intro found h
    split at h
    · cases h
    · rename_i hempty
      cases h
      exact fun hnil => hempty (List.isEmpty_iff.mpr hnil)
  unfold defaultColumns at h
  dsimp only at h
  split at h
  · obtain ⟨info, _, h⟩ := Except.bind_eq_ok.mp h
    exact hguard _ h
  · exact hguard _ h
  · exact hguard [] h

/-- **The parts of a selection.** -/
theorem Statement.assemble_eq_ok {s : Statement} {ground : Ground} {select : Sql.Select}
    {lifted : List SortKey} :
    (s.assemble env subqueries outer role depth ground).outcome = .ok (select, lifted) ↔
      ∃ list joins filter orderBy,
        (ground.joins (s.binder env subqueries outer depth ground.source)).outcome = .ok joins ∧
        (s.selectList (s.binder env subqueries outer depth ground.source) role).outcome = .ok list ∧
        (s.clauses.filterExpr (s.binder env subqueries outer depth ground.source)).outcome
          = .ok filter ∧
        (s.clauses.order (s.binder env subqueries outer depth ground.source) role
          (ground.lifted ++ s.clauses.orderings.map OrderingClause.sortKey)).outcome
          = .ok (orderBy, lifted) ∧
        select = ⟨list, some ground.clause, joins, filter, orderBy⟩ := by
  constructor
  · intro h
    obtain ⟨joins, hjoins, h⟩ := Traced.bind_eq_ok.mp h
    obtain ⟨list, hlist, h⟩ := Traced.bind_eq_ok.mp h
    obtain ⟨filter, hfilter, h⟩ := Traced.bind_eq_ok.mp h
    obtain ⟨⟨orderBy, lifted⟩, horder, h⟩ := Traced.bind_eq_ok.mp h
    cases h
    exact ⟨list, joins, filter, orderBy, hjoins, hlist, hfilter, horder, rfl⟩
  · rintro ⟨list, joins, filter, orderBy, hjoins, hlist, hfilter, horder, rfl⟩
    exact Traced.bind_eq_ok.mpr ⟨joins, hjoins, Traced.bind_eq_ok.mpr ⟨list, hlist,
      Traced.bind_eq_ok.mpr ⟨filter, hfilter, Traced.bind_eq_ok.mpr ⟨_, horder, rfl⟩⟩⟩⟩

/-- The outermost statement orders by all keys and leaves none. -/
theorem Clauses.order_root_eq_ok {b : Binder} {clauses : Clauses} {keys lifted : List SortKey}
    {orderBy : List (Sql.Expr × Sql.Direction)} :
    (clauses.order b .root keys).outcome = .ok (orderBy, lifted) ↔
      (keys.mapM (SortKey.toSql b)).outcome = .ok orderBy ∧ lifted = [] := by
  unfold Clauses.order
  rw [Traced.bind_eq_ok]
  constructor
  · rintro ⟨resolved, hkeys, h⟩
    cases h
    exact ⟨hkeys, rfl⟩
  · rintro ⟨hkeys, rfl⟩
    exact ⟨orderBy, hkeys, rfl⟩

/-- **Only the outermost statement orders its rows.** -/
theorem Clauses.orderBy_eq_nil {b : Binder} {clauses : Clauses} {keys lifted : List SortKey}
    {orderBy : List (Sql.Expr × Sql.Direction)} (hrole : role ≠ .root)
    (h : (clauses.order b role keys).outcome = .ok (orderBy, lifted)) : orderBy = [] := by
  unfold Clauses.order at h
  split at h
  · exact absurd rfl hrole
  · split at h
    · cases h
      rfl
    · cases h
      rfl
  · cases h
    rfl
  · cases h
    rfl

/-- The ground of a table: the table of its row type, under the alias of the depth. -/
theorem Ground.table_eq_ok {rowType : String} {ground : Ground} :
    (Ground.table env depth rowType).outcome = .ok ground ↔
      ∃ info, env.schema.rowType rowType = .ok info ∧
        ground =
          { source := .table rowType (Sql.depthAlias depth)
            clause := .table (.table info.table) (some (Sql.depthAlias depth))
            joins := fun _ => return []
            lifted := [] } := by
  constructor
  · intro h
    obtain ⟨info, hinfo, h⟩ := Traced.bind_eq_ok.mp h
    cases h
    exact ⟨info, hinfo, rfl⟩
  · rintro ⟨info, hinfo, rfl⟩
    exact Traced.bind_eq_ok.mpr ⟨info, hinfo, rfl⟩

/-- The selection of a chain over a table. -/
theorem Statement.toSelect_table_eq_ok {clauses : Clauses} {rowType : String} {select : Sql.Select}
    {lifted : List SortKey} :
    ((Statement.table clauses rowType).toSelect env subqueries outer role depth).outcome
        = .ok (select, lifted) ↔
      ∃ ground, (Ground.table env depth rowType).outcome = .ok ground ∧
        ((Statement.table clauses rowType).assemble env subqueries outer role depth ground).outcome
          = .ok (select, lifted) := by
  rw [Statement.toSelect, Traced.bind_eq_ok]

/-- **The selection of a cross join**: both sides are compiled for it, in the scope around it. -/
theorem Statement.toSelect_crossJoin_eq_ok {clauses : Clauses} {left right : Statement}
    {leftRow rightRow : Ty} {result : Projection} {select : Sql.Select} {lifted : List SortKey} :
    ((Statement.crossJoin clauses left right leftRow rightRow result).toSelect env subqueries outer
        role depth).outcome = .ok (select, lifted) ↔
      ∃ leftSelect leftKeys rightSelect rightKeys leftExports rightExports,
        (left.toSelect env subqueries outer .crossJoinSource (depth + 1)).outcome
          = .ok (leftSelect, leftKeys) ∧
        (right.toSelect env subqueries outer .crossJoinSource (depth + 1)).outcome
          = .ok (rightSelect, rightKeys) ∧
        left.exports env.schema = .ok leftExports ∧
        right.exports env.schema = .ok rightExports ∧
        ((Statement.crossJoin clauses left right leftRow rightRow result).assemble env subqueries
          outer role depth
          (.crossJoin ⟨leftRow, "leftStatement", leftExports⟩
            ⟨rightRow, "rightStatement", rightExports⟩ leftSelect rightSelect
            (leftKeys ++ rightKeys))).outcome = .ok (select, lifted) := by
  rw [Statement.toSelect]
  constructor
  · intro h
    obtain ⟨⟨leftSelect, leftKeys⟩, hleft, h⟩ := Traced.bind_eq_ok.mp h
    obtain ⟨⟨rightSelect, rightKeys⟩, hright, h⟩ := Traced.bind_eq_ok.mp h
    obtain ⟨leftExports, hleftExports, h⟩ := Traced.bind_eq_ok.mp h
    obtain ⟨rightExports, hrightExports, h⟩ := Traced.bind_eq_ok.mp h
    exact ⟨leftSelect, leftKeys, rightSelect, rightKeys, leftExports, rightExports, hleft, hright,
      hleftExports, hrightExports, h⟩
  · rintro ⟨leftSelect, leftKeys, rightSelect, rightKeys, leftExports, rightExports, hleft, hright,
      hleftExports, hrightExports, h⟩
    exact Traced.bind_eq_ok.mpr ⟨_, hleft, Traced.bind_eq_ok.mpr ⟨_, hright,
      Traced.bind_eq_ok.mpr ⟨_, hleftExports, Traced.bind_eq_ok.mpr ⟨_, hrightExports, h⟩⟩⟩⟩

/-- What a statement selects from, with the sides of a cross join compiled. -/
def Statement.ground (env : Env) (subqueries : Subqueries) (outer : Option Scope) (depth : Nat) :
    Statement → Traced Ground
  | .table _ rowType => Ground.table env depth rowType
  | .join _ left right outerKey innerKey _ lifted =>
    return .join left right outerKey innerKey lifted
  | .crossJoin _ left right leftRow rightRow _ => do
    let (leftSelect, leftKeys) ← left.toSelect env subqueries outer .crossJoinSource (depth + 1)
    let (rightSelect, rightKeys) ← right.toSelect env subqueries outer .crossJoinSource (depth + 1)
    let leftTable : DerivedTable :=
      { row := leftRow, label := "leftStatement", exports := ← left.exports env.schema }
    let rightTable : DerivedTable :=
      { row := rightRow, label := "rightStatement", exports := ← right.exports env.schema }
    return .crossJoin leftTable rightTable leftSelect rightSelect (leftKeys ++ rightKeys)

/-- **The ground of a cross join**: the selections of its sides, under their aliases. -/
theorem Statement.ground_crossJoin_eq_ok {clauses : Clauses} {left right : Statement}
    {leftRow rightRow : Ty} {result : Projection} {ground : Ground} :
    ((Statement.crossJoin clauses left right leftRow rightRow result).ground env subqueries outer
        depth).outcome = .ok ground ↔
      ∃ leftSelect leftKeys rightSelect rightKeys leftExports rightExports,
        (left.toSelect env subqueries outer .crossJoinSource (depth + 1)).outcome
          = .ok (leftSelect, leftKeys) ∧
        (right.toSelect env subqueries outer .crossJoinSource (depth + 1)).outcome
          = .ok (rightSelect, rightKeys) ∧
        left.exports env.schema = .ok leftExports ∧
        right.exports env.schema = .ok rightExports ∧
        ground = .crossJoin ⟨leftRow, "leftStatement", leftExports⟩
          ⟨rightRow, "rightStatement", rightExports⟩ leftSelect rightSelect
          (leftKeys ++ rightKeys) := by
  constructor
  · intro h
    obtain ⟨⟨leftSelect, leftKeys⟩, hleft, h⟩ := Traced.bind_eq_ok.mp h
    obtain ⟨⟨rightSelect, rightKeys⟩, hright, h⟩ := Traced.bind_eq_ok.mp h
    obtain ⟨leftExports, hleftExports, h⟩ := Traced.bind_eq_ok.mp h
    obtain ⟨rightExports, hrightExports, h⟩ := Traced.bind_eq_ok.mp h
    cases h
    exact ⟨leftSelect, leftKeys, rightSelect, rightKeys, leftExports, rightExports, hleft, hright,
      hleftExports, hrightExports, rfl⟩
  · rintro ⟨leftSelect, leftKeys, rightSelect, rightKeys, leftExports, rightExports, hleft, hright,
      hleftExports, hrightExports, rfl⟩
    exact Traced.bind_eq_ok.mpr ⟨_, hleft, Traced.bind_eq_ok.mpr ⟨_, hright,
      Traced.bind_eq_ok.mpr ⟨_, hleftExports, Traced.bind_eq_ok.mpr ⟨_, hrightExports, rfl⟩⟩⟩⟩

/-- **A selection is assembled over the ground of its statement**, whatever the form of the
statement. -/
theorem Statement.toSelect_eq (s : Statement) :
    s.toSelect env subqueries outer role depth
      = s.ground env subqueries outer depth >>= s.assemble env subqueries outer role depth := by
  cases s with
  | table clauses rowType => rfl
  | join clauses left right outerKey innerKey result lifted => exact (pure_bind _ _).symm
  | crossJoin clauses left right leftRow rightRow result =>
    simp only [Statement.toSelect, Statement.ground, bind_assoc, pure_bind]

theorem Statement.toSelect_eq_ok {s : Statement} {select : Sql.Select} {lifted : List SortKey} :
    (s.toSelect env subqueries outer role depth).outcome = .ok (select, lifted) ↔
      ∃ ground, (s.ground env subqueries outer depth).outcome = .ok ground ∧
        (s.assemble env subqueries outer role depth ground).outcome = .ok (select, lifted) := by
  rw [Statement.toSelect_eq, Traced.bind_eq_ok]

/-- **The selection of an aggregate**: that of its statement, or for an aggregate of aggregates one
from its pairs. -/
theorem Correlated.toSelect_eq_ok {levels : Nat} {c : Correlated} {scope : Scope}
    {select : Sql.Select} :
    (Correlated.toSelect env (levels + 1) c scope).outcome = .ok select ↔
      ∃ statement, (c.query.toStatement env).outcome = .ok statement ∧
        ((c.nested = true ∧ ∃ pairs lifted,
            (statement.toSelect env (Correlated.toSelect env levels) (some scope) .correlatedPairs
              (scope.depth + 2)).outcome = .ok (pairs, lifted) ∧
            select = .fromDerived [c.aggregate.toSql (.bareColumn "Value")] pairs
              (Sql.depthAlias (scope.depth + 1))) ∨
          (c.nested = false ∧ ∃ lifted,
            (statement.toSelect env (Correlated.toSelect env levels) (some scope)
              (.correlated c.aggregate) (scope.depth + 1)).outcome = .ok (select, lifted))) := by
  rw [Correlated.toSelect, Traced.bind_eq_ok]
  refine exists_congr fun statement => and_congr_right fun _ => ?_
  cases hnested : c.nested with
  | true =>
    simp only [true_and, Bool.true_eq_false, false_and, or_false, if_true]
    rw [Traced.bind_eq_ok]
    constructor
    · rintro ⟨⟨pairs, lifted⟩, hpairs, h⟩
      cases h
      exact ⟨pairs, lifted, hpairs, rfl⟩
    · rintro ⟨pairs, lifted, hpairs, rfl⟩
      exact ⟨⟨pairs, lifted⟩, hpairs, rfl⟩
  | false =>
    simp only [Bool.false_eq_true, false_and, true_and, false_or, if_false]
    rw [Traced.bind_eq_ok]
    constructor
    · rintro ⟨⟨select, lifted⟩, hselect, h⟩
      cases h
      exact ⟨lifted, hselect⟩
    · rintro ⟨lifted, hselect⟩
      exact ⟨⟨select, lifted⟩, hselect, rfl⟩

/-- **The selection of a query** is that of its statement, with nothing around it. -/
theorem Query.toSelect_eq_ok {q : Query} {select : Sql.Select} :
    (q.toSelect env).outcome = .ok select ↔
      ∃ statement lifted, (q.toStatement env).outcome = .ok statement ∧
        (statement.toSelect env (Correlated.toSelect env q.aggregateDepth) none .root 0).outcome
          = .ok (select, lifted) := by
  rw [Query.toSelect, Traced.bind_eq_ok]
  refine exists_congr fun statement => ?_
  rw [Traced.bind_eq_ok]
  constructor
  · rintro ⟨hstatement, ⟨select, lifted⟩, hselect, h⟩
    cases h
    exact ⟨lifted, hstatement, hselect⟩
  · rintro ⟨lifted, hstatement, hselect⟩
    exact ⟨hstatement, ⟨select, lifted⟩, hselect, rfl⟩

end ChainQuery
