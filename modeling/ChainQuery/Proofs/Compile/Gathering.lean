import ChainQuery.Compile.Statement
import ChainQuery.Proofs.Outcome
/-!
# What a statement is gathered from

A statement is gathered in one pass down a chain of operators, with the clauses found so far in hand.
`Query.Gathers` is that pass as a relation, for chains without operators that no clause stands for:
one rule for each operator, with the lambdas that it reads.  `Query.toStatement_eq_ok` says that it is
the compiler's pass.  Results about the clauses of a statement follow by induction on the rules.
-/

namespace ChainQuery

/-- **A chain under the given clauses is gathered to a statement.** -/
inductive Query.Gathers (env : Env) : Query → Clauses → Statement → Prop
  | table {rowType : String} {clauses : Clauses} {info : RowType} (hname : rowType ≠ "")
      (hinfo : env.schema.rowType rowType = .ok info) :
      Gathers env (.table rowType) clauses (.table clauses rowType)
  | select {source : Query} {selector : Lambda} {clauses : Clauses} {p : Projection} {s : Statement}
      (hgrouped : selector.isGrouped = false) (hfirst : clauses.select = none)
      (hread : (selector.read env 1).outcome = .ok p)
      (hsource : Gathers env source { clauses with select := some p } s) :
      Gathers env (.select source selector) clauses s
  | filter {source : Query} {predicate : Lambda} {clauses : Clauses} {p : Projection} {s : Statement}
      (hgrouped : predicate.isGrouped = false) (hfirst : clauses.filter = none)
      (hread : (predicate.read env 1).outcome = .ok p)
      (hsource : Gathers env source { clauses with filter := some p } s) :
      Gathers env (.filter source predicate) clauses s
  | orderBy {source : Query} {key : Lambda} {kind : OrderingKind} {clauses : Clauses}
      {ordering : OrderingClause} {s : Statement} (hgrouped : key.isGrouped = false)
      (hread : (key.readOrdering env kind).outcome = .ok ordering)
      (hsource : Gathers env source { clauses with orderings := ordering :: clauses.orderings } s) :
      Gathers env (.orderBy source key kind) clauses s
  | join {outer inner : Query} {outerKey innerKey result : Lambda} {clauses : Clauses}
      {outerKeyRead innerKeyRead resultRead : Projection} {left right : JoinedTable}
      {leftKeys rightKeys : List SortKey}
      (houterKey : (outerKey.read env 1).outcome = .ok outerKeyRead)
      (hinnerKey : (innerKey.read env 1).outcome = .ok innerKeyRead)
      (hresult : (result.read env 2).outcome = .ok resultRead)
      (hleft : (outer.toJoinedTable env {}).outcome = .ok (left, leftKeys))
      (hright : (inner.toJoinedTable env {}).outcome = .ok (right, rightKeys))
      (hdiffer : left.rowType ≠ right.rowType) :
      Gathers env (.join outer inner outerKey innerKey result) clauses
        (.join clauses left right outerKeyRead.body innerKeyRead.body resultRead
          (leftKeys ++ rightKeys))
  | crossJoin {source collection : Query} {result : Lambda} {clauses : Clauses} {p : Projection}
      {left right : Statement} {leftRow rightRow : Ty}
      (hresult : (result.read env 2).outcome = .ok p)
      (hrows : result.rowTypes = (leftRow, rightRow)) (hdiffer : leftRow ≠ rightRow)
      (hleft : Gathers env source {} left) (hright : Gathers env collection {} right) :
      Gathers env (.crossJoin source collection result) clauses
        (.crossJoin clauses left right leftRow rightRow p)

theorem Clauses.check_eq_ok {clauses : Clauses} :
    clauses.check.outcome = .ok () ↔ clauses.unsupported = [] := by
  unfold Clauses.check
  cases clauses.unsupported with
  | nil => simp
  | cons operator rest => simp

theorem Statement.checked_eq_ok {s s' : Statement} :
    s.checked.outcome = .ok s' ↔ s.clauses.unsupported = [] ∧ s = s' := by
  unfold Statement.checked
  rw [Traced.bind_eq_ok]
  constructor
  · rintro ⟨_, hcheck, h⟩
    cases h
    exact ⟨Clauses.check_eq_ok.mp hcheck, rfl⟩
  · rintro ⟨hcheck, rfl⟩
    exact ⟨(), Clauses.check_eq_ok.mpr hcheck, rfl⟩

namespace Query

variable {env : Env}

/-- A statement without operators that no clause stands for comes from a chain without any. -/
theorem gathers_of_gather {q : Query} {clauses : Clauses} {s : Statement}
    (h : (q.gather env clauses).outcome = .ok s) (hs : s.clauses.unsupported = []) :
    clauses.unsupported = [] ∧ q.Gathers env clauses s := by
  induction q generalizing clauses s with
  | table rowType =>
    rw [gather] at h
    split at h
    · cases h
    · rename_i hname
      obtain ⟨info, hinfo, h⟩ := Traced.bind_eq_ok.mp h
      cases h
      exact ⟨hs, .table (mt String.isEmpty_iff.mpr hname) hinfo⟩
  | select source selector ih =>
    rw [gather] at h
    split at h
    · exact absurd (ih h hs).1 (List.cons_ne_nil _ _)
    · rename_i hgrouped
      split at h
      · cases h
      · rename_i hfirst
        obtain ⟨p, hread, h⟩ := Traced.bind_eq_ok.mp h
        obtain ⟨_, _, h⟩ := Traced.bind_eq_ok.mp h
        obtain ⟨hclauses, hsource⟩ := ih h hs
        exact ⟨hclauses, .select (by simpa using hgrouped) (by simpa using hfirst) hread hsource⟩
  | filter source predicate ih =>
    rw [gather] at h
    split at h
    · exact absurd (ih h hs).1 (List.cons_ne_nil _ _)
    · rename_i hgrouped
      split at h
      · cases h
      · rename_i hfirst
        obtain ⟨p, hread, h⟩ := Traced.bind_eq_ok.mp h
        obtain ⟨hclauses, hsource⟩ := ih h hs
        exact ⟨hclauses, .filter (by simpa using hgrouped) (by simpa using hfirst) hread hsource⟩
  | orderBy source key kind ih =>
    rw [gather] at h
    split at h
    · exact absurd (ih h hs).1 (List.cons_ne_nil _ _)
    · rename_i hgrouped
      obtain ⟨ordering, hread, h⟩ := Traced.bind_eq_ok.mp h
      obtain ⟨hclauses, hsource⟩ := ih h hs
      exact ⟨hclauses, .orderBy (by simpa using hgrouped) hread hsource⟩
  | join outer inner outerKey innerKey result =>
    obtain ⟨_, houterKey, h⟩ := Traced.bind_eq_ok.mp h
    obtain ⟨_, hinnerKey, h⟩ := Traced.bind_eq_ok.mp h
    obtain ⟨_, hresult, h⟩ := Traced.bind_eq_ok.mp h
    obtain ⟨⟨left, leftKeys⟩, hleft, h⟩ := Traced.bind_eq_ok.mp h
    obtain ⟨⟨right, rightKeys⟩, hright, h⟩ := Traced.bind_eq_ok.mp h
    dsimp only at h
    split at h
    · cases h
    · rename_i hdiffer
      cases h
      exact ⟨hs, .join houterKey hinnerKey hresult hleft hright (by simpa using hdiffer)⟩
  | crossJoin source collection result ihl ihr =>
    rw [gather] at h
    cases hrows : result.rowTypes with | mk leftRow rightRow
    obtain ⟨p, hresult, h⟩ := Traced.bind_eq_ok.mp h
    rw [hrows] at h
    obtain ⟨_, _, h⟩ := Traced.bind_eq_ok.mp h
    dsimp only at h
    split at h
    · cases h
    · rename_i hdiffer
      obtain ⟨left, hleft, h⟩ := Traced.bind_eq_ok.mp h
      obtain ⟨_, hleftChecked, h⟩ := Traced.bind_eq_ok.mp h
      obtain ⟨right, hright, h⟩ := Traced.bind_eq_ok.mp h
      obtain ⟨_, hrightChecked, h⟩ := Traced.bind_eq_ok.mp h
      cases h
      obtain ⟨hleftNone, rfl⟩ := Statement.checked_eq_ok.mp hleftChecked
      obtain ⟨hrightNone, rfl⟩ := Statement.checked_eq_ok.mp hrightChecked
      exact ⟨hs, .crossJoin hresult hrows (by simpa using hdiffer) (ihl hleft hleftNone).2
        (ihr hright hrightNone).2⟩
  | call method source args ih => exact absurd (ih h hs).1 (List.cons_ne_nil _ _)

/-- The pass of the compiler follows the rules. -/
theorem Gathers.gather {q : Query} {clauses : Clauses} {s : Statement} (h : q.Gathers env clauses s)
    (hclauses : clauses.unsupported = []) :
    (q.gather env clauses).outcome = .ok s ∧ s.clauses.unsupported = [] := by
  induction h with
  | table hname hinfo =>
    refine ⟨?_, hclauses⟩
    rw [Query.gather, if_neg (mt String.isEmpty_iff.mp hname)]
    exact Traced.bind_eq_ok.mpr ⟨_, hinfo, rfl⟩
  | select hgrouped hfirst hread _ ih =>
    obtain ⟨hsource, hs⟩ := ih hclauses
    refine ⟨?_, hs⟩
    rw [Query.gather, if_neg (by simp [hgrouped]), if_neg (by simp [hfirst])]
    exact Traced.bind_eq_ok.mpr ⟨_, hread, Traced.bind_eq_ok.mpr ⟨_, rfl, hsource⟩⟩
  | filter hgrouped hfirst hread _ ih =>
    obtain ⟨hsource, hs⟩ := ih hclauses
    refine ⟨?_, hs⟩
    rw [Query.gather, if_neg (by simp [hgrouped]), if_neg (by simp [hfirst])]
    exact Traced.bind_eq_ok.mpr ⟨_, hread, hsource⟩
  | orderBy hgrouped hread _ ih =>
    obtain ⟨hsource, hs⟩ := ih hclauses
    refine ⟨?_, hs⟩
    rw [Query.gather, if_neg (by simp [hgrouped])]
    exact Traced.bind_eq_ok.mpr ⟨_, hread, hsource⟩
  | join houterKey hinnerKey hresult hleft hright hdiffer =>
    refine ⟨?_, hclauses⟩
    refine Traced.bind_eq_ok.mpr ⟨_, houterKey, Traced.bind_eq_ok.mpr ⟨_, hinnerKey,
      Traced.bind_eq_ok.mpr ⟨_, hresult, Traced.bind_eq_ok.mpr ⟨_, hleft,
        Traced.bind_eq_ok.mpr ⟨_, hright, ?_⟩⟩⟩⟩⟩
    dsimp only
    rw [if_neg (by simpa using hdiffer)]
    rfl
  | crossJoin hresult hrows hdiffer _ _ ihl ihr =>
    obtain ⟨hleft, hleftNone⟩ := ihl rfl
    obtain ⟨hright, hrightNone⟩ := ihr rfl
    refine ⟨?_, hclauses⟩
    rw [Query.gather, hrows]
    refine Traced.bind_eq_ok.mpr ⟨_, hresult, Traced.bind_eq_ok.mpr ⟨(), rfl, ?_⟩⟩
    dsimp only
    rw [if_neg (by simpa using hdiffer)]
    exact Traced.bind_eq_ok.mpr ⟨_, hleft, Traced.bind_eq_ok.mpr
      ⟨_, Statement.checked_eq_ok.mpr ⟨hleftNone, rfl⟩, Traced.bind_eq_ok.mpr ⟨_, hright,
        Traced.bind_eq_ok.mpr ⟨_, Statement.checked_eq_ok.mpr ⟨hrightNone, rfl⟩, rfl⟩⟩⟩⟩

/-- **The statement of a query is what its chain is gathered to.** -/
theorem toStatement_eq_ok {q : Query} {s : Statement} :
    (q.toStatement env).outcome = .ok s ↔ q.Gathers env {} s := by
  rw [toStatement, Traced.bind_eq_ok]
  constructor
  · rintro ⟨_, hgather, hchecked⟩
    obtain ⟨hs, rfl⟩ := Statement.checked_eq_ok.mp hchecked
    exact (gathers_of_gather hgather hs).2
  · intro h
    obtain ⟨hgather, hs⟩ := h.gather rfl
    exact ⟨s, hgather, Statement.checked_eq_ok.mpr ⟨hs, rfl⟩⟩

/-- A projection that has been met is that of the statement. -/
theorem Gathers.select_eq {q : Query} {clauses : Clauses} {s : Statement} {p : Projection}
    (h : q.Gathers env clauses s) (hp : clauses.select = some p) : s.clauses.select = some p := by
  induction h with
  | table | join | crossJoin => exact hp
  | select _ hfirst => cases hfirst.symm.trans hp
  | filter _ _ _ _ ih => exact ih hp
  | orderBy _ _ _ ih => exact ih hp

end Query

end ChainQuery
