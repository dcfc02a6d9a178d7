import ChainQuery.Proofs.Compile.Gathering
import ChainQuery.Proofs.Query.Chain
/-!
# The clauses of a statement and the operators of its chain

`Query.Gathers` follows a chain operator by operator, with the clauses found so far in hand.  The lemmas
here say what has become of the whole chain at its end: the statement is over the base of the chain
(`Query.Gathers.base`), its projection and its filter are those of the one operator of that kind, if
there is one (`Clauses.Taken`), and no operator is among them that no clause stands for
(`Query.Gathers.isSupported`).

The sides of an equi-join are followed by a pass of their own, which `Query.JoinedAs` states as rules.
-/

namespace ChainQuery

variable {env : Env}

/-! ## 1. The sides of equi-joins -/

/-- **A table under orderings is a side of an equi-join**, with the keys of the orderings from the
table outwards. -/
inductive Query.JoinedAs (env : Env) : Query → JoinedTable → List SortKey → Prop
  | table {rowType : String} {info : RowType} (hname : rowType ≠ "")
      (hinfo : env.schema.rowType rowType = .ok info) :
      JoinedAs env (.table rowType) ⟨rowType, info.table⟩ []
  | orderBy {source : Query} {key : Lambda} {kind : OrderingKind} {ordering : OrderingClause}
      {t : JoinedTable} {keys : List SortKey} (hgrouped : key.isGrouped = false)
      (hread : (key.readOrdering env kind).outcome = .ok ordering)
      (hsource : JoinedAs env source t keys) :
      JoinedAs env (.orderBy source key kind) t (keys ++ [ordering.sortKey])

namespace Query

/-- The pass over a side of an equi-join follows the rules, and adds the keys found so far. -/
theorem joinedAs_of_toJoinedTable {q : Query} {clauses : Clauses} {t : JoinedTable}
    {keys : List SortKey} (h : (q.toJoinedTable env clauses).outcome = .ok (t, keys)) :
    clauses.unsupported = [] ∧ ∃ own, q.JoinedAs env t own ∧
      keys = own ++ clauses.orderings.map OrderingClause.sortKey := by
  induction q generalizing clauses with
  | table rowType =>
    rw [toJoinedTable] at h
    split at h
    · cases h
    · rename_i hname
      obtain ⟨info, hinfo, h⟩ := Traced.bind_eq_ok.mp h
      obtain ⟨_, hcheck, h⟩ := Traced.bind_eq_ok.mp h
      obtain ⟨_, _, h⟩ := Traced.bind_eq_ok.mp h
      cases h
      exact ⟨Clauses.check_eq_ok.mp hcheck, [], .table (mt String.isEmpty_iff.mpr hname) hinfo, rfl⟩
  | orderBy source key kind ih =>
    rw [toJoinedTable] at h
    split at h
    · exact absurd (ih h).1 (List.cons_ne_nil _ _)
    · rename_i hgrouped
      obtain ⟨ordering, hread, h⟩ := Traced.bind_eq_ok.mp h
      obtain ⟨hclauses, own, hjoined, rfl⟩ := ih h
      exact ⟨hclauses, own ++ [ordering.sortKey], .orderBy (by simpa using hgrouped) hread hjoined,
        by simp⟩
  | select | filter | join | crossJoin | call => cases h

/-- The sides of an equi-join that was gathered. -/
theorem joinedAs_of_toJoinedTable_empty {q : Query} {t : JoinedTable} {keys : List SortKey}
    (h : (q.toJoinedTable env {}).outcome = .ok (t, keys)) : q.JoinedAs env t keys := by
  obtain ⟨_, own, hjoined, hkeys⟩ := joinedAs_of_toJoinedTable h
  rw [hkeys]
  simpa using hjoined

namespace JoinedAs

variable {q : Query} {t : JoinedTable} {keys : List SortKey}

theorem orderedTable? (h : q.JoinedAs env t keys) : q.orderedTable? = some t.rowType := by
  induction h with
  | table => rfl
  | orderBy _ _ _ ih => exact ih

theorem isSupported (h : q.JoinedAs env t keys) : q.isSupported = true := by
  induction h with
  | table => rfl
  | orderBy hgrouped _ _ ih => simp [Query.isSupported, hgrouped, ih]

end JoinedAs

/-! ## 2. Statements -/

namespace Gathers

variable {q : Query} {clauses : Clauses} {s : Statement}

/-- **A statement is over the base of its chain**, under all the clauses that were found. -/
theorem base (h : q.Gathers env clauses s) : q.base.Gathers env s.clauses s := by
  induction h with
  | table hname hinfo => exact .table hname hinfo
  | select _ _ _ _ ih | filter _ _ _ _ ih | orderBy _ _ _ ih => exact ih
  | join houterKey hinnerKey hresult hleft hright hdiffer =>
    exact .join houterKey hinnerKey hresult hleft hright hdiffer
  | crossJoin hresult hrows hdiffer hleft hright =>
    exact .crossJoin hresult hrows hdiffer hleft hright

/-- **Only supported operators are gathered**, in the sides of joins as well. -/
theorem isSupported (h : q.Gathers env clauses s) : q.isSupported = true := by
  induction h with
  | table => rfl
  | select hgrouped _ _ _ ih | filter hgrouped _ _ _ ih | orderBy hgrouped _ _ ih =>
    simp [Query.isSupported, hgrouped, ih]
  | join _ _ _ hleft hright =>
    simp [Query.isSupported, (joinedAs_of_toJoinedTable_empty hleft).isSupported,
      (joinedAs_of_toJoinedTable_empty hright).isSupported]
  | crossJoin _ _ _ _ _ ihl ihr => simp [Query.isSupported, ihl, ihr]

/-- A statement over a table is that of a chain over the table. -/
theorem base_table {c : Clauses} {rowType : String} (h : q.Gathers env clauses (.table c rowType)) :
    q.base = .table rowType := by
  have hbase := h.base
  rcases q.base_cases with ⟨_, hq⟩ | ⟨_, _, _, _, _, hq⟩ | ⟨_, _, _, hq⟩
  · rw [hq] at hbase ⊢
    cases hbase
    rfl
  · rw [hq] at hbase
    cases hbase
  · rw [hq] at hbase
    cases hbase

/-- **A statement over an equi-join is that of a chain over a join** of two different tables under
orderings. -/
theorem base_join {c : Clauses} {left right : JoinedTable} {outerKey innerKey : Scalar}
    {p : Projection} {lifted : List SortKey}
    (h : q.Gathers env clauses (.join c left right outerKey innerKey p lifted)) :
    ∃ outer inner outerLambda innerLambda result leftKeys rightKeys,
      q.base = .join outer inner outerLambda innerLambda result ∧
      (result.read env 2).outcome = .ok p ∧
      outer.JoinedAs env left leftKeys ∧ inner.JoinedAs env right rightKeys ∧
      lifted = leftKeys ++ rightKeys ∧ left.rowType ≠ right.rowType := by
  have hbase := h.base
  rcases q.base_cases with ⟨_, hq⟩ | ⟨outer, inner, outerLambda, innerLambda, result, hq⟩ | ⟨_, _, _, hq⟩
  · rw [hq] at hbase
    cases hbase
  · rw [hq] at hbase
    cases hbase with
    | join _ _ hresult hleft hright hdiffer =>
      exact ⟨outer, inner, outerLambda, innerLambda, result, _, _, hq, hresult,
        joinedAs_of_toJoinedTable_empty hleft, joinedAs_of_toJoinedTable_empty hright, rfl, hdiffer⟩
  · rw [hq] at hbase
    cases hbase

/-- **A statement over a cross join is that of a chain over a cross join**, whose sides are gathered
from nothing. -/
theorem base_crossJoin {c : Clauses} {left right : Statement} {leftRow rightRow : Ty}
    {p : Projection} (h : q.Gathers env clauses (.crossJoin c left right leftRow rightRow p)) :
    ∃ source collection result, q.base = .crossJoin source collection result ∧
      (result.read env 2).outcome = .ok p ∧ result.rowTypes = (leftRow, rightRow) ∧
      leftRow ≠ rightRow ∧ source.Gathers env {} left ∧ collection.Gathers env {} right := by
  have hbase := h.base
  rcases q.base_cases with ⟨_, hq⟩ | ⟨_, _, _, _, _, hq⟩ | ⟨source, collection, result, hq⟩
  · rw [hq] at hbase
    cases hbase
  · rw [hq] at hbase
    cases hbase
  · rw [hq] at hbase
    cases hbase with
    | crossJoin hresult hrows hdiffer hleft hright =>
      exact ⟨source, collection, result, hq, hresult, hrows, hdiffer, hleft, hright⟩

end Gathers

end Query

/-! ## 3. Clauses that there is one of -/

/-- **What becomes of a clause along a chain** with the given operators of its kind: nothing changes if
there are none; if there is one, the clause was free before and is that operator's after. -/
inductive Clauses.Taken (env : Env) : List Lambda → Option Projection → Option Projection → Prop
  | none (p : Option Projection) : Taken env [] p p
  | one {l : Lambda} {p : Projection} (hread : (l.read env 1).outcome = .ok p) :
      Taken env [l] .none (some p)

namespace Clauses.Taken

variable {ls : List Lambda} {before after : Option Projection} {l : Lambda} {p : Projection}

/-- One more operator of the kind, further out. -/
theorem cons (hread : (l.read env 1).outcome = .ok p) (h : Taken env ls (some p) after) :
    Taken env (l :: ls) .none after := by
  cases h
  exact .one hread

theorem length_le (h : Taken env ls before after) : ls.length ≤ 1 := by
  cases h with
  | none => exact Nat.zero_le 1
  | one => exact Nat.le_refl 1

/-- A clause that was free before is that of an operator. -/
theorem exists_of_eq_some (h : Taken env ls .none (some p)) :
    ∃ l ∈ ls, (l.read env 1).outcome = .ok p := by
  cases h with
  | one hread => exact ⟨_, List.mem_singleton_self _, hread⟩

theorem isSome_iff (h : Taken env ls .none after) : after.isSome = true ↔ ls ≠ [] := by
  cases h with
  | none => simp
  | one => simp

end Clauses.Taken

namespace Query.Gathers

variable {q : Query} {clauses : Clauses} {s : Statement}

/-- The projection of a statement is that of its chain. -/
theorem select_taken (h : q.Gathers env clauses s) :
    Clauses.Taken env q.projections clauses.select s.clauses.select := by
  induction h with
  | table | join | crossJoin => exact .none _
  | select _ hfirst hread _ ih => exact hfirst ▸ ih.cons hread
  | filter _ _ _ _ ih | orderBy _ _ _ ih => exact ih

/-- The filter of a statement is that of its chain. -/
theorem filter_taken (h : q.Gathers env clauses s) :
    Clauses.Taken env q.filters clauses.filter s.clauses.filter := by
  induction h with
  | table | join | crossJoin => exact .none _
  | filter _ hfirst hread _ ih => exact hfirst ▸ ih.cons hread
  | select _ _ _ _ ih | orderBy _ _ _ ih => exact ih

end Query.Gathers

end ChainQuery
