import ChainQuery.Proofs.Compile.Chains
import ChainQuery.Proofs.Compile.Nodes
import ChainQuery.Schema.Shop
import ChainQuery.Sql.Text
/-!
# No operator is dropped

A compiled query has a selection for each of its scopes, one inside the other (`Sql.Select.scopes`).
What is in a scope can be seen in its selection (`Query.ShownBy`): there is at most one projection and
one filter in it, a filter is written, and a join or a cross join is joined.  Operators that could not
be seen are refused, in every scope and in the sides of equi-joins (`Query.shownBy_of_toSelect`).

A filter is not written if it is the bare truth value, so it has to be shown that no predicate becomes
that (`Statement.filter_isAlways`): truth values in a query are parameters of the statement.
-/

namespace ChainQuery

/-! ## 1. Scopes of selections -/

namespace Sql

mutual
/-- **The selections that stand for scopes**: a selection, then those of what it selects from and
joins. -/
def Select.scopes : Select → List Select
  | ⟨list, source, joins, filter, orderBy⟩ =>
    ⟨list, source, joins, filter, orderBy⟩ ::
      ((match source with
        | none => []
        | some f => f.scopes)
        ++ Join.listScopes joins)

/-- The selections in what is selected from. -/
def From.scopes : From → List Select
  | .table _ _ => []
  | .derived select _ => select.scopes

/-- The selections in a join. -/
def Join.scopes : Join → List Select
  | .inner _ _ _ => []
  | .cross select _ => select.scopes

/-- The selections in joins. -/
def Join.listScopes : List Join → List Select
  | [] => []
  | j :: rest => j.scopes ++ Join.listScopes rest
end

theorem Select.scopes_eq {s : Select} {f : From} (h : s.source = some f) :
    s.scopes = s :: (f.scopes ++ Join.listScopes s.joins) := by
  obtain ⟨list, source, joins, filter, orderBy⟩ := s
  obtain rfl : source = some f := h
  rw [Select.scopes]

theorem Expr.wherePieces_ne_nil {filter : Expr} {predicate : List Piece} :
    filter.wherePieces predicate ≠ [] ↔ filter.isAlways = false := by
  unfold Expr.wherePieces
  cases filter.isAlways <;> simp

end Sql

/-! ## 2. What is seen of a scope -/

/-- **The operators of a scope are seen in its selection.** -/
structure Query.ShownBy (q : Query) (select : Sql.Select) : Prop where
  projections : q.projections.length ≤ 1
  filters : q.filters.length ≤ 1
  /-- A filter is written. -/
  wherePieces : select.filter.wherePieces select.filter.pieces ≠ [] ↔ q.filters ≠ []
  /-- What the chain ends in is joined; only tables under orderings are joined on keys, and no table
  with itself. -/
  joins : match q.base with
    | .table _ => select.joins = []
    | .join outer inner _ _ _ =>
      (∃ ref leftKey rightKey, select.joins = [.inner ref leftKey rightKey]) ∧
        ∃ left right, outer.orderedTable? = some left ∧ inner.orderedTable? = some right ∧
          left ≠ right
    | .crossJoin _ _ _ => ∃ side label, select.joins = [.cross side label]
    | _ => False

section Statement

variable {env : Env} {subqueries : Subqueries} {role : Role} {depth : Nat} {q : Query} {s : Statement}
  {select : Sql.Select} {lifted : List SortKey}

/-- What the outermost scopes bind is never a truth value. -/
theorem Statement.binder_not_bool (hs : s.Coupled (.onAll env) s)
    (source : Source) :
    (s.binder env subqueries none depth source).Binds fun n => ∀ v, n ≠ .bool v := by
  have hcomposed : ∀ n : Sql.Expr, n.isComposed = true → ∀ v, n ≠ .bool v := by
    rintro _ hn v rfl
    cases hn
  have hsub : subqueries.Yield fun n => ∀ v, n ≠ .bool v := by
    rintro _ _ _ _ _ _ _ ⟨⟩
  refine ⟨hcomposed, Frame.scope_binds hcomposed hsub ?_ (by rintro _ ⟨⟩) hs.layers, hsub⟩
  rintro owner member position e hcolumn v rfl
  obtain ⟨_, ⟨⟩⟩ := Source.exists_column_of_column? hcolumn

/-- **A filter is always written**: no predicate becomes the bare truth value. -/
theorem Statement.filter_isAlways (hs : s.Coupled (.onAll env) s)
    (h : (s.toSelect env subqueries none role depth).outcome = .ok (select, lifted)) :
    select.filter.isAlways = s.clauses.filter.isNone := by
  obtain ⟨ground, _, hparts⟩ := Statement.toSelect_eq_ok.mp h
  obtain ⟨_, _, filter, _, _, _, hfilter, _, rfl⟩ := Statement.assemble_eq_ok.mp hparts
  unfold Clauses.filterExpr at hfilter
  split at hfilter
  · rename_i p hp
    obtain ⟨_, _, hcoupled⟩ := hs.clauses.filter.exists_of_eq_some hp
    have hnodes := (Statement.binder_not_bool hs ground.source).gives hcoupled.body hfilter
    have hne : ∀ v, filter ≠ .bool v := hnodes.self
    rw [hp]
    change filter.isAlways = false
    unfold Sql.Expr.isAlways
    split
    · exact absurd rfl (hne true)
    · rfl
  · rename_i hnone
    cases hfilter
    rw [hnone]
    rfl

/-- **The operators of a scope are seen in the selection of its statement.** -/
theorem Statement.shownBy_select (hq : q.Gathers env {} s)
    (h : (s.toSelect env subqueries none role depth).outcome = .ok (select, lifted)) :
    q.ShownBy select := by
  have hs := hq.coupled_onAll
  refine ⟨hq.select_taken.length_le, hq.filter_taken.length_le, ?_, ?_⟩
  · rw [Sql.Expr.wherePieces_ne_nil, Statement.filter_isAlways hs h, Option.isNone_eq_false_iff,
      hq.filter_taken.isSome_iff]
  · obtain ⟨_, joins, _, hjoins, hfrom⟩ := Statement.selectsFrom_of_toSelect h
    cases hfrom with
    | table clauses rowType =>
      rw [hq.base_table]
      exact hjoins
    | join ref ref' leftKey rightKey =>
      obtain ⟨outer, inner, _, _, _, _, _, hbase, _, hleft, hright, _, hdiffer⟩ := hq.base_join
      rw [hbase]
      exact ⟨⟨_, _, _, hjoins⟩, _, _, hleft.orderedTable?, hright.orderedTable?, hdiffer⟩
    | crossJoin =>
      obtain ⟨source, collection, result, hbase, _⟩ := hq.base_crossJoin
      rw [hbase]
      exact ⟨_, _, hjoins⟩

/-- **The scopes of a query and those of its selection, one by one.** -/
theorem Statement.forall₂_shownBy (hq : q.Gathers env {} s)
    (h : (s.toSelect env subqueries none role depth).outcome = .ok (select, lifted)) :
    List.Forall₂ Query.ShownBy q.scopes select.scopes := by
  induction s generalizing q role depth select lifted with
  | table clauses rowType =>
    have hown := Statement.shownBy_select hq h
    obtain ⟨_, _, hclause, hjoins, hfrom⟩ := Statement.selectsFrom_of_toSelect h
    cases hfrom
    rw [Query.scopes, ← Query.innerScopes_base, hq.base_table, Sql.Select.scopes_eq hclause, hjoins]
    exact .cons hown .nil
  | join clauses left right outerKey innerKey result keys =>
    have hown := Statement.shownBy_select hq h
    obtain ⟨_, _, _, _, _, _, _, hbase, _⟩ := hq.base_join
    obtain ⟨_, _, hclause, hjoins, hfrom⟩ := Statement.selectsFrom_of_toSelect h
    cases hfrom
    rw [Query.scopes, ← Query.innerScopes_base, hbase, Sql.Select.scopes_eq hclause, hjoins]
    exact .cons hown .nil
  | crossJoin clauses left right leftRow rightRow result ihl ihr =>
    have hown := Statement.shownBy_select hq h
    obtain ⟨source, collection, _, hbase, _, _, _, hleft, hright⟩ := hq.base_crossJoin
    obtain ⟨_, _, hclause, hjoins, hfrom⟩ := Statement.selectsFrom_of_toSelect h
    cases hfrom with
    | @crossJoin _ _ _ _ _ _ leftSelect rightSelect _ _ hleftSelect hrightSelect =>
      have hsides : List.Forall₂ Query.ShownBy (source.scopes ++ collection.scopes)
          (leftSelect.scopes ++ rightSelect.scopes) :=
        List.rel_append (ihl hleft hleftSelect) (ihr hright hrightSelect)
      rw [Query.scopes, ← Query.innerScopes_base, hbase, Sql.Select.scopes_eq hclause, hjoins]
      refine .cons hown ?_
      change List.Forall₂ _ (source.scopes ++ collection.scopes) _
      simpa [Sql.From.scopes, Sql.Join.listScopes, Sql.Join.scopes] using hsides

end Statement

/-! ## 3. Queries -/

/-- **No operator is dropped.**  In a query that is compiled, no operator is called that no clause
stands for, and none ranges over groups.  There is a selection for each scope, and every operator of
the scope is seen in it: at most one projection and one filter, which is written if and only if it is
there, over a table, an equi-join of two different tables under orderings, or a cross join, of which
the last two are the only join of the selection. -/
theorem Query.shownBy_of_toSelect {env : Env} {q : Query} {select : Sql.Select}
    (h : (q.toSelect env).outcome = .ok select) :
    q.isSupported = true ∧ List.Forall₂ Query.ShownBy q.scopes select.scopes := by
  obtain ⟨s, lifted, hs, hselect⟩ := Query.toSelect_eq_ok.mp h
  have hq := Query.toStatement_eq_ok.mp hs
  exact ⟨hq.isSupported, Statement.forall₂_shownBy hq hselect⟩

/-- A filtered cross join of the cards of customers with the orders of a positive amount: three scopes,
of which the first and the last are filtered. -/
theorem Query.shownBy_of_toSelect_filtered :
    let env : Env := ⟨Shop.schema, {}⟩
    let c : Parameter := ⟨"c", .row "Customer"⟩
    let o : Parameter := ⟨"o", .row "Order"⟩
    let card : Parameter := ⟨"card", .record "Card" [("Label", .scalar .string)]⟩
    let cards := Query.select (.table "Customer") ⟨[c], .new card.type [("Label", Shop.field c "Name")]⟩
    let orders := Query.filter (.table "Order")
      ⟨[o], .binary .greaterThan (Shop.field o "Amount") (.constant (.int 0) (.scalar .int32))⟩
    let q := Query.filter
      (.crossJoin cards orders ⟨[card, o], card.member "Label" (.scalar .string)⟩)
      ⟨[o], .binary .notEqual (Shop.field o "CustomerId") (Shop.field o "Id")⟩
    ∃ select, (q.toSelect env).outcome = .ok select ∧
      q.scopes.map (fun scope => scope.filters.length) = [1, 0, 1] ∧
      select.scopes.map (fun scope => scope.joins.length) = [1, 0, 0] ∧
      q.isSupported = true ∧ List.Forall₂ Query.ShownBy q.scopes select.scopes := by
  intro env c o card cards orders q
  have hselect : (q.toSelect env).outcome = .ok _ := rfl
  exact ⟨_, hselect, rfl, rfl, Query.shownBy_of_toSelect hselect⟩

end ChainQuery
