import ChainQuery.Proofs.Compile.Chains
import ChainQuery.Proofs.Compile.Nodes
/-!
# Scope by scope

A compiled selection has a derived table for every side of a cross join, and these are the only
selections in it that can join or order anything.  So a property that plain selections have holds
everywhere in it if it holds of the selection of each scope of the query.

`Statement.everywhere_iff_scopes` says so: if it is known what the property comes to for one chain of
operators (`own`), then the whole selection has it everywhere if and only if that is the case for
the outermost scope and for each side of a cross join.
-/

namespace ChainQuery

variable {env : Env} {levels : Nat}

/-- **What a property of selections comes to for the scopes of a query.**  `P` is one that plain
selections have, and `own role scope` is what it comes to for a chain of operators that is compiled
for that role. -/
theorem Statement.everywhere_iff_scopes {P : Sql.Select → Prop} (own : Role → Query → Prop)
    (hplain : ∀ t : Sql.Select, t.IsPlain → P t)
    (hown : ∀ {role : Role} {depth : Nat} {q : Query} {s : Statement} {select : Sql.Select}
      {lifted : List SortKey}, role = .root ∨ role = .crossJoinSource → q.Gathers env {} s →
      (s.toSelect env (Correlated.toSelect env levels) none role depth).outcome
        = .ok (select, lifted) → (P select ↔ own role q))
    {role : Role} {depth : Nat} {q : Query} {s : Statement} {select : Sql.Select}
    {lifted : List SortKey} (hrole : role = .root ∨ role = .crossJoinSource)
    (hq : q.Gathers env {} s)
    (h : (s.toSelect env (Correlated.toSelect env levels) none role depth).outcome
      = .ok (select, lifted)) :
    select.Everywhere P ↔ own role q ∧ ∀ scope ∈ q.innerScopes, own .crossJoinSource scope := by
  induction s generalizing q role depth select lifted with
  | table clauses rowType =>
    obtain ⟨_, _, hclause, hjoins, hfrom⟩ := Statement.selectsFrom_of_toSelect h
    cases hfrom
    rw [Statement.everywhere_toSelect_iff hplain hq.coupled_onAll h, hown hrole hq h,
      ← Query.innerScopes_base, hq.base_table]
    simp [Sql.Select.derived, hclause, hjoins, Sql.From.derived?, Query.innerScopes]
  | join clauses left right outerKey innerKey result keys =>
    obtain ⟨_, _, _, _, _, _, _, hbase, _⟩ := hq.base_join
    obtain ⟨_, _, hclause, hjoins, hfrom⟩ := Statement.selectsFrom_of_toSelect h
    cases hfrom
    rw [Statement.everywhere_toSelect_iff hplain hq.coupled_onAll h, hown hrole hq h,
      ← Query.innerScopes_base, hbase]
    simp [Sql.Select.derived, hclause, hjoins, Sql.From.derived?, Sql.Join.derived?,
      Query.innerScopes]
  | crossJoin clauses left right leftRow rightRow result ihl ihr =>
    obtain ⟨source, collection, _, hbase, _, _, _, hleft, hright⟩ := hq.base_crossJoin
    obtain ⟨_, _, hclause, hjoins, hfrom⟩ := Statement.selectsFrom_of_toSelect h
    cases hfrom with
    | crossJoin hleftSelect hrightSelect =>
      rw [Statement.everywhere_toSelect_iff hplain hq.coupled_onAll h, hown hrole hq h,
        ← Query.innerScopes_base, hbase]
      simp only [Query.innerScopes, List.forall_mem_append, List.forall_mem_cons]
      -- the derived tables are the selections of the two sides, which are scopes of their own
      rw [← ihl (Or.inr rfl) hleft hleftSelect, ← ihr (Or.inr rfl) hright hrightSelect]
      simp [Sql.Select.derived, hclause, hjoins, Sql.From.derived?, Sql.Join.derived?]

end ChainQuery
