import ChainQuery.Proofs.Compile.Orderings
/-!
# The scalars of a statement

A statement holds the scalars that its lambdas were read to (`Statement.scalars`), so what holds of all
of these holds of all of it (`Query.Gathers.forall_scalars`).  When it is compiled it binds some of them
(`Statement.bound`), the members of its records through its layers, and those of its sides; besides, it
binds columns that restate the orderings of its sides.  So what holds of all scalars of a statement and
of all columns holds of everything that it binds (`Statement.forall_bound`, `Statement.forall_layers`,
`Statement.forall_sides`).  And what holds of all that it binds holds of the expressions of its selection
(`Statement.forall_exprs_of_bound`).
-/

namespace ChainQuery

/-! ## 1. Statements -/

/-- The scalars of clauses. -/
def Clauses.scalars (clauses : Clauses) : List Scalar :=
  clauses.select.toList.flatMap Projection.scalars
    ++ clauses.filter.toList.flatMap Projection.scalars
    ++ clauses.orderings.map (·.sortKey.key)

/-- **The scalars of a statement**, those of its sides among them. -/
def Statement.scalars : Statement → List Scalar
  | .table clauses _ => clauses.scalars
  | .join clauses _ _ outerKey innerKey result lifted =>
    clauses.scalars ++ result.scalars ++ outerKey :: innerKey :: lifted.map SortKey.key
  | .crossJoin clauses left right _ _ result =>
    clauses.scalars ++ result.scalars ++ left.scalars ++ right.scalars

namespace Statement

/-- The statements that a statement selects from. -/
def sides : Statement → List Statement
  | .crossJoin _ left right _ _ _ => [left, right]
  | .table .. | .join .. => []

/-- **The scalars that a statement may bind itself**: the keys of its join, those of its projection and
of its result selector, its filter, and all keys that it orders by. -/
def bound (s : Statement) : List Scalar :=
  s.joinKeys ++ (s.clauses.select.toList ++ s.result?.toList).flatMap Projection.scalars
    ++ s.clauses.filter.toList.map Projection.body ++ s.sortKeys.map SortKey.key

theorem mem_bound_of_projection {s : Statement} {p : Projection}
    (hp : p ∈ s.clauses.select.toList ++ s.result?.toList) {x : Scalar} (hx : x ∈ p.scalars) :
    x ∈ s.bound := by
  have hmem : x ∈ (s.clauses.select.toList ++ s.result?.toList).flatMap Projection.scalars :=
    List.mem_flatMap.mpr ⟨p, hp, hx⟩
  exact List.mem_append_left _ (List.mem_append_left _ (List.mem_append_right _ hmem))

theorem mem_bound_of_columns {s : Statement} {x : Scalar}
    (h : x ∈ ((s.clauses.select <|> s.result?).map Projection.columns).getD []) : x ∈ s.bound := by
  obtain ⟨p, hp, hx⟩ := mem_scalars_of_columns h
  exact mem_bound_of_projection hp hx

end Statement

/-! ## 2. Where they come from -/

namespace Query

variable {env : Env} {P : Scalar → Prop}

/-- What holds of the scalars that lambdas are read to holds of the keys of an ordered table. -/
theorem JoinedAs.forall_keys {q : Query} {t : JoinedTable} {keys : List SortKey}
    (h : q.JoinedAs env t keys)
    (hread : ∀ l ∈ q.lambdas, ∀ ⦃arity p⦄, (l.read env arity).outcome = .ok p →
      ∀ x ∈ p.scalars, P x) : ∀ k ∈ keys, P k.key := by
  induction h with
  | table => simp
  | orderBy _ hordering _ ih =>
    obtain ⟨hkey, hsource⟩ := List.forall_mem_cons.mp hread
    refine List.forall_mem_append.mpr ⟨ih hsource, List.forall_mem_singleton.mpr ?_⟩
    obtain ⟨p, hp, h⟩ := Traced.bind_eq_ok.mp hordering
    cases h
    exact hkey hp _ List.mem_cons_self

/-- **What holds of the scalars that lambdas are read to holds of all scalars of a statement.** -/
theorem Gathers.forall_scalars {q : Query} {clauses : Clauses} {s : Statement}
    (h : q.Gathers env clauses s)
    (hread : ∀ l ∈ q.lambdas, ∀ ⦃arity p⦄, (l.read env arity).outcome = .ok p →
      ∀ x ∈ p.scalars, P x)
    (hclauses : ∀ x ∈ clauses.scalars, P x) : ∀ x ∈ s.scalars, P x := by
  induction h with
  | table => exact hclauses
  | select _ _ hp _ ih =>
    obtain ⟨hselector, hsource⟩ := List.forall_mem_cons.mp hread
    refine ih hsource ?_
    simp only [Clauses.scalars, List.forall_mem_append] at hclauses ⊢
    exact ⟨⟨by simpa using hselector hp, hclauses.1.2⟩, hclauses.2⟩
  | filter _ _ hp _ ih =>
    obtain ⟨hpredicate, hsource⟩ := List.forall_mem_cons.mp hread
    refine ih hsource ?_
    simp only [Clauses.scalars, List.forall_mem_append] at hclauses ⊢
    exact ⟨⟨hclauses.1.1, by simpa using hpredicate hp⟩, hclauses.2⟩
  | orderBy _ hordering _ ih =>
    obtain ⟨hkey, hsource⟩ := List.forall_mem_cons.mp hread
    obtain ⟨p, hp, h⟩ := Traced.bind_eq_ok.mp hordering
    cases h
    refine ih hsource ?_
    simp only [Clauses.scalars, List.forall_mem_append, List.map_cons, List.forall_mem_cons]
      at hclauses ⊢
    exact ⟨hclauses.1, hkey hp _ List.mem_cons_self, hclauses.2⟩
  | join houterKey hinnerKey hresult hleft hright =>
    obtain ⟨hothers, hinner⟩ := List.forall_mem_append.mp hread
    obtain ⟨hkeys, houter⟩ := List.forall_mem_append.mp hothers
    obtain ⟨houterRead, hkeys⟩ := List.forall_mem_cons.mp hkeys
    obtain ⟨hinnerRead, hkeys⟩ := List.forall_mem_cons.mp hkeys
    have hresultRead := List.forall_mem_singleton.mp hkeys
    have hleftKeys := (joinedAs_of_toJoinedTable_empty hleft).forall_keys houter
    have hrightKeys := (joinedAs_of_toJoinedTable_empty hright).forall_keys hinner
    refine List.forall_mem_append.mpr ⟨List.forall_mem_append.mpr
      ⟨hclauses, hresultRead hresult⟩, List.forall_mem_cons.mpr ⟨?_, List.forall_mem_cons.mpr ⟨?_,
        List.forall_mem_map.mpr (List.forall_mem_append.mpr ⟨hleftKeys, hrightKeys⟩)⟩⟩⟩
    · exact houterRead houterKey _ List.mem_cons_self
    · exact hinnerRead hinnerKey _ List.mem_cons_self
  | crossJoin hresult _ _ _ _ ihl ihr =>
    obtain ⟨hothers, hcollection⟩ := List.forall_mem_append.mp hread
    obtain ⟨hresultRead, hsource⟩ := List.forall_mem_cons.mp hothers
    have hempty : ∀ x ∈ Clauses.scalars {}, P x := by simp [Clauses.scalars]
    exact List.forall_mem_append.mpr ⟨List.forall_mem_append.mpr ⟨List.forall_mem_append.mpr
      ⟨hclauses, hresultRead hresult⟩, ihl hsource hempty⟩, ihr hcollection hempty⟩

theorem forall_scalars_of_toStatement {q : Query} {s : Statement}
    (h : (q.toStatement env).outcome = .ok s)
    (hread : ∀ l ∈ q.lambdas, ∀ ⦃arity p⦄, (l.read env arity).outcome = .ok p →
      ∀ x ∈ p.scalars, P x) : ∀ x ∈ s.scalars, P x :=
  (Query.toStatement_eq_ok.mp h).forall_scalars hread (by simp [Clauses.scalars])

end Query

/-! ## 3. What is bound -/

namespace Statement

variable {P : Scalar → Prop} {s : Statement}

theorem forall_sortKeys (hcolumn : ∀ token, P (.column token)) (h : ∀ x ∈ s.scalars, P x) :
    ∀ k ∈ s.sortKeys, P k.key := by
  -- a key that is handed on is a column of the record, or stays as it is
  have hlift : ∀ (select : Option Projection) {keys : List SortKey}, (∀ k ∈ keys, P k.key) →
      ∀ k ∈ keys.map (SortKey.handedOn select), P k.key := by
    intro select keys hkeys
    refine List.forall_mem_map.mpr fun k hk => ?_
    unfold SortKey.handedOn SortKey.lift
    split
    · split
      · exact hcolumn _
      · exact hkeys k hk
    · exact hkeys k hk
  have hown : ∀ {clauses : Clauses}, (∀ x ∈ clauses.scalars, P x) →
      ∀ k ∈ clauses.orderings.map OrderingClause.sortKey, P k.key := by
    intro clauses hclauses
    refine List.forall_mem_map.mpr fun o ho => ?_
    exact hclauses _ (List.mem_append_right _ (List.mem_map_of_mem ho))
  induction s with
  | table clauses rowType => exact hown h
  | join clauses left right outerKey innerKey result lifted =>
    obtain ⟨hclauses, hkeys⟩ := List.forall_mem_append.mp h
    obtain ⟨_, hkeys⟩ := List.forall_mem_cons.mp hkeys
    obtain ⟨_, hlifted⟩ := List.forall_mem_cons.mp hkeys
    exact List.forall_mem_append.mpr
      ⟨List.forall_mem_map.mp hlifted, hown (List.forall_mem_append.mp hclauses).1⟩
  | crossJoin clauses left right leftRow rightRow result ihl ihr =>
    obtain ⟨hothers, hright⟩ := List.forall_mem_append.mp h
    obtain ⟨hothers, hleft⟩ := List.forall_mem_append.mp hothers
    refine List.forall_mem_append.mpr ⟨List.forall_mem_append.mpr ⟨?_, ?_⟩,
      hown (List.forall_mem_append.mp hothers).1⟩
    · exact hlift _ (ihl hleft)
    · exact hlift _ (ihr hright)

theorem forall_clauses (h : ∀ x ∈ s.scalars, P x) :
    (∀ x ∈ s.clauses.scalars, P x) ∧ ∀ p, s.result? = some p → ∀ x ∈ p.scalars, P x := by
  cases s with
  | table clauses rowType => exact ⟨h, by rintro _ ⟨⟩⟩
  | join clauses left right outerKey innerKey result lifted =>
    obtain ⟨hclauses, hresult⟩ := List.forall_mem_append.mp (List.forall_mem_append.mp h).1
    exact ⟨hclauses, by rintro _ ⟨⟩; exact hresult⟩
  | crossJoin clauses left right leftRow rightRow result =>
    obtain ⟨hclauses, hresult⟩ := List.forall_mem_append.mp
      (List.forall_mem_append.mp (List.forall_mem_append.mp h).1).1
    exact ⟨hclauses, by rintro _ ⟨⟩; exact hresult⟩

theorem forall_projections (h : ∀ x ∈ s.scalars, P x) :
    ∀ p ∈ s.clauses.select.toList ++ s.result?.toList, ∀ x ∈ p.scalars, P x := by
  obtain ⟨hclauses, hresult⟩ := forall_clauses h
  refine List.forall_mem_append.mpr ⟨fun p hp x hx => ?_, fun p hp => ?_⟩
  · refine hclauses x (List.mem_append_left _ (List.mem_append_left _ ?_))
    exact List.mem_flatMap.mpr ⟨p, hp, hx⟩
  · exact hresult p (by simpa using hp)

/-- **What holds of the scalars of a statement and of columns holds of all that it binds.** -/
theorem forall_bound (hcolumn : ∀ token, P (.column token)) (h : ∀ x ∈ s.scalars, P x) :
    ∀ x ∈ s.bound, P x := by
  have hfilter : ∀ p ∈ s.clauses.filter.toList, P p.body := fun p hp =>
    (forall_clauses h).1 _ (List.mem_append_left _ (List.mem_append_right _
      (List.mem_flatMap.mpr ⟨p, hp, List.mem_cons_self⟩)))
  have hjoin : ∀ x ∈ s.joinKeys, P x := by
    cases s with
    | table | crossJoin => simp [joinKeys]
    | join clauses left right outerKey innerKey result lifted =>
      obtain ⟨houter, hkeys⟩ := List.forall_mem_cons.mp (List.forall_mem_append.mp h).2
      obtain ⟨hinner, _⟩ := List.forall_mem_cons.mp hkeys
      simpa [joinKeys] using ⟨houter, hinner⟩
  refine List.forall_mem_append.mpr ⟨List.forall_mem_append.mpr ⟨List.forall_mem_append.mpr
    ⟨hjoin, ?_⟩, List.forall_mem_map.mpr hfilter⟩,
      List.forall_mem_map.mpr (forall_sortKeys hcolumn h)⟩
  intro x hx
  obtain ⟨p, hp, hx⟩ := List.mem_flatMap.mp hx
  exact forall_projections h p hp x hx

/-- What holds of the scalars of a statement holds of the members of its records. -/
theorem forall_layers (h : ∀ x ∈ s.scalars, P x) : ∀ layer ∈ s.layers, ∀ a ∈ layer, P a.2 := by
  refine List.forall_mem_map.mpr fun p hp a ha => ?_
  exact forall_projections h p hp _ (List.mem_append_right _ (List.mem_map_of_mem ha))

theorem forall_sides (h : ∀ x ∈ s.scalars, P x) : ∀ t ∈ s.sides, ∀ x ∈ t.scalars, P x := by
  cases s with
  | table | join => simp [sides]
  | crossJoin clauses left right leftRow rightRow result =>
    obtain ⟨hothers, hright⟩ := List.forall_mem_append.mp h
    exact List.forall_mem_cons.mpr ⟨(List.forall_mem_append.mp hothers).2,
      List.forall_mem_singleton.mpr hright⟩

/-! ## 4. Where the members of records come from -/

/-- The members of the records that a statement builds, those of its sides among them. -/
def aliases : Statement → Aliases
  | .table clauses _ => clauses.select.toList.flatMap Projection.aliases
  | .join clauses _ _ _ _ result _ =>
    clauses.select.toList.flatMap Projection.aliases ++ result.aliases
  | .crossJoin clauses left right _ _ result =>
    clauses.select.toList.flatMap Projection.aliases ++ result.aliases ++ left.aliases ++ right.aliases

theorem mem_aliases_of_layers {layer : Aliases} (hlayer : layer ∈ s.layers) {a : (Ty × String) × Scalar}
    (ha : a ∈ layer) : a ∈ s.aliases := by
  obtain ⟨p, hp, rfl⟩ := List.mem_map.mp hlayer
  rcases List.mem_append.mp hp with hselect | hresult
  · have hmem : a ∈ s.clauses.select.toList.flatMap Projection.aliases :=
      List.mem_flatMap.mpr ⟨p, hselect, ha⟩
    cases s with
    | table => exact hmem
    | join => exact List.mem_append_left _ hmem
    | crossJoin =>
      exact List.mem_append_left _ (List.mem_append_left _ (List.mem_append_left _ hmem))
  · have hresult : s.result? = some p := by simpa using hresult
    cases s with
    | table => cases hresult
    | join =>
      cases hresult
      exact List.mem_append_right _ ha
    | crossJoin =>
      cases hresult
      exact List.mem_append_left _ (List.mem_append_left _ (List.mem_append_right _ ha))

theorem aliases_side_subset {t : Statement} (ht : t ∈ s.sides) : t.aliases ⊆ s.aliases := by
  cases s with
  | table | join => cases ht
  | crossJoin =>
    simp only [sides, List.mem_cons, List.not_mem_nil, or_false] at ht
    rcases ht with rfl | rfl
    · exact List.subset_append_of_subset_left _ (List.subset_append_right _ _)
    · exact List.subset_append_right _ _

end Statement

/-- **What holds of the members that lambdas record holds of all members of records of a statement.** -/
theorem Query.Gathers.forall_aliases {env : Env} {P : (Ty × String) × Scalar → Prop} {q : Query}
    {clauses : Clauses} {s : Statement} (h : q.Gathers env clauses s)
    (hread : ∀ l ∈ q.lambdas, ∀ ⦃arity p⦄, (l.read env arity).outcome = .ok p → ∀ a ∈ p.aliases, P a)
    (hclauses : ∀ p, clauses.select = some p → ∀ a ∈ p.aliases, P a) : ∀ a ∈ s.aliases, P a := by
  have hown : ∀ {clauses : Clauses}, (∀ p, clauses.select = some p → ∀ a ∈ p.aliases, P a) →
      ∀ a ∈ clauses.select.toList.flatMap Projection.aliases, P a := by
    intro clauses hclauses a ha
    obtain ⟨p, hp, ha⟩ := List.mem_flatMap.mp ha
    exact hclauses p (by simpa using hp) a ha
  have hempty : ∀ p, Clauses.select {} = some p → ∀ a ∈ p.aliases, P a := by rintro _ ⟨⟩
  induction h with
  | table => exact hown hclauses
  | select _ _ hp _ ih =>
    obtain ⟨hselector, hsource⟩ := List.forall_mem_cons.mp hread
    exact ih hsource (by rintro _ ⟨⟩; exact hselector hp)
  | filter _ _ _ _ ih => exact ih (List.forall_mem_cons.mp hread).2 hclauses
  | orderBy _ _ _ ih => exact ih (List.forall_mem_cons.mp hread).2 hclauses
  | join _ _ hresult =>
    exact List.forall_mem_append.mpr ⟨hown hclauses, hread _ (by simp [lambdas]) hresult⟩
  | crossJoin hresult _ _ _ _ ihl ihr =>
    obtain ⟨hothers, hcollection⟩ := List.forall_mem_append.mp hread
    obtain ⟨hresultRead, hsource⟩ := List.forall_mem_cons.mp hothers
    exact List.forall_mem_append.mpr ⟨List.forall_mem_append.mpr ⟨List.forall_mem_append.mpr
      ⟨hown hclauses, hresultRead hresult⟩, ihl hsource hempty⟩, ihr hcollection hempty⟩

namespace Statement

/-! ## 5. What is selected -/

/-- **What holds of all that a statement binds holds of the expressions of its selection**, if it holds of
those that no scalar stands for. -/
theorem forall_exprs_of_bound {s : Statement} {P : Sql.Expr → Prop} {env : Env} {subqueries : Subqueries}
    {outer : Option Scope} {role : Role} {depth : Nat} {ground : Ground} {select : Sql.Select}
    {lifted : List SortKey} (hground : (s.ground env subqueries outer depth).outcome = .ok ground)
    (hbound : ∀ x ∈ s.bound, (s.binder env subqueries outer depth ground.source).Gives P x)
    (haggregate : ∀ a e, P e → P (Aggregate.toSql e a)) (hcount : P .countAll)
    (halways : P .always) (hbare : ∀ name, P (.bareColumn name))
    (h : (s.assemble env subqueries outer role depth ground).outcome = .ok (select, lifted)) :
    ∀ e ∈ select.exprs, P e := by
  refine forall_exprs hground rfl (fun x hx => hbound x ?_)
    (fun p hp x hx => hbound x (mem_bound_of_projection hp hx)) (fun p hp => hbound p.body ?_)
    (fun k hk => hbound k.key ?_) haggregate hcount halways (fun _ => hbare) h
  · exact List.mem_append_left _ (List.mem_append_left _ (List.mem_append_left _ hx))
  · refine List.mem_append_left _ (List.mem_append_right _ ?_)
    simp [hp]
  · rw [ground_lifted_append hground] at hk
    exact List.mem_append_right _ (List.mem_map_of_mem hk)

end Statement

end ChainQuery
