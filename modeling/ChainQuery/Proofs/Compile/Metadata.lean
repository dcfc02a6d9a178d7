import ChainQuery.Compile.Plan
import ChainQuery.Proofs.Compile.Correlation
import ChainQuery.Proofs.Compile.ReadingLaws
import ChainQuery.Proofs.Compile.Scalars
import ChainQuery.Proofs.Compile.Selection
import ChainQuery.Proofs.Compile.Unbounded
import ChainQuery.Proofs.Coupling.Gathering
import ChainQuery.Proofs.Query.RowNames
import ChainQuery.Schema.Shop
/-!
# Validated metadata is enough

If a schema that can be relied on (`Schema.Valid`) has all that a query names (`Query.Covered`), then
the compiler finds everything that it looks up (`Query.compile_ne_missingMetadata`).

The look-ups are of two kinds.  An aggregate asks for a navigation, which the query names, and from
there for the foreign key back and for the columns of both keys, which validation has checked
(`Correlated.ofCall_supplied`).  All others ask for a row type: that of a table, or the type of the rows
of a statement (`Statement.Covered`).

An aggregate becomes a query of its own, which names no more than the aggregate and the type that its
navigation leads to (`Correlated.covered_query`).  So the aggregates that a statement of a covered query
holds are covered again (`Query.holdsCovered_of_toStatement`), and the rest is an induction on how deep
they are nested.
-/

namespace ChainQuery

variable {env : Env}

/-! ## 1. Aggregates -/

namespace Correlated

variable {schema : Schema} {args : List Expr}

/-- **The query of an aggregate is covered if its arguments are.** -/
theorem covered_query {text : String} {a : Aggregate} {c : Correlated}
    (hargs : ∀ arg ∈ args, arg.Covered schema) (h : (ofCall schema text a args).outcome = .ok c) :
    c.query.Covered schema := by
  obtain ⟨k, predicate, projection, nested, hclauses, rfl⟩ := ofCall_eq_ok.mp h
  have hchild : schema.Registers k.navigation.childName :=
    ⟨_, Schema.rowType_eq_ok.mpr k.navigation.child_eq⟩
  have hselector : ∀ l, k.selector = some l → l.Covered schema := by
    intro l hl
    obtain ⟨hparams, _, hbody⟩ := Expr.covered_iff.mp (hargs _ (k.selector_mem hl))
    exact ⟨fun p hp => hparams p.type (List.mem_map_of_mem hp), hbody _ List.mem_cons_self⟩
  -- the row is the parameter of the selector, or one of the type that the navigation leads to
  have hrow : k.row.type.Covered schema := by
    unfold Call.row
    cases hl : k.selector with
    | none => simpa using hchild
    | some l =>
      obtain ⟨p, hp⟩ := List.length_eq_one_iff.mp (k.arity l hl)
      simpa [hp] using (hselector l hl).params
  have hparameter : k.row.reference.Covered schema :=
    Expr.covered_iff.mpr ⟨by simpa [Parameter.reference, Expr.ownTypes] using hrow,
      by simp [Parameter.reference, Expr.ownNavigations], by simp [Parameter.reference, Expr.children]⟩
  have hmember : ∀ {object : Expr} {name : String} {t : ScalarType}, object.Covered schema →
      (Expr.member object name (.scalar t)).Covered schema := by
    intro object name t hobject
    exact Expr.covered_iff.mpr ⟨by simp [Expr.ownTypes], by simp [Expr.ownNavigations],
      by simpa [Expr.children] using hobject⟩
  have hreference : k.reference.Covered schema := hmember hparameter
  have hkey : k.key.Covered schema := hmember ((hargs _ k.collection_mem).child List.mem_cons_self)
  have hbinary : ∀ {op : BinaryOp} {left right : Expr}, left.Covered schema → right.Covered schema →
      (Expr.binary op left right).Covered schema := by
    intro op left right hleft hright
    exact Expr.covered_iff.mpr ⟨by simp [Expr.ownTypes], by simp [Expr.ownNavigations],
      by simpa [Expr.children] using ⟨hleft, hright⟩⟩
  have hpair : ∀ body : Expr, body.Covered schema →
      (Expr.record "KeyValuePair" [("Key", k.reference), ("Value", body)]).Covered schema := by
    intro body hbody
    refine Expr.covered_iff.mpr ⟨?_, by simp [Expr.record, Expr.ownNavigations],
      by simpa [Expr.record, Expr.children] using ⟨hreference, hbody⟩⟩
    have htype : ∀ name ∈ body.type.rowNames, schema.Registers name := hbody.type
    simpa [Expr.record, Expr.ownTypes, Ty.Covered, Ty.rowNames, Ty.fieldRowNames, Call.reference,
      Parameter.member, Expr.type] using htype
  obtain ⟨hpredicate, hprojection⟩ := clauses_parts hclauses (hbinary hreference hkey) hparameter
    (fun l hl => (hselector l hl).body) (fun _ hbody => hbinary (hbinary hreference hkey) hbody) hpair
  have hparams : ∀ p ∈ projection.params, p.type.Covered schema := by
    rcases params_of_clauses hclauses with hparams | hl
    · rw [hparams]
      simpa using hrow
    · exact (hselector _ hl).params
  constructor
  · simp only [Call.query, Query.tables]
    split
    · simp
    · simpa using hchild
  · simpa [Call.query, Query.lambdas] using
      ⟨⟨hparams, hprojection⟩, ⟨by simpa using hrow, hpredicate⟩⟩

/-- **All that an aggregate looks up is there**, if its navigation is. -/
theorem ofCall_supplied (hs : schema.Valid) (text : String) (a : Aggregate)
    (hnavigation : ∀ source rest, args = source :: rest → ∀ n, source.traversal? = some n →
      schema.navigation n.parent n.member = .ok n.child) :
    (ofCall schema text a args).Supplied := by
  have hclauses : ∀ {row : Parameter} {reference correlation : Expr} {selector : Option Lambda},
      Traced.Supplied (liftM (clauses text a row reference correlation selector)) := by
    intro row reference correlation selector e he
    have he : clauses text a row reference correlation selector = .error e := he
    unfold clauses at he
    split at he
    · cases he
    · cases he
    · cases he
      rfl
    · split at he
      · cases he
      · cases he
  unfold ofCall
  dsimp only
  split
  · exact .throw rfl
  · rename_i object member type selector hargs
    split
    · rename_i child parent hchild hparent
      split
      · exact .throw rfl
      · -- the navigation leads to the declared type, and validation has checked the rest
        have hfirst : ∃ rest, args = .member object member type :: rest := by
          unfold arguments? at hargs
          split at hargs
          · cases hargs
            exact ⟨_, rfl⟩
          · cases hargs
            exact ⟨_, rfl⟩
          · cases hargs
        obtain ⟨rest, hfirst⟩ := hfirst
        have hfound : schema.navigation parent member = .ok child :=
          hnavigation _ rest hfirst ⟨parent, member, child⟩ (by
            simp [Expr.traversal?, hparent, hchild])
        obtain ⟨info, hinfo, hmember⟩ := Schema.navigation_eq_ok.mp hfound
        obtain ⟨n, rfl, rfl, rfl, rfl⟩ := hs.exists_navigation hinfo hmember
        have hforeignKey := Schema.foreignKey_eq_ok.mpr ⟨_, n.child_eq, n.foreignKey_eq⟩
        have hreference := Schema.columnType_eq_ok.mpr ⟨_, _, n.child_eq, n.reference_eq, rfl⟩
        have hkey := Schema.columnType_eq_ok.mpr ⟨_, _, n.parent_eq, n.key_eq, rfl⟩
        refine Traced.Supplied.bind (.of_ok rfl) fun _ _ => ?_
        refine Traced.Supplied.bind (.of_ok hfound) fun target htarget => ?_
        obtain rfl := Except.ok.inj (hfound.symm.trans htarget)
        rw [if_neg (by simp)]
        refine Traced.Supplied.bind (.of_ok hforeignKey) fun foreignKey hforeignKey' => ?_
        obtain rfl := Except.ok.inj (hforeignKey.symm.trans hforeignKey')
        refine Traced.Supplied.bind (.of_ok (Schema.rowType_eq_ok.mpr n.parent_eq)) fun found hfound => ?_
        obtain rfl := Except.ok.inj ((Schema.rowType_eq_ok.mpr n.parent_eq).symm.trans hfound)
        split
        · exact .throw rfl
        · refine Traced.Supplied.bind (.of_ok hreference) fun _ _ => ?_
          refine Traced.Supplied.bind (.of_ok hkey) fun _ _ => ?_
          exact Traced.Supplied.bind hclauses fun _ _ => .pure _
    · exact .throw rfl
  · exact .throw rfl

end Correlated

/-! ## 2. Reading -/

/-- A computation that finds all metadata that it asks for, whatever has been recorded before. -/
def ReadM.Supplied (α : Type) (m : ReadM α) : Prop := ∀ r, (m.run r).Supplied

theorem ReadM.supplied_law : ReadM.Law ReadM.Supplied where
  pure a := fun r => .pure (a, r)
  throw h := fun _ => .throw h
  lift hx := fun r => hx.bind fun a _ => .pure (a, r)
  bind := by
    intro α β m f hm hf r
    rw [StateT.run_bind]
    exact (hm r).bind fun a _ => hf a.1 a.2
  record s := fun _ => .of_ok rfl

/-- **Reading an expression that is covered finds all metadata.** -/
theorem Expr.toScalar_supplied (hs : env.schema.Valid) {e : Expr} (he : e.Covered env.schema) :
    ReadM.Supplied Scalar (e.toScalar env) := by
  refine toScalar_law ReadM.supplied_law (fun _ _ he hc => he.child hc) ?_ he fun _ _ _ _ => .of_ok rfl
  rintro a receiver args t hcall
  refine ReadM.supplied_law.lift (Correlated.ofCall_supplied hs _ a ?_)
  rintro source rest rfl n hn
  refine (covered_iff.mp hcall).2.1 n ?_
  rw [ownNavigations, Option.mem_toList]
  exact hn

namespace Lambda

theorem read_supplied (hs : env.schema.Valid) {l : Lambda} (hl : l.Covered env.schema)
    (arity : Nat) : (l.read env arity).Supplied := by
  unfold read
  split
  · exact .throw rfl
  · split
    · exact .throw rfl
    · exact (l.body.toScalar_supplied hs hl.body {}).bind fun _ _ => .pure _

theorem readOrdering_supplied (hs : env.schema.Valid) {l : Lambda} (hl : l.Covered env.schema)
    (kind : OrderingKind) : (l.readOrdering env kind).Supplied :=
  (read_supplied hs hl 1).bind fun _ _ => .pure _

/-- The rows and the results of a lambda that is covered are of types that are. -/
theorem Covered.read {s : Schema} {l : Lambda} (hl : l.Covered s) {arity : Nat} {p : Projection}
    (h : (l.read env arity).outcome = .ok p) :
    p.parameterType.Covered s ∧ p.returnType.Covered s := by
  obtain ⟨first, rest, _, _, hparams, _, _, rfl⟩ := Lambda.read_eq_ok.mp h
  exact ⟨hl.params first (by simp [hparams]), hl.body.type⟩

end Lambda

/-! ## 3. Gathering -/

theorem Clauses.check_supplied (clauses : Clauses) : clauses.check.Supplied := by
  unfold Clauses.check
  split
  · exact .pure ()
  · exact .throw rfl

theorem Schema.rowType_supplied {s : Schema} {name : String} (h : s.Registers name) :
    (liftM (s.rowType name) : Traced RowType).Supplied := by
  obtain ⟨info, hinfo⟩ := h
  exact .of_ok hinfo

namespace Query

/-- The row type of a table under orderings is one that the query names. -/
theorem JoinedAs.rowType_mem {q : Query} {t : JoinedTable} {keys : List SortKey}
    (h : q.JoinedAs env t keys) : t.rowType ∈ q.tables := by
  induction h with
  | table hname => simp [tables, hname]
  | orderBy _ _ _ ih => exact ih

theorem toJoinedTable_supplied (hs : env.schema.Valid) {q : Query} (hq : q.Covered env.schema)
    (clauses : Clauses) : (q.toJoinedTable env clauses).Supplied := by
  induction q generalizing clauses with
  | table rowType =>
    rw [toJoinedTable]
    split
    · exact .throw rfl
    · rename_i hname
      have hregistered := hq.tables rowType (by simp [tables, hname])
      exact (Schema.rowType_supplied hregistered).bind fun _ _ =>
        clauses.check_supplied.bind fun _ _ => Traced.Supplied.bind (.of_ok rfl) fun _ _ => .pure _
  | orderBy source key kind ih =>
    obtain ⟨hsource, hkey⟩ := covered_orderBy.mp hq
    rw [toJoinedTable]
    split
    · exact ih hsource _
    · exact (key.readOrdering_supplied hs hkey kind).bind fun _ _ => ih hsource _
  | select | filter | join | crossJoin | call => exact .throw rfl

/-- **Gathering a query that is covered finds all metadata.** -/
theorem gather_supplied (hs : env.schema.Valid) {q : Query} (hq : q.Covered env.schema)
    (clauses : Clauses) : (q.gather env clauses).Supplied := by
  induction q generalizing clauses with
  | table rowType =>
    rw [gather]
    split
    · exact .throw rfl
    · rename_i hname
      have hregistered := hq.tables rowType (by simp [tables, hname])
      exact (Schema.rowType_supplied hregistered).bind fun _ _ => .pure _
  | select source l ih =>
    obtain ⟨hsource, hl⟩ := covered_select.mp hq
    rw [gather]
    split
    · exact ih hsource _
    · split
      · exact .throw rfl
      · exact (l.read_supplied hs hl 1).bind fun _ _ =>
          Traced.Supplied.bind (.of_ok rfl) fun _ _ => ih hsource _
  | filter source l ih =>
    obtain ⟨hsource, hl⟩ := covered_filter.mp hq
    rw [gather]
    split
    · exact ih hsource _
    · split
      · exact .throw rfl
      · exact (l.read_supplied hs hl 1).bind fun _ _ => ih hsource _
  | orderBy source l kind ih =>
    obtain ⟨hsource, hl⟩ := covered_orderBy.mp hq
    rw [gather]
    split
    · exact ih hsource _
    · exact (l.readOrdering_supplied hs hl kind).bind fun _ _ => ih hsource _
  | join outer inner outerKey innerKey result =>
    obtain ⟨houter, hinner, houterKey, hinnerKey, hresult⟩ := covered_join.mp hq
    refine (outerKey.read_supplied hs houterKey 1).bind fun _ _ => ?_
    refine (innerKey.read_supplied hs hinnerKey 1).bind fun _ _ => ?_
    refine (result.read_supplied hs hresult 2).bind fun _ _ => ?_
    refine (toJoinedTable_supplied hs houter {}).bind fun _ _ => ?_
    refine (toJoinedTable_supplied hs hinner {}).bind fun _ _ => ?_
    dsimp only
    split
    · exact .of_error rfl rfl
    · exact .pure _
  | crossJoin source collection result ihl ihr =>
    obtain ⟨hsource, hcollection, hresult⟩ := covered_crossJoin.mp hq
    rw [gather]
    cases hrows : result.rowTypes with | mk leftRow rightRow
    refine (result.read_supplied hs hresult 2).bind fun _ _ => ?_
    refine Traced.Supplied.bind (.of_ok rfl) fun _ _ => ?_
    dsimp only
    split
    · exact .of_error rfl rfl
    · refine (ihl hsource {}).bind fun left _ => ?_
      refine (left.clauses.check_supplied.bind fun _ _ => .pure left).bind fun _ _ => ?_
      refine (ihr hcollection {}).bind fun right _ => ?_
      exact (right.clauses.check_supplied.bind fun _ _ => .pure right).bind fun _ _ => .pure _
  | call method source args ih => exact ih ⟨hq.tables, hq.lambdas⟩ _

theorem toStatement_supplied (hs : env.schema.Valid) {q : Query} (hq : q.Covered env.schema) :
    (q.toStatement env).Supplied :=
  (gather_supplied hs hq {}).bind fun s _ => s.clauses.check_supplied.bind fun _ _ => .pure s

end Query

/-! ## 4. Statements -/

/-- The types that the rows of a statement may have by its clauses. -/
def Clauses.rowTypes (clauses : Clauses) : List Ty :=
  (clauses.select.map Projection.returnType).toList
    ++ (clauses.filter.map Projection.parameterType).toList
    ++ clauses.orderings.map OrderingClause.parameterType

/-- **A schema has the tables of a statement and the types of its rows.** -/
def Statement.Covered (s : Schema) : Statement → Prop
  | .table clauses rowType => (∀ t ∈ clauses.rowTypes, t.Covered s) ∧ s.Registers rowType
  | .join clauses left right _ _ result _ =>
    (∀ t ∈ result.returnType :: clauses.rowTypes, t.Covered s) ∧
      s.Registers left.rowType ∧ s.Registers right.rowType
  | .crossJoin clauses left right _ _ result =>
    (∀ t ∈ result.returnType :: clauses.rowTypes, t.Covered s) ∧ left.Covered s ∧ right.Covered s

theorem eq_some_of_orElse {α : Type} {x y : Option α} {a : α} (h : (x <|> y) = some a) :
    x = some a ∨ y = some a := by
  cases x with
  | none => exact Or.inr h
  | some b => exact Or.inl h

/-- The rows of a statement that is covered are of a type that is. -/
theorem Statement.Covered.projectionType {s : Schema} {statement : Statement} {role : Role} {t : Ty}
    (h : statement.Covered s) (ht : statement.projectionType? role = some t) : t.Covered s := by
  have hclauses : ∀ u ∈ statement.clauses.rowTypes, u.Covered s := by
    cases statement with
    | table => exact h.1
    | join | crossJoin => exact (List.forall_mem_cons.mp h.1).2
  have hresult : ∀ p, statement.result? = some p → p.returnType.Covered s := by
    rintro p hp
    cases statement with
    | table => cases hp
    | join | crossJoin =>
      cases hp
      exact (List.forall_mem_cons.mp h.1).1
  have htable : ∀ rowType, statement.rowType? = some rowType → s.Registers rowType := by
    rintro rowType hrowType
    cases statement with
    | table =>
      cases hrowType
      exact h.2
    | join | crossJoin => cases hrowType
  simp only [Clauses.rowTypes, List.forall_mem_append, Option.mem_toList] at hclauses
  obtain ⟨⟨hselect, hfilter⟩, horderings⟩ := hclauses
  unfold Statement.projectionType? at ht
  rcases eq_some_of_orElse ht with ht | ht
  · exact hselect t ht
  rcases eq_some_of_orElse ht with ht | ht
  · obtain ⟨p, hp, rfl⟩ := Option.map_eq_some_iff.mp ht
    exact hresult p hp
  rcases eq_some_of_orElse ht with ht | ht
  · exact hfilter t ht
  rcases eq_some_of_orElse ht with ht | ht
  · obtain ⟨o, ho, rfl⟩ := Option.map_eq_some_iff.mp ht
    exact horderings _ (List.mem_map_of_mem (List.mem_of_getLast? ho))
  · split at ht
    · cases ht
    · obtain ⟨rowType, hrowType, rfl⟩ := Option.map_eq_some_iff.mp ht
      exact Ty.covered_row.mpr (htable rowType hrowType)

/-- **The statement of a query that is covered is covered.** -/
theorem Query.Gathers.covered {q : Query} {clauses : Clauses} {s : Statement}
    (h : q.Gathers env clauses s) (hq : q.Covered env.schema)
    (hclauses : ∀ t ∈ clauses.rowTypes, t.Covered env.schema) : s.Covered env.schema := by
  induction h with
  | table hname hinfo => exact ⟨hclauses, _, hinfo⟩
  | select _ _ hread _ ih =>
    obtain ⟨hsource, hl⟩ := covered_select.mp hq
    refine ih hsource ?_
    simp only [Clauses.rowTypes, List.forall_mem_append] at hclauses ⊢
    exact ⟨⟨by simpa using (hl.read hread).2, hclauses.1.2⟩, hclauses.2⟩
  | filter _ _ hread _ ih =>
    obtain ⟨hsource, hl⟩ := covered_filter.mp hq
    refine ih hsource ?_
    simp only [Clauses.rowTypes, List.forall_mem_append] at hclauses ⊢
    exact ⟨⟨hclauses.1.1, by simpa using (hl.read hread).1⟩, hclauses.2⟩
  | orderBy _ hread _ ih =>
    obtain ⟨hsource, hl⟩ := covered_orderBy.mp hq
    obtain ⟨p, hp, hread⟩ := Traced.bind_eq_ok.mp hread
    cases hread
    refine ih hsource ?_
    simp only [Clauses.rowTypes, List.forall_mem_append, List.map_cons, List.forall_mem_cons]
      at hclauses ⊢
    exact ⟨hclauses.1, (hl.read hp).1, hclauses.2⟩
  | join _ _ hresult hleft hright =>
    obtain ⟨houter, hinner, _, _, hl⟩ := covered_join.mp hq
    exact ⟨List.forall_mem_cons.mpr ⟨(hl.read hresult).2, hclauses⟩,
      houter.tables _ (joinedAs_of_toJoinedTable_empty hleft).rowType_mem,
      hinner.tables _ (joinedAs_of_toJoinedTable_empty hright).rowType_mem⟩
  | crossJoin hresult _ _ _ _ ihl ihr =>
    obtain ⟨hsource, hcollection, hl⟩ := covered_crossJoin.mp hq
    have hempty : ∀ t ∈ Clauses.rowTypes {}, t.Covered env.schema := by simp [Clauses.rowTypes]
    exact ⟨List.forall_mem_cons.mpr ⟨(hl.read hresult).2, hclauses⟩, ihl hsource hempty,
      ihr hcollection hempty⟩

/-! ## 5. The aggregates in a statement -/

/-- A run beside itself, in which the queries of all aggregates are covered. -/
def Coupling.covered (env : Env) : Coupling :=
  .ofAggregates env (fun c c' => c' = c ∧ c.query.Covered env.schema) <| by
    rintro c _ d _ ⟨rfl, _⟩ ⟨rfl, _⟩
    rfl

/-- **A scalar whose aggregates are covered.** -/
def Scalar.HoldsCovered (env : Env) (x : Scalar) : Prop := x.Coupled (.covered env) x

/-- An expression that is covered is read to aggregates that are. -/
theorem Expr.coupled_covered {e : Expr} (he : e.Covered env.schema) :
    e.Coupled (.covered env) e := by
  induction e using children_induction with
  | node e ih =>
    have hchild : ∀ c ∈ e.children, c.Coupled (.covered env) c := fun c hc => ih c hc (he.child hc)
    cases hwhole : e.isReadWhole with
    | false =>
      have hnode := Coupled.withChildren rfl hwhole (List.forall₂_same.mpr hchild)
      rwa [withChildren_children] at hnode
    | true =>
      cases e with
      | member object name t => exact .member name t (fun _ _ _ => trivial) rfl rfl
      | call m receiver args t =>
        cases m with
        | string | other => cases hwhole
        | aggregate a =>
          refine .aggregate (.of_exists id fun c hc => ⟨c, hc, rfl, Correlated.covered_query ?_ hc⟩)
          exact fun arg harg => he.child (by simp [children, harg])
      | _ => cases hwhole

theorem Lambda.holdsCovered_of_read {l : Lambda} (hl : l.Covered env.schema) {arity : Nat}
    {p : Projection} (h : (l.read env arity).outcome = .ok p) : ∀ x ∈ p.scalars, x.HoldsCovered env := by
  have hcoupled : l.Coupled (.covered env) l := Lambda.coupled_of_body rfl
    (Expr.coupled_covered hl.body) (Or.inl rfl) fun hne => absurd rfl hne
  have hp := (hcoupled.read arity).related h h
  have hcolumns : ∀ x ∈ p.columns, x.HoldsCovered env :=
    fun x hx => List.forall₂_same.mp hp.columns x hx
  have haliases : ∀ a ∈ p.aliases, a.2.HoldsCovered env := by
    rw [← Aliases.shown_eq_self (C := .covered env) (fun _ => rfl) p.aliases]
    exact fun a ha => (List.forall₂_same.mp hp.aliases a ha).2
  exact List.forall_mem_append.mpr ⟨List.forall_mem_cons.mpr ⟨hp.body, hcolumns⟩,
    List.forall_mem_map.mpr haliases⟩

/-- **The aggregates that a statement of a covered query holds are covered.** -/
theorem Query.holdsCovered_of_toStatement {q : Query} (hq : q.Covered env.schema) {s : Statement}
    (h : (q.toStatement env).outcome = .ok s) : ∀ x ∈ s.scalars, x.HoldsCovered env :=
  forall_scalars_of_toStatement h fun l hl _ _ hp =>
    Lambda.holdsCovered_of_read (hq.lambdas l hl) hp

/-! ## 6. Binding -/

/-- **A scope that finds all metadata** when it binds a column. -/
def Scope.Supplied (scope : Scope) : Prop :=
  ∀ token position, (scope.column token position).Supplied

/-- **Aggregates whose queries are covered are compiled without missing any metadata.** -/
def Subqueries.Supplied (env : Env) (subqueries : Subqueries) : Prop :=
  ∀ c : Correlated, c.query.Covered env.schema → ∀ scope : Scope, scope.Supplied →
    (subqueries c scope).Supplied

section Binding

variable {dialect : Dialect} {subqueries : Subqueries} {scope : Scope} {position : Position}

theorem Literal.toSql_supplied (v : Literal) : (liftM v.toSql : Traced Sql.Expr).Supplied := by
  cases v with
  | null | bool | int | float | string => exact .of_ok rfl
  | list | object => exact .of_error rfl rfl

theorem Scalar.resolve_binary_supplied (op : BinaryOp) {l r : Scalar}
    (hl : (l.resolve dialect subqueries scope position).Supplied)
    (hr : (r.resolve dialect subqueries scope position).Supplied) :
    ((Scalar.binary op l r).resolve dialect subqueries scope position).Supplied := by
  unfold Scalar.resolve
  split
  · exact hl.bind fun _ _ => .pure _
  · exact hr.bind fun _ _ => .pure _
  · exact hl.bind fun _ _ => .pure _
  · exact hr.bind fun _ _ => .pure _
  · exact hl.bind fun _ _ => hr.bind fun _ _ => .pure _
  · exact hl.bind fun _ _ => hr.bind fun _ _ => .pure _
  · exact hl.bind fun _ _ => hr.bind fun _ _ => .pure _

mutual
/-- **Binding a scalar finds all metadata**, if its aggregates are covered. -/
theorem Scalar.resolve_supplied (hsub : subqueries.Supplied env) (hscope : scope.Supplied) :
    ∀ {x y : Scalar}, x.Coupled (.covered env) y →
      (x.resolve dialect subqueries scope position).Supplied
  | .column token, _, .column _ => hscope token position
  | _, _, .value v => v.toSql_supplied
  | _, _, .null => .pure _
  | _, _, .binary op hl hr => Scalar.resolve_binary_supplied op
    (Scalar.resolve_supplied hsub hscope hl) (Scalar.resolve_supplied hsub hscope hr)
  | _, _, .not h => (Scalar.resolve_supplied hsub hscope h).bind fun _ _ => .pure _
  | _, _, .negate h => (Scalar.resolve_supplied hsub hscope h).bind fun _ _ => .pure _
  | _, _, .function _ h => (Scalar.resolveList_supplied hsub hscope h).bind fun _ _ => .pure _
  | _, _, .like _ hx hp => (Scalar.resolve_supplied hsub hscope hx).bind fun _ _ =>
    (Scalar.resolve_supplied hsub hscope hp).bind fun _ _ => .pure _
  | _, _, .case ht hx hy => (Scalar.resolve_supplied hsub hscope ht).bind fun _ _ =>
    (Scalar.resolve_supplied hsub hscope hx).bind fun _ _ =>
      (Scalar.resolve_supplied hsub hscope hy).bind fun _ _ => .pure _
  | _, _, .subquery h => (hsub _ h.2 scope hscope).bind fun _ _ => .pure _
  | _, _, .composite _ _ => .throw rfl

theorem Scalar.resolveList_supplied (hsub : subqueries.Supplied env) (hscope : scope.Supplied) :
    ∀ {xs ys : List Scalar}, Scalar.ListCoupled (.covered env) xs ys →
      (Scalar.resolveList dialect subqueries scope position xs).Supplied
  | _, _, .nil => .pure _
  | _, _, .cons h hs => (Scalar.resolve_supplied hsub hscope h).bind fun _ _ =>
    (Scalar.resolveList_supplied hsub hscope hs).bind fun _ _ => .pure _
end

/-- A schema has the tables that a statement selects from. -/
def Source.Covered (s : Schema) : Source → Prop
  | .table rowType _ => s.Registers rowType
  | .join left right => s.Registers left.rowType ∧ s.Registers right.rowType
  | .crossJoin _ _ => True

theorem Schema.columnName_supplied {s : Schema} {name : String} (h : s.Registers name)
    (member : String) : ∃ column, s.columnName name member = .ok column := by
  obtain ⟨info, hinfo⟩ := h
  exact ⟨_, Except.bind_eq_ok.mpr ⟨info, hinfo, rfl⟩⟩

/-- A source finds the columns of its own rows. -/
theorem Source.Covered.column? {s : Schema} {source : Source} (h : source.Covered s) (owner : Ty)
    (member : String) (position : Position) :
    ∃ found, source.column? s owner member position = .ok found := by
  have hjoined : ∀ t : JoinedTable, s.Registers t.rowType →
      ∃ found, t.column? s owner member = .ok found := by
    intro t ht
    obtain ⟨column, hcolumn⟩ := Schema.columnName_supplied ht member
    unfold JoinedTable.column?
    split
    · exact ⟨_, Except.bind_eq_ok.mpr ⟨column, hcolumn, rfl⟩⟩
    · exact ⟨none, rfl⟩
  cases source with
  | table rowType label =>
    obtain ⟨column, hcolumn⟩ := Schema.columnName_supplied h member
    rw [Source.column?]
    split
    · cases position with
      | selectList => exact ⟨_, Except.bind_eq_ok.mpr ⟨column, hcolumn, rfl⟩⟩
      | predicate => exact ⟨_, Except.bind_eq_ok.mpr ⟨column, hcolumn, rfl⟩⟩
    · exact ⟨none, rfl⟩
  | join left right =>
    obtain ⟨found, hleft⟩ := hjoined left h.1
    obtain ⟨found', hright⟩ := hjoined right h.2
    cases found with
    | some column => exact ⟨_, Except.bind_eq_ok.mpr ⟨_, hleft, rfl⟩⟩
    | none => exact ⟨found', Except.bind_eq_ok.mpr ⟨_, hleft, hright⟩⟩
  | crossJoin left right => exact ⟨_, rfl⟩

variable {outer : Option Scope}

theorem Frame.bindToSource_supplied (depth : Nat) {source : Source}
    (hsource : source.Covered env.schema) (houter : ∀ scope, outer = some scope → scope.Supplied)
    (token : ColumnToken) (position : Position) :
    (Frame.bindToSource env ⟨depth, source, outer⟩ token position).Supplied := by
  unfold Frame.bindToSource
  split
  · exact .throw rfl
  · rename_i owner _
    obtain ⟨found, hfound⟩ := hsource.column? owner token.member position
    refine Traced.Supplied.bind (.of_ok hfound) fun _ _ => ?_
    split
    · exact .pure _
    · cases outer with
      | none => exact .throw rfl
      | some outer => exact houter outer rfl token .predicate

/-- **The scope of a statement finds all metadata**, if its records hold covered aggregates only. -/
theorem Frame.scope_supplied (hsub : subqueries.Supplied env) (depth : Nat) {source : Source}
    (hsource : source.Covered env.schema) (houter : ∀ scope, outer = some scope → scope.Supplied)
    {layers : List Aliases} (hlayers : ∀ layer ∈ layers, ∀ a ∈ layer, a.2.HoldsCovered env) :
    (Frame.scope env subqueries ⟨depth, source, outer⟩ layers).Supplied := by
  induction layers with
  | nil => exact Frame.bindToSource_supplied depth hsource houter
  | cons layer below ih =>
    obtain ⟨hlayer, hbelow⟩ := List.forall_mem_cons.mp hlayers
    intro token position
    change (Frame.bindThrough _ _ _ (layer :: below) _ _).Supplied
    rw [Frame.bindThrough]
    split
    · rename_i target htarget
      obtain ⟨owner, _, hlookup⟩ := Option.bind_eq_some_iff.mp htarget
      exact Scalar.resolve_supplied hsub (ih hbelow) (hlayer _ (Assoc.mem_of_lookup hlookup))
    · exact ih hbelow token position

end Binding

/-! ## 7. Selections -/

theorem defaultColumns_supplied {s : Schema} {t : Ty} (ht : t.Covered s) :
    (liftM (defaultColumns s t) : Traced (List String)).Supplied := by
  have hguard : ∀ names : List String, Traced.Supplied (liftM
      (if names.isEmpty then throw (.unresolvableProjection t.text) else pure names :
        Except Error (List String))) := by
    intro names
    split
    · exact .of_error rfl rfl
    · exact .of_ok rfl
  cases t with
  | row name =>
    obtain ⟨info, hinfo⟩ := Ty.covered_row.mp ht
    unfold defaultColumns
    simp only [hinfo, Except.ok_bind]
    exact hguard _
  | record name fields => exact hguard _
  | scalar | nullable | collection | group => exact hguard []

/-- A side of a cross join that is covered finds its output columns. -/
theorem Statement.Covered.exports {schema : Schema} {s : Statement} (h : s.Covered schema) :
    ∃ exports, s.exports schema = .ok exports := by
  unfold Statement.exports
  split
  · exact ⟨_, rfl⟩
  · split
    · rename_i name htype
      obtain ⟨info, hinfo⟩ := Ty.covered_row.mp (h.projectionType htype)
      exact ⟨_, Except.bind_eq_ok.mpr ⟨info, hinfo, rfl⟩⟩
    · exact ⟨[], rfl⟩

section Selections

variable {s : Statement} {b : Binder}

theorem Statement.aggregateList_supplied
    (hbound : ∀ x ∈ s.bound, ∀ position, (b.resolve position x).Supplied) (a : Aggregate) :
    (s.aggregateList b a).Supplied := by
  unfold Statement.aggregateList
  split
  · exact .pure _
  · rename_i p _ hselect
    have hbody : p.body ∈ s.bound :=
      mem_bound_of_projection (p := p) (by simp [hselect]) List.mem_cons_self
    exact (hbound _ hbody _).bind fun _ _ => .pure _
  · exact .throw rfl

theorem Statement.rowList_supplied
    (hbound : ∀ x ∈ s.bound, ∀ position, (b.resolve position x).Supplied)
    (hs : s.Covered b.env.schema) (role : Role) : (s.rowList b role).Supplied := by
  unfold Statement.rowList
  split
  · rename_i members hmembers
    obtain ⟨p, hselect, rfl⟩ := Statement.exportedMembers?_eq_some hmembers
    refine Traced.Supplied.bind (.mapM fun m hm => ?_) fun _ _ => .pure _
    have hvalue : m.2 ∈ s.bound := mem_bound_of_projection (p := p) (by simp [hselect])
      (Projection.mem_scalars_of_mem_recordMembers hm)
    exact (hbound _ hvalue _).bind fun _ _ => .pure _
  · split
    · split
      · rename_i t ht
        exact (defaultColumns_supplied (hs.projectionType ht)).bind fun _ _ => .pure _
      · exact .throw rfl
    · refine Traced.Supplied.bind (.mapM fun x hx => ?_) fun _ _ => .pure _
      exact hbound _ (mem_bound_of_columns hx) _

theorem Statement.selectList_supplied
    (hbound : ∀ x ∈ s.bound, ∀ position, (b.resolve position x).Supplied)
    (hs : s.Covered b.env.schema) (role : Role) : (s.selectList b role).Supplied := by
  unfold Statement.selectList
  split
  · exact s.aggregateList_supplied hbound _
  · exact s.rowList_supplied hbound hs _

theorem Statement.filterExpr_supplied
    (hbound : ∀ x ∈ s.bound, ∀ position, (b.resolve position x).Supplied) :
    (s.clauses.filterExpr b).Supplied := by
  unfold Clauses.filterExpr
  split
  · rename_i p hfilter
    exact hbound p.body (List.mem_append_left _ (List.mem_append_right _ (by simp [hfilter]))) _
  · exact .pure _

theorem Statement.order_supplied
    (hbound : ∀ x ∈ s.bound, ∀ position, (b.resolve position x).Supplied) (role : Role) :
    (s.clauses.order b role s.sortKeys).Supplied := by
  have hkeys : (s.sortKeys.mapM (SortKey.toSql b)).Supplied := by
    refine .mapM fun k hk => ?_
    have hkey : k.key ∈ s.bound := List.mem_append_right _ (List.mem_map_of_mem hk)
    exact (hbound _ hkey _).bind fun _ _ => .pure _
  unfold Clauses.order
  split
  · exact hkeys.bind fun _ _ => .pure _
  · split
    · exact .pure _
    · exact .pure _
  · exact .pure _
  · exact .pure _

end Selections

section Statements

variable {subqueries : Subqueries} {outer : Option Scope} {role : Role} {depth : Nat} {s : Statement}

/-- A statement over its ground. -/
theorem Statement.assemble_supplied {ground : Ground}
    (hground : (s.ground env subqueries outer depth).outcome = .ok ground)
    (hbound : ∀ x ∈ s.bound, ∀ position,
      ((s.binder env subqueries outer depth ground.source).resolve position x).Supplied)
    (hs : s.Covered env.schema) :
    (s.assemble env subqueries outer role depth ground).Supplied := by
  have hjoins : (ground.joins (s.binder env subqueries outer depth ground.source)).Supplied := by
    cases s with
    | table clauses rowType =>
      obtain ⟨info, _, rfl⟩ := Ground.table_eq_ok.mp hground
      exact .pure _
    | join clauses left right outerKey innerKey result lifted =>
      cases hground
      refine (hbound outerKey List.mem_cons_self .predicate).bind fun _ _ => ?_
      refine (hbound innerKey (List.mem_cons_of_mem _ List.mem_cons_self) .predicate).bind fun _ _ => ?_
      exact .pure _
    | crossJoin clauses left right leftRow rightRow result =>
      obtain ⟨_, _, _, _, _, _, _, _, _, _, rfl⟩ := Statement.ground_crossJoin_eq_ok.mp hground
      exact .pure _
  have horder := s.order_supplied hbound role
  rw [← Statement.ground_lifted_append hground] at horder
  exact hjoins.bind fun _ _ => (s.selectList_supplied hbound hs role).bind fun _ _ =>
    (s.filterExpr_supplied hbound).bind fun _ _ => horder.bind fun _ _ => .pure _

/-- **Compiling a statement finds all metadata**, if it is covered and so are its aggregates. -/
theorem Statement.toSelect_supplied (hsub : subqueries.Supplied env)
    (houter : ∀ scope, outer = some scope → scope.Supplied) (hs : s.Covered env.schema)
    (hscalars : ∀ x ∈ s.scalars, x.HoldsCovered env) :
    (s.toSelect env subqueries outer role depth).Supplied := by
  have hassemble : ∀ {s : Statement} {role : Role} {depth : Nat} {ground : Ground},
      (s.ground env subqueries outer depth).outcome = .ok ground →
      ground.source.Covered env.schema → s.Covered env.schema →
      (∀ x ∈ s.scalars, x.HoldsCovered env) →
        (s.assemble env subqueries outer role depth ground).Supplied := by
    intro s role depth ground hground hsource hs hscalars
    refine Statement.assemble_supplied hground (fun x hx position => ?_) hs
    have hscope := Frame.scope_supplied hsub depth hsource houter (Statement.forall_layers hscalars)
    exact Scalar.resolve_supplied hsub hscope
      (Statement.forall_bound (fun _ => .column trivial) hscalars x hx)
  induction s generalizing role depth with
  | table clauses rowType =>
    rw [Statement.toSelect_eq]
    refine Traced.Supplied.bind ?_ fun ground hground => ?_
    · exact (Schema.rowType_supplied hs.2).bind fun _ _ =>
        Traced.Supplied.bind (.of_ok rfl) fun _ _ => .pure _
    · refine hassemble hground ?_ hs hscalars
      obtain ⟨info, hinfo, rfl⟩ := Ground.table_eq_ok.mp hground
      exact ⟨info, hinfo⟩
  | join clauses left right outerKey innerKey result lifted =>
    rw [Statement.toSelect_eq]
    refine Traced.Supplied.bind (.pure _) fun ground hground => hassemble hground ?_ hs hscalars
    cases hground
    exact hs.2
  | crossJoin clauses left right leftRow rightRow result ihl ihr =>
    have hleft := hs.2.1
    have hright := hs.2.2
    have hsides := Statement.forall_sides hscalars
    obtain ⟨hleftScalars, hrightScalars⟩ := List.forall_mem_cons.mp hsides
    obtain ⟨leftExports, hleftExports⟩ := hleft.exports
    obtain ⟨rightExports, hrightExports⟩ := hright.exports
    rw [Statement.toSelect_eq]
    refine Traced.Supplied.bind ?_ fun ground hground => ?_
    · refine (ihl hleft hleftScalars).bind fun _ _ => ?_
      refine (ihr hright (List.forall_mem_singleton.mp hrightScalars)).bind fun _ _ => ?_
      refine Traced.Supplied.bind (.of_ok hleftExports) fun _ _ => ?_
      exact Traced.Supplied.bind (.of_ok hrightExports) fun _ _ => .pure _
    · refine hassemble hground ?_ hs hscalars
      obtain ⟨_, _, _, _, _, _, _, _, _, _, rfl⟩ := Statement.ground_crossJoin_eq_ok.mp hground
      trivial

/-- **Compiling an aggregate finds all metadata**, if its query is covered. -/
theorem Correlated.toSelect_supplied (hschema : env.schema.Valid) (levels : Nat) :
    Subqueries.Supplied env (Correlated.toSelect env levels) := by
  induction levels with
  | zero => exact fun _ _ _ _ => .throw rfl
  | succ levels ih =>
    intro c hc scope hscope
    have houter : ∀ scope' : Scope, some scope = some scope' → scope'.Supplied := by
      rintro _ ⟨⟩
      exact hscope
    rw [Correlated.toSelect]
    refine (Query.toStatement_supplied hschema hc).bind fun s hs => ?_
    have hcovered : s.Covered env.schema :=
      (Query.toStatement_eq_ok.mp hs).covered hc (by simp [Clauses.rowTypes])
    have hscalars := Query.holdsCovered_of_toStatement hc hs
    dsimp only
    split
    · exact (Statement.toSelect_supplied ih houter hcovered hscalars).bind fun _ _ => .pure _
    · exact (Statement.toSelect_supplied ih houter hcovered hscalars).bind fun _ _ => .pure _

theorem Query.toSelect_supplied (hschema : env.schema.Valid) {q : Query}
    (hq : q.Covered env.schema) : (q.toSelect env).Supplied := by
  refine (Query.toStatement_supplied hschema hq).bind fun s hs => ?_
  have hcovered : s.Covered env.schema :=
    (Query.toStatement_eq_ok.mp hs).covered hq (by simp [Clauses.rowTypes])
  refine (Statement.toSelect_supplied (Correlated.toSelect_supplied hschema _) (by rintro _ ⟨⟩)
    hcovered (Query.holdsCovered_of_toStatement hq hs)).bind fun _ _ => .pure _

end Statements

/-! ## 8. The theorem -/

/-- Partial evaluation of an expression only fails for want of a value. -/
theorem Expr.evaluate_supplied {e : Expr} {error : Error} (h : e.evaluate = .error error) :
    error.isMissingMetadata = false := by
  induction e using children_induction with
  | node e ih =>
    rw [evaluate, evaluateWith_eq] at h
    split at h
    · obtain ⟨reason, -, rfl⟩ := evaluated_eq_error_iff.mp h
      rfl
    · obtain ⟨c, hc, hfail⟩ := Except.exists_of_mapM_eq_error (traverseChildren_eq_error.mp h)
      exact ih c hc hfail

/-- Evaluating a query fails where one of its expressions does. -/
theorem Query.evaluate_supplied {q : Query} {error : Error} (h : q.evaluate = .error error) :
    error.isMissingMetadata = false := by
  obtain ⟨e, _, hfail⟩ := Except.exists_of_mapM_eq_error (mapExprs_eq_error.mp h)
  exact Expr.evaluate_supplied hfail

/-- **Validated metadata is enough for the compiler**: against a configuration that is accepted, a
query never fails for want of metadata, if the row types that it names are registered, and its
aggregates follow navigations to the row types that they are declared to lead to. -/
theorem Query.compile_ne_missingMetadata {config : Config} {env : Env} (hconfig : config.toEnv = .ok env)
    {q : Query} (hrows : ∀ name ∈ q.rowNames, env.schema.Registers name)
    (hnavigations : ∀ n ∈ q.navigations, env.schema.navigation n.parent n.member = .ok n.child)
    (what : String) : q.compile env ≠ .error (.missingMetadata what) := by
  intro h
  have hq : q.Covered env.schema := covered_iff.mpr ⟨hrows, hnavigations⟩
  have hschema := Config.schema_valid_of_toEnv hconfig
  unfold Query.compile at h
  cases hevaluate : q.evaluate with
  | error e =>
    rw [hevaluate] at h
    cases h
    cases Query.evaluate_supplied hevaluate
  | ok q' =>
    rw [hevaluate] at h
    cases hselect : (q'.toSelect env).outcome with
    | error e =>
      rw [Except.ok_bind, hselect] at h
      cases h
      cases Query.toSelect_supplied hschema (hq.evaluate hevaluate) _ hselect
    | ok select =>
      rw [Except.ok_bind, hselect] at h
      cases h

/-- For every customer the largest number of lines of an order: both navigations of the shop lead to
the row types that the query declares. -/
theorem Query.compile_ne_missingMetadata_shop :
    let config : Config := { version := Config.currentVersion, schema := Shop.schema }
    let env : Env := ⟨Shop.schema, {}⟩
    let c : Parameter := ⟨"c", .row "Customer"⟩
    let o : Parameter := ⟨"o", .row "Order"⟩
    let lines : Expr := .aggregate .count (Shop.field o "Lines") none (.scalar .int32)
    let q : Query := .select (.table "Customer")
      ⟨[c], .aggregate .max (Shop.field c "Orders") (some ⟨[o], lines⟩) (.scalar .int32)⟩
    config.toEnv = .ok env ∧
    (∀ name ∈ q.rowNames, env.schema.Registers name) ∧
    q.navigations = [⟨"Customer", "Orders", "Order"⟩, ⟨"Order", "Lines", "OrderLine"⟩] ∧
    (∀ n ∈ q.navigations, env.schema.navigation n.parent n.member = .ok n.child) ∧
    ∀ what, q.compile env ≠ .error (.missingMetadata what) := by
  intro config env c o lines q
  have hrows : ∀ name ∈ q.rowNames, env.schema.Registers name := by decide
  have hfollowed : q.navigations
      = [⟨"Customer", "Orders", "Order"⟩, ⟨"Order", "Lines", "OrderLine"⟩] := by decide
  have hnavigations : ∀ n ∈ q.navigations,
      env.schema.navigation n.parent n.member = .ok n.child := by
    rw [hfollowed]
    exact List.forall_mem_cons.mpr ⟨rfl, List.forall_mem_singleton.mpr rfl⟩
  have hconfig : config.toEnv = .ok env := rfl
  exact ⟨hconfig, hrows, hfollowed, hnavigations,
    Query.compile_ne_missingMetadata hconfig hrows hnavigations⟩

end ChainQuery
