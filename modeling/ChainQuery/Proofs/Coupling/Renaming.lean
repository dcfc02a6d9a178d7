import ChainQuery.Proofs.Coupling.Selection
/-!
# A query with other strings

The first instance of a coupling: a query beside the same query with other strings in its constants
(`Coupling.renaming`), against the same schema or one with more row types, on columns of which one may
choose which may be read.  Both are read alike (`Query.coupled_mapStrings`), and so are the queries of
their aggregates (`Coupling.renaming_sound`).

With no string renamed and against the same schema this is a run beside itself (`Coupling.self`).  A
statement is then coupled with itself on the columns that its query reads
(`Query.coupled_self_of_toStatement`), which is how other modules say that a statement reads nothing else.
-/

namespace ChainQuery

/-! ## 1. The coupling -/

/-- An aggregate with the strings of its constants replaced. -/
def Correlated.mapStrings (f : String → String) (c : Correlated) : Correlated :=
  { c with query := c.query.mapStrings f }

/-- An aggregate over the rows of a table. -/
def Correlated.OverTable (c : Correlated) : Prop :=
  ∃ rowType predicate projection, c.query = .select (.filter (.table rowType) predicate) projection

theorem Correlated.beq_mapStrings {f : String → String} (hf : f.Injective) (c d : Correlated) :
    (c.mapStrings f == d.mapStrings f) = (c == d) := by
  have hquery := Query.beq_mapStrings hf c.query d.query
  change ((c.query.mapStrings f).beq (d.query.mapStrings f) && _ && _) = _
  rw [hquery]
  rfl

/-- **A run beside the run with other strings**, on the columns that may be read.  The second environment
may have more row types; if it has not, then under `strict` both runs succeed or none does. -/
def Coupling.renaming {env env' : Env} (henv : env.Within env') {f : String → String}
    (hf : f.Injective) (Reads : ColumnToken → Prop) (strict : Prop) : Coupling where
  env := env
  env' := env'
  grows := henv
  rename := f
  injective := hf
  Aggregates c c' :=
    c' = c.mapStrings f ∧ c.OverTable ∧ ∀ token ∈ c.query.reads env.schema, Reads token
  beq_eq := by
    rintro c _ d _ ⟨rfl, _⟩ ⟨rfl, _⟩
    exact (Correlated.beq_mapStrings hf c d).symm
  hidden _ := false
  Reads := Reads
  shown _ _ _ _ := rfl
  converse := strict ∧ env'.Within env
  shrinks := And.right

/-- A run beside itself, on the columns that may be read. -/
abbrev Coupling.self (env : Env) (Reads : ColumnToken → Prop) : Coupling :=
  .renaming (.refl env) Function.injective_id Reads False

section Renaming

variable {env env' : Env} {henv : env.Within env'} {f : String → String} {hf : f.Injective}
  {Reads : ColumnToken → Prop} {strict : Prop}

/-! ## 2. Aggregates -/

namespace Correlated

theorem arguments?_map (f : String → String) (args : List Expr) :
    arguments? (args.map (Expr.mapStrings f)) = (arguments? args).map fun p =>
      (p.1.mapStrings f, p.2.map (Lambda.mapStrings f)) := by
  match args with
  | [] | [_] => rfl
  | [_, selector] => cases selector <;> simp [arguments?, Lambda.mapStrings]
  | _ :: _ :: _ :: _ => simp [arguments?]

/-- The filter and the projection of related rows are chosen without looking at strings. -/
theorem clauses_agrees (C : Coupling) (text text' : String) (a : Aggregate) (row : Parameter)
    (reference correlation : Expr) (selector : Option Lambda) :
    C.Agrees
      (fun x y => y = (x.1.mapStrings C.rename, x.2.1.mapStrings C.rename, x.2.2))
      (liftM (clauses text a row reference correlation selector))
      (liftM (clauses text' a row (reference.mapStrings C.rename) (correlation.mapStrings C.rename)
        (selector.map (Lambda.mapStrings C.rename)))) := by
  cases selector with
  | none =>
    cases a with
    | count => exact .pure rfl
    | sum | min | max | average => exact .throw _ _
  | some l =>
    cases a with
    | count => exact .pure rfl
    | sum | min | max | average =>
      simp only [clauses, Option.map_some, Lambda.body_mapStrings, Expr.isAggregate_mapStrings]
      split
      · refine .pure ?_
        simp [Lambda.mapStrings, Expr.record]
      · exact .pure rfl

/-- **The query of an aggregate with other strings** is the query of the aggregate with these
strings. -/
theorem ofCall_agrees (C : Coupling) (text text' : String) (a : Aggregate) (args : List Expr) :
    C.Agrees (fun c c' => c' = c.mapStrings C.rename)
      (ofCall C.env.schema text a args)
      (ofCall C.env'.schema text' a (args.map (Expr.mapStrings C.rename))) := by
  unfold ofCall
  rw [arguments?_map]
  cases arguments? args with
  | none => exact .throw _ _
  | some p =>
    obtain ⟨source, selector⟩ := p
    cases source with
    | member object member type =>
      simp only [Option.map_some, Expr.mapStrings_member, Expr.type_mapStrings,
        Expr.memberPath?_mapStrings]
      have hselector : ((selector.map (Lambda.mapStrings C.rename)).map fun l => l.params.length != 1)
          = selector.map fun l => l.params.length != 1 := by
        cases selector <;> rfl
      have hrow : ((selector.map (Lambda.mapStrings C.rename)).bind fun l => l.params.head?)
          = selector.bind fun l => l.params.head? := by
        cases selector <;> rfl
      rw [hselector, hrow]
      split
      · split
        · exact .throw _ _
        · refine (Coupling.Agrees.same _).bind fun _ _ _ _ _ => ?_
          refine (Coupling.Agrees.lookup (·.navigation _ _) fun h => h.navigation).bind ?_
          rintro target _ _ _ rfl
          split
          · exact .throw _ _
          · refine (Coupling.Agrees.lookup (·.foreignKey _ _) fun h => h.foreignKey).bind ?_
            rintro foreignKey _ _ _ rfl
            refine (Coupling.Agrees.lookup (·.rowType _) fun h => h.rowType).bind ?_
            rintro info _ _ _ rfl
            split
            · exact .throw _ _
            · refine (Coupling.Agrees.lookup (·.columnType _ _) fun h => h.columnType).bind ?_
              rintro referenceType _ _ _ rfl
              refine (Coupling.Agrees.lookup (·.columnType _ _) fun h => h.columnType).bind ?_
              rintro keyType _ _ _ rfl
              refine Coupling.Agrees.bind (clauses_agrees C text text' a _ _ _ selector) ?_
              rintro x _ _ _ rfl
              exact .pure rfl
      · exact .throw _ _
    | call =>
      simp only [Option.map_some, Expr.mapStrings_call]
      exact .throw _ _
    | _ =>
      exact .throw _ _

theorem overTable_of_ofCall {schema : Schema} {text : String} {a : Aggregate} {args : List Expr}
    {c : Correlated} (h : (ofCall schema text a args).outcome = .ok c) : c.OverTable := by
  obtain ⟨k, predicate, projection, _, _, rfl⟩ := ofCall_eq_ok.mp h
  exact ⟨k.navigation.childName, ⟨[k.row], predicate⟩, projection, rfl⟩

/-- The statement of an aggregate is over a table. -/
theorem OverTable.statement {c : Correlated} (hover : c.OverTable) {s : Statement}
    (h : (c.query.toStatement env).outcome = .ok s) : ∃ clauses rowType, s = .table clauses rowType := by
  obtain ⟨rowType, predicate, projection, hquery⟩ := hover
  rw [hquery] at h
  cases Query.toStatement_eq_ok.mp h with
  | select _ _ _ hfilter =>
    cases hfilter with
    | filter _ _ _ htable =>
      cases htable with
      | table => exact ⟨_, _, rfl⟩

end Correlated

/-! ## 3. Lambdas and queries -/

/-- **An expression and the same expression with other strings are read alike.** -/
theorem Expr.coupled_mapStrings (e : Expr) (h : ∀ token ∈ e.reads env.schema, Reads token) :
    e.Coupled (.renaming henv hf Reads strict) (e.mapStrings f) := by
  induction e using children_induction with
  | node e ih =>
    cases hwhole : e.isReadWhole with
    | false =>
      have hchildren : List.Forall₂ (Coupled (.renaming henv hf Reads strict)) e.children
          (e.children.map (mapStrings f)) := by
        refine List.forall₂_map_right_iff.mpr (List.forall₂_same.mpr fun c hc => ?_)
        refine ih c hc fun token htoken => h token ?_
        rw [reads_eq_flatMap hwhole]
        exact List.mem_flatMap.mpr ⟨c, hc, htoken⟩
      have hnode := Coupled.mapStrings_withChildren hwhole hchildren
      rw [← children_mapStrings] at hnode
      rwa [← withChildren_children (e.mapStrings f)]
    | true =>
      cases e with
      | member object name t =>
        rw [mapStrings_member]
        refine .member name t (fun path hpath ht => h _ ?_) object.memberPath?_mapStrings ?_
        · rw [reads_member ht hpath]
          exact List.mem_cons_self
        · rw [type_mapStrings]
      | call m receiver args t =>
        cases m with
        | aggregate a =>
          rw [mapStrings_call]
          refine .aggregate ?_
          have hcall := Correlated.ofCall_agrees (.renaming henv hf Reads strict)
            (call (.aggregate a) receiver args t).text
            (call (.aggregate a) (receiver.map (mapStrings f)) (args.map (mapStrings f)) t).text a args
          refine ⟨fun c hc => ?_, hcall.back⟩
          obtain ⟨_, hc', rfl⟩ := hcall.forth c hc
          refine ⟨_, hc', rfl, Correlated.overTable_of_ofCall hc, ?_⟩
          intro token htoken
          apply h
          rw [reads_aggregate, List.flatMap_append]
          rcases List.mem_append.mp (Correlated.reads_query_subset hc htoken) with hkey | harg
          · exact List.mem_append_left _ hkey
          · exact List.mem_append_right _ (List.mem_append_right _ harg)
        | string | other => cases hwhole
      | _ => cases hwhole

theorem Lambda.coupled_mapStrings {l : Lambda} (h : ∀ token ∈ l.body.reads env.schema, Reads token) :
    l.Coupled (.renaming henv hf Reads strict) (l.mapStrings f) :=
  Lambda.coupled_of_body rfl (l.body.coupled_mapStrings h) (Or.inl l.returnType_mapStrings.symm)
    fun hne => absurd l.returnType_mapStrings.symm hne

/-- An expression is read like itself. -/
theorem Expr.coupled_self {e : Expr} (h : ∀ token ∈ e.reads env.schema, Reads token) :
    e.Coupled (.renaming henv Function.injective_id Reads strict) e := by
  have he : e.Coupled (.renaming henv Function.injective_id Reads strict)
      (e.mapStrings id) := e.coupled_mapStrings h
  rwa [e.mapStrings_id] at he

/-- What a query offers may be read; that of the query with other strings is not hidden. -/
theorem Query.exported_mapStrings {q : Query} (h : ∀ token ∈ q.offers, Reads token) (role : Role) :
    q.Exported (.renaming henv hf Reads strict) role (q.mapStrings f) :=
  ⟨fun _ _ _ _ => rfl, fun _ _ _ _ => rfl, fun _ => h⟩

/-- **A query and the same query with other strings have the same operators over lambdas that are read
alike.** -/
theorem Query.coupled_mapStrings {q : Query} (h : ∀ token ∈ q.reads env.schema, Reads token) :
    q.Coupled (.renaming henv hf Reads strict) (q.mapStrings f) := by
  induction q with
  | table rowType => exact .table rowType
  | select source selector ih =>
    simp only [reads, List.forall_mem_append] at h
    exact .select (ih h.1) (Lambda.coupled_mapStrings h.2)
  | filter source predicate ih =>
    simp only [reads, List.forall_mem_append] at h
    exact .filter (ih h.1) (Lambda.coupled_mapStrings h.2)
  | orderBy source key kind ih =>
    simp only [reads, List.forall_mem_append] at h
    exact .orderBy (ih h.1) (Lambda.coupled_mapStrings h.2) kind
  | join outer inner outerKey innerKey result ihl ihr =>
    simp only [reads, List.forall_mem_append] at h
    obtain ⟨⟨⟨⟨houter, hinner⟩, houterKey⟩, hinnerKey⟩, hresult⟩ := h
    exact .join (ihl houter) (ihr hinner) (Lambda.coupled_mapStrings houterKey)
      (Lambda.coupled_mapStrings hinnerKey) (Lambda.coupled_mapStrings hresult)
  | crossJoin source collection result ihl ihr =>
    simp only [reads, List.forall_mem_append] at h
    obtain ⟨⟨⟨⟨hsource, hcollection⟩, hresult⟩, hsourceOffers⟩, hcollectionOffers⟩ := h
    exact .crossJoin (ihl hsource) (ihr hcollection) (exported_mapStrings hsourceOffers _)
      (exported_mapStrings hcollectionOffers _) (Lambda.coupled_mapStrings hresult)
  | call method source args ih => exact .call method (ih h) _ _

/-- A query is read like itself. -/
theorem Query.coupled_self {q : Query} (h : ∀ token ∈ q.reads env.schema, Reads token) :
    q.Coupled (.renaming henv Function.injective_id Reads strict) q := by
  have hq : q.Coupled (.renaming henv Function.injective_id Reads strict)
      (q.mapStrings id) := Query.coupled_mapStrings h
  rwa [mapStrings_id] at hq

/-! ## 4. Statements -/

/-- The aggregates of the two runs go together. -/
theorem Coupling.renaming_sound : (Coupling.renaming henv hf Reads strict).Sound := by
  rintro c _ ⟨rfl, _, hreads⟩
  exact ⟨Query.coupled_mapStrings hreads, rfl, rfl,
    fun _ => ⟨fun _ _ _ _ => rfl, fun _ _ _ _ => rfl, nofun⟩⟩

/-- **A statement reads only what its query reads**: it is coupled with itself on these columns. -/
theorem Query.coupled_self_of_toStatement {q : Query} {s : Statement}
    (h : (q.toStatement env).outcome = .ok s) (hreads : ∀ token ∈ q.reads env.schema, Reads token) :
    s.Coupled (.self env Reads) s :=
  (Query.coupled_self hreads).toStatement.related h h

end Renaming

end ChainQuery
