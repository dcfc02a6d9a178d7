import ChainQuery.Proofs.Compile.Aggregates
import ChainQuery.Proofs.Coupling.Selection
import ChainQuery.Proofs.Evaluate.ConstantRecords
import ChainQuery.Schema.Shop
/-!
# Records of constants in a query

Partial evaluation replaces a record of constants by its value.  The value is read like the record:
neither reads a column, and the whole stands for itself.  But where a record is built its members are
recorded, for what is around it to find by their names, and where it is a value they are not.  So a
query compiles to the same selection over values if no column asks for a member of a folded record
(`Query.toSelect_folded`), and may be refused if one does (`Query.toSelect_taggedLabel`).

The members of folded records are what the two runs hide (`Coupling.hidden`): reading a record of
constants leaves no trace but these (`Expr.toScalar_silent`).
-/

namespace ChainQuery

/-! ## 1. What may be folded -/

namespace Expr

/-- Whether a constant of the type of an expression may be an object. -/
def isReadable : Expr → Bool
  | .new t _ => t.isComposite
  | _ => true

/-- **Whether the values of records of constants can be read**: each of them has the type of a row or
a record. -/
def foldsReadably (e : Expr) : Bool :=
  e.fold fun node below => if node.isConstant then node.isReadable else below.all id

theorem foldsReadably_eq (e : Expr) :
    e.foldsReadably = if e.isConstant then e.isReadable else e.children.all foldsReadably := by
  rw [foldsReadably, fold_eq, List.all_map]
  rfl

/-- **Records of constants in an expression may be folded**: their values can be read, their members are
hidden, and the aggregates are of `A`. -/
structure Foldable (schema : Schema) (hidden : Ty × String → Bool) (A : Correlated → Prop)
    (e : Expr) : Prop where
  readable : e.foldsReadably = true
  members : ∀ key ∈ e.foldedMembers, hidden key = true
  aggregates : ∀ c ∈ e.aggregates schema, A c

namespace Foldable

variable {schema : Schema} {hidden : Ty × String → Bool} {A : Correlated → Prop}

theorem child {e c : Expr} (h : e.Foldable schema hidden A) (he : e.isConstant = false)
    (hc : c ∈ e.children) : c.Foldable schema hidden A := by
  refine ⟨?_, fun key hkey => h.members key (foldedMembers_subset hc hkey),
    fun d hd => h.aggregates d (aggregates_subset hc hd)⟩
  have hreadable := h.readable
  rw [foldsReadably_eq, he] at hreadable
  exact List.all_eq_true.mp hreadable c hc

/-- A node that is no record and no aggregate may have what its children may have. -/
theorem of_children {e : Expr} (h : ∀ c ∈ e.children, c.Foldable schema hidden A)
    (he : e.isConstant = false) (haggregate : e.isAggregate = false) :
    e.Foldable schema hidden A := by
  refine ⟨?_, fun key hkey => ?_, fun c hc => ?_⟩
  · rw [foldsReadably_eq, he]
    exact List.all_eq_true.mpr fun c hc => (h c hc).readable
  · rw [foldedMembers_eq, he] at hkey
    obtain ⟨c, hc, hkey⟩ := List.mem_flatMap.mp hkey
    exact (h c hc).members key hkey
  · rcases mem_aggregates_cases hc with ⟨a, receiver, args, t, rfl, _⟩ | ⟨child, hchild, hc⟩
    · cases haggregate
    · exact (h child hchild).aggregates c hc

end Foldable

end Expr

/-! ## 2. Reading a record of constants -/

/-- **A computation that leaves no trace**: it reads no column, and builds hidden members only. -/
def ReadM.Silent {α : Type} (C : Coupling) (m : ReadM α) : Prop :=
  ∀ ⦃r a r'⦄, (m.run r).outcome = .ok (a, r') →
    r'.columns = r.columns ∧ r'.aliases.shown C = r.aliases.shown C

namespace ReadM.Silent

variable {C : Coupling} {α β : Type}

theorem pure (a : α) : Silent C (pure a : ReadM α) := by
  rintro r a r' ⟨⟩
  exact ⟨rfl, rfl⟩

theorem lift (x : Traced α) : Silent C (liftM x : ReadM α) := by
  intro r a r' h
  obtain ⟨_, _, h⟩ := Traced.bind_eq_ok.mp h
  cases h
  exact ⟨rfl, rfl⟩

theorem bind {m : ReadM α} {f : α → ReadM β} (hm : Silent C m) (hf : ∀ a, Silent C (f a)) :
    Silent C (m >>= f) := by
  intro r b r' h
  rw [StateT.run_bind] at h
  obtain ⟨⟨a, r''⟩, ha, hb⟩ := Traced.bind_eq_ok.mp h
  obtain ⟨hcolumns, haliases⟩ := hm ha
  obtain ⟨hcolumns', haliases'⟩ := hf a hb
  exact ⟨hcolumns'.trans hcolumns, haliases'.trans haliases⟩

theorem recordMember {owner : Ty} {member : String} (h : C.hidden (owner, member) = true) (s : Scalar) :
    Silent C (ReadM.recordMember owner member s) := by
  rintro r a r' ⟨⟩
  exact ⟨rfl, Aliases.shown_put_of_hidden h s _⟩

end ReadM.Silent

namespace Expr

variable {C : Coupling}

/-- **Reading a record of constants leaves no trace**, if its members are hidden. -/
theorem toScalar_silent {e : Expr} (h : e.isConstant = true)
    (hhidden : ∀ key ∈ e.foldedMembers, C.hidden key = true) :
    ReadM.Silent C (e.toScalar C.env) := by
  induction e using children_induction with
  | node e ih =>
    rcases cases_of_isConstant h with ⟨value, t, rfl⟩ | ⟨t, members, rfl, hconstant⟩
    · rw [toScalar]
      exact .lift _
    · have hmembers : ∀ m ∈ members, ReadM.Silent C (m.2.toScalar C.env) ∧
          C.hidden (t, propertyName m.1) = true := by
        intro m hm
        have hchild : m.2 ∈ (new t members).children := List.mem_map_of_mem hm
        refine ⟨ih m.2 hchild (hconstant m hm) fun key hkey =>
          hhidden key (foldedMembers_subset hchild hkey), hhidden _ ?_⟩
        rw [foldedMembers_eq, if_pos h]
        exact List.mem_append_left _ (List.mem_map_of_mem hm)
      have hread : ReadM.Silent C (readMembers C.env t members) := by
        clear ih h hhidden hconstant
        induction members with
        | nil => exact .pure ()
        | cons m rest ih =>
          obtain ⟨⟨hvalue, hkey⟩, hrest⟩ := List.forall_mem_cons.mp hmembers
          exact hvalue.bind fun s => (ReadM.Silent.recordMember hkey s).bind fun _ => ih hrest
      rw [toScalar]
      exact (ReadM.Silent.lift _).bind fun _ => hread.bind fun _ => .pure _

/-- **A record of constants is read like its value**, if its members are hidden. -/
theorem coupled_folded_of_isConstant (hrename : C.rename = id) (hconverse : ¬C.converse) {e : Expr}
    (h : e.isConstant = true) (hreadable : e.isReadable = true)
    (hhidden : ∀ key ∈ e.foldedMembers, C.hidden key = true) : e.Coupled C e.folded := by
  rcases cases_of_isConstant h with ⟨value, t, rfl⟩ | ⟨t, members, rfl, _⟩
  · exact .withChildren hrename rfl .nil
  · obtain ⟨entries, _, hfolded⟩ := folded_new h
    have ht : t.isComposite = true := hreadable
    rw [hfolded]
    intro r r' hr
    refine .of_exists hconverse fun ⟨s, after⟩ hs => ?_
    obtain ⟨hcolumns, haliases⟩ := toScalar_silent h hhidden hs
    have hcomposite : s = .composite (new t members).text := by
      rw [toScalar, StateT.run_bind] at hs
      obtain ⟨_, _, hs⟩ := Traced.bind_eq_ok.mp hs
      rw [StateT.run_bind] at hs
      obtain ⟨_, _, hs⟩ := Traced.bind_eq_ok.mp hs
      cases hs
      rfl
    refine ⟨(.composite (Literal.object entries).text, r'), ?_, hcomposite ▸ .composite _ _, ?_, ?_⟩
    · rw [toScalar, readConstant, if_pos ht]
      rfl
    · rw [hcolumns]
      exact hr.columns
    · unfold Aliases.Coupled
      rw [haliases]
      exact hr.aliases

end Expr

/-! ## 3. Aggregates -/

namespace Correlated

/-- An aggregate with the records of constants in its query replaced by their values. -/
def folded (c : Correlated) : Correlated := { c with query := c.query.folded }

variable {schema : Schema} {args : List Expr}

/-- **The filter and the projection of related rows are chosen alike over values.** -/
theorem clauses_folded {text : String} (text' : String) {a : Aggregate} {row : Parameter}
    {reference correlation : Expr} (hreference : reference.folded = reference)
    (hconstant : reference.isConstant = false) (hcorrelation : correlation.folded = correlation)
    {selector : Option Lambda} {predicate : Expr} {projection : Lambda} {nested : Bool}
    (h : clauses text a row reference correlation selector = .ok (predicate, projection, nested)) :
    clauses text' a row reference correlation (selector.map Lambda.folded)
      = .ok (predicate.folded, projection.folded, nested) := by
  cases selector with
  | none =>
    cases a with
    | count =>
      cases h
      rw [hcorrelation]
      rfl
    | sum | min | max | average => cases h
  | some l =>
    cases a with
    | count =>
      cases h
      rw [Expr.folded_eq (Expr.isConstant_eq_false (by simp) (by simp))]
      change _ = Except.ok (Expr.binary .and correlation.folded l.body.folded, _, _)
      rw [hcorrelation]
      rfl
    | sum | min | max | average =>
      simp only [clauses, Option.map_some, Lambda.folded, Expr.isAggregate_folded] at h ⊢
      split at h
      · rename_i haggregate
        cases h
        have hpair : (Expr.record "KeyValuePair"
            [("Key", reference), ("Value", l.body)]).isConstant = false := by
          simp [Expr.record, hconstant]
        rw [if_pos haggregate, hcorrelation, Expr.folded_eq hpair]
        simp [Expr.record, Expr.withChildren, Expr.children, Expr.rename, hreference]
      · rename_i haggregate
        cases h
        rw [if_neg haggregate, hcorrelation]

/-- The arguments of an aggregate over a navigation, with values.  How the row is reached has nothing
to fold. -/
def Call.folded (k : Call schema args) : Call schema (args.map Expr.folded) where
  navigation := k.navigation
  object := k.object
  path := k.path
  selector := k.selector.map Lambda.folded
  args_eq := by
    rw [arguments?_map_of_lambda (f := Expr.folded) (fun _ _ => rfl) k.args_eq]
    exact congrArg (fun object => some (k.navigation.collection object, _))
      (Expr.folded_of_memberPath? k.path_eq)
  type_eq := k.type_eq
  path_eq := k.path_eq
  arity := by
    intro l hl
    obtain ⟨l', hl', rfl⟩ := Option.map_eq_some_iff.mp hl
    exact k.arity l' hl'

theorem Call.row_folded (k : Call schema args) : k.folded.row = k.row :=
  Call.row_eq rfl (by rw [Call.folded, Option.map_map]; rfl)

/-- **The query of an aggregate over values is the query of the aggregate with its values.** -/
theorem ofCall_folded {a : Aggregate} {text : String} (text' : String) {c : Correlated}
    (hc : (ofCall schema text a args).outcome = .ok c) :
    (ofCall schema text' a (args.map Expr.folded)).outcome = .ok c.folded := by
  obtain ⟨k, predicate, projection, nested, hclauses, rfl⟩ := ofCall_eq_ok.mp hc
  have hkey : k.key.folded = k.key :=
    congrArg (Expr.member · _ _) (Expr.folded_of_memberPath? k.path_eq)
  have hcorrelation : (Expr.binary .equal k.reference k.key).folded = .binary .equal k.reference k.key :=
    congrArg (Expr.binary .equal k.reference) hkey
  have hclauses' := clauses_folded text' rfl rfl hcorrelation hclauses
  refine ofCall_eq_ok.mpr ⟨k.folded, predicate.folded, projection.folded, nested, ?_, ?_⟩
  · unfold Call.reference
    rw [k.row_folded]
    exact hclauses'
  · unfold Call.query
    rw [k.row_folded]
    rfl

/-- **Records of constants may be folded in the query of an aggregate** if they may in its
arguments. -/
theorem foldable_query {hidden : Ty × String → Bool} {A : Correlated → Prop} {a : Aggregate}
    {text : String} {c : Correlated} (h : ∀ arg ∈ args, arg.Foldable schema hidden A)
    (hc : (ofCall schema text a args).outcome = .ok c) :
    ∀ body ∈ c.query.bodies, body.Foldable schema hidden A := by
  refine forall_bodies_query hc
    (fun p => .of_children (by simp [Parameter.reference, Expr.children]) rfl rfl)
    (fun _ _ _ hobject => .of_children (List.forall_mem_singleton.mpr hobject) rfl rfl)
    (fun _ _ _ hleft hright =>
      .of_children (by simpa [Expr.children] using ⟨hleft, hright⟩) rfl rfl)
    (fun _ _ _ _ hkey hvalue => .of_children
      (by simpa [Expr.record, Expr.children] using ⟨hkey, hvalue⟩) ?_ rfl)
    (fun k => (h _ k.collection_mem).child rfl List.mem_cons_self)
    fun k l hl => (h _ (k.selector_mem hl)).child rfl List.mem_cons_self
  -- the key of a pair is a member of a row, which is no constant
  rw [Expr.record, Expr.isConstant_new]
  rfl

end Correlated

namespace Expr

/-- A record of constants calls no aggregate. -/
theorem aggregates_of_isConstant {schema : Schema} {e : Expr} (h : e.isConstant = true) :
    e.aggregates schema = [] := by
  induction e using children_induction with
  | node e ih =>
    have hcalled : e.called? schema = none := by
      rcases cases_of_isConstant h with ⟨value, t, rfl⟩ | ⟨t, members, rfl, _⟩ <;> rfl
    rw [aggregates_eq, hcalled]
    exact List.flatMap_eq_nil_iff.mpr fun c hc => ih c hc (isConstant_of_mem_children h hc)

/-- **Records of constants may be folded in the query of an aggregate** if they may around it. -/
theorem Foldable.query {schema : Schema} {hidden : Ty × String → Bool} {A : Correlated → Prop}
    {e : Expr} (h : e.Foldable schema hidden A) {c : Correlated} (hc : c ∈ e.aggregates schema) :
    ∀ body ∈ c.query.bodies, body.Foldable schema hidden A := by
  induction e using children_induction with
  | node e ih =>
    have hconstant : e.isConstant = false := by
      cases hconstant : e.isConstant with
      | false => rfl
      | true =>
        rw [aggregates_of_isConstant hconstant] at hc
        cases hc
    rcases mem_aggregates_cases hc with ⟨a, receiver, args, t, rfl, hcall⟩ | ⟨child, hchild, hc⟩
    · exact Correlated.foldable_query
        (fun arg harg => h.child hconstant (by simp [children, harg])) hcall
    · exact ih child hchild (h.child hconstant hchild) hc

end Expr

/-! ## 4. Reading -/

/-- **A run beside the run over values**, on aggregates of `A` that are not confused.  No aggregate
asks for a hidden member. -/
def Coupling.folded (env : Env) (hidden : Ty × String → Bool) (A : Correlated → Prop)
    (hA : ∀ c d, A c → A d → (c == d) = (c.folded == d.folded)) : Coupling :=
  { Coupling.ofAggregates env
      (fun c c' => (A c ∧ ∀ token ∈ c.query.reads env.schema, ∀ owner, token.owner? = some owner →
        hidden (owner, token.member) = false) ∧ c' = c.folded)
      (by
        rintro c _ d _ ⟨⟨hc, _⟩, rfl⟩ ⟨⟨hd, _⟩, rfl⟩
        exact hA c d hc hd) with
    hidden := hidden
    Reads := fun token => ∀ owner, token.owner? = some owner → hidden (owner, token.member) = false
    shown := fun _ owner htoken howner => htoken owner howner }

section Reading

variable {env : Env} {hidden : Ty × String → Bool} {A : Correlated → Prop}
  {hA : ∀ c d, A c → A d → (c == d) = (c.folded == d.folded)}

/-- **An expression is read alike with values in place of its records of constants**, if no column asks
for a member of one. -/
theorem Expr.coupled_folded (e : Expr) (h : e.Foldable env.schema hidden A)
    (hreads : ∀ token ∈ e.reads env.schema, (Coupling.folded env hidden A hA).Reads token) :
    e.Coupled (.folded env hidden A hA) e.folded := by
  induction e using children_induction with
  | node e ih =>
    cases hconstant : e.isConstant with
    | true =>
      have hreadable := h.readable
      rw [foldsReadably_eq, if_pos hconstant] at hreadable
      exact coupled_folded_of_isConstant rfl id hconstant hreadable h.members
    | false =>
      rw [folded_eq hconstant]
      cases hwhole : e.isReadWhole with
      | false =>
        refine .withChildren rfl hwhole (List.forall₂_map_right_iff.mpr (List.forall₂_same.mpr ?_))
        intro c hc
        refine ih c hc (h.child hconstant hc) fun token htoken => hreads token ?_
        rw [reads_eq_flatMap hwhole]
        exact List.mem_flatMap.mpr ⟨c, hc, htoken⟩
      | true =>
        cases e with
        | member object name t =>
          refine .member name t (fun path hpath ht => hreads _ ?_) object.memberPath?_folded ?_
          · rw [reads_member ht hpath]
            exact List.mem_cons_self
          · rw [type_folded]
        | call m receiver args t =>
          cases m with
          | aggregate a =>
            rw [← folded_eq hconstant, folded_call]
            refine .aggregate (.of_exists id fun c hc => ⟨c.folded, Correlated.ofCall_folded _ hc,
              ⟨h.aggregates c (mem_aggregates hc), fun token htoken => hreads token ?_⟩, rfl⟩)
            rw [reads_aggregate, List.flatMap_append]
            rcases List.mem_append.mp (Correlated.reads_query_subset hc htoken) with hkey | harg
            · exact List.mem_append_left _ hkey
            · exact List.mem_append_right _ (List.mem_append_right _ harg)
          | string | other => cases hwhole
        | _ => cases hwhole

theorem Lambda.coupled_folded {l : Lambda} (h : l.body.Foldable env.schema hidden A)
    (hreads : ∀ token ∈ l.body.reads env.schema, (Coupling.folded env hidden A hA).Reads token) :
    l.Coupled (.folded env hidden A hA) l.folded := by
  have htype : l.returnType = l.folded.returnType := l.body.type_folded.symm
  exact Lambda.coupled_of_body rfl (l.body.coupled_folded h hreads) (Or.inl htype)
    fun hne => absurd htype hne

/-- Folding leaves fewer members to offer. -/
theorem Query.offers_folded_subset (q : Query) : q.folded.offers ⊆ q.offers := by
  induction q with
  | select source selector ih =>
    refine List.append_subset.mpr ⟨List.subset_append_of_subset_left _ ?_,
      List.subset_append_of_subset_right _ ih⟩
    have htype : selector.folded.returnType = selector.returnType := selector.body.type_folded
    rw [Lambda.offers, Lambda.offers, htype]
    exact List.map_subset _ (List.filter_subset _ selector.body.built_folded_subset)
  | filter source predicate ih => exact ih
  | orderBy source key kind ih => exact ih
  | call method source args ih => exact ih
  | table | join | crossJoin => exact List.Subset.refl _

/-- What a query offers is offered alike over values, if none of it is hidden. -/
theorem Query.exported_folded {q : Query}
    (h : ∀ token ∈ q.offers, (Coupling.folded env hidden A hA).Reads token) (role : Role) :
    q.Exported (.folded env hidden A hA) role q.folded :=
  ⟨h, fun token htoken => h token (q.offers_folded_subset htoken), fun _ => h⟩

/-- **A query is read alike with values in place of its records of constants**, if no column asks for a
member of one. -/
theorem Query.coupled_folded {q : Query} (h : ∀ body ∈ q.bodies, body.Foldable env.schema hidden A)
    (hreads : ∀ token ∈ q.reads env.schema, (Coupling.folded env hidden A hA).Reads token) :
    q.Coupled (.folded env hidden A hA) q.folded := by
  induction q with
  | table rowType => exact .table rowType
  | select source selector ih =>
    obtain ⟨hbody, hbodies⟩ := List.forall_mem_cons.mp h
    obtain ⟨hsource, hselector⟩ := List.forall_mem_append.mp hreads
    exact .select (ih hbodies hsource) (Lambda.coupled_folded hbody hselector)
  | filter source predicate ih =>
    obtain ⟨hbody, hbodies⟩ := List.forall_mem_cons.mp h
    obtain ⟨hsource, hpredicate⟩ := List.forall_mem_append.mp hreads
    exact .filter (ih hbodies hsource) (Lambda.coupled_folded hbody hpredicate)
  | orderBy source key kind ih =>
    obtain ⟨hbody, hbodies⟩ := List.forall_mem_cons.mp h
    obtain ⟨hsource, hkey⟩ := List.forall_mem_append.mp hreads
    exact .orderBy (ih hbodies hsource) (Lambda.coupled_folded hbody hkey) kind
  | join outer inner outerKey innerKey result ihl ihr =>
    simp only [bodies, List.forall_mem_append, List.forall_mem_cons] at h
    obtain ⟨⟨⟨houterBody, hinnerBody, hresultBody, _⟩, houterBodies⟩, hinnerBodies⟩ := h
    simp only [reads, List.forall_mem_append] at hreads
    obtain ⟨⟨⟨⟨houter, hinner⟩, houterKey⟩, hinnerKey⟩, hresult⟩ := hreads
    exact .join (ihl houterBodies houter) (ihr hinnerBodies hinner)
      (Lambda.coupled_folded houterBody houterKey) (Lambda.coupled_folded hinnerBody hinnerKey)
      (Lambda.coupled_folded hresultBody hresult)
  | crossJoin source collection result ihl ihr =>
    simp only [bodies, List.forall_mem_append, List.forall_mem_cons] at h
    obtain ⟨⟨hbody, hsourceBodies⟩, hcollectionBodies⟩ := h
    simp only [reads, List.forall_mem_append] at hreads
    obtain ⟨⟨⟨⟨hsource, hcollection⟩, hresult⟩, hsourceOffers⟩, hcollectionOffers⟩ := hreads
    exact .crossJoin (ihl hsourceBodies hsource) (ihr hcollectionBodies hcollection)
      (exported_folded hsourceOffers _) (exported_folded hcollectionOffers _)
      (Lambda.coupled_folded hbody hresult)
  | call method source args ih => exact .call method (ih h hreads) _ _

end Reading

/-! ## 5. The theorem -/

namespace Query

/-- The members of the records of constants in a query, each with the type of the record. -/
def foldedMembers (q : Query) : List (Ty × String) := q.bodies.flatMap Expr.foldedMembers

/-- The columns that a query may ask for: those that it reads, and those by which the rows of its
aggregates may be ordered. -/
def asked (schema : Schema) (q : Query) : List ColumnToken :=
  q.reads schema ++ (q.aggregates schema).flatMap fun c => c.query.offers

/-- **Folding records of constants does not change the selection**, if the values of the records can be
read, no column asks for a member of one, and no two of the aggregates are equal before or after
only. -/
theorem toSelect_folded {env : Env} {q : Query} (h : ∀ e ∈ q.exprs, e.foldsRecordsOnly = true)
    (hreadable : ∀ body ∈ q.bodies, body.foldsReadably = true)
    (hasked : ∀ token ∈ q.asked env.schema, ∀ owner ∈ token.owner?,
      (owner, token.member) ∉ q.foldedMembers)
    (haggregates : ∀ c ∈ q.aggregates env.schema, ∀ d ∈ q.aggregates env.schema,
      (c == d) = (c.folded == d.folded))
    {select : Sql.Select} (hselect : (q.toSelect env).outcome = .ok select) :
    ∃ q', q.evaluate = .ok q' ∧ (q'.toSelect env).outcome = .ok select := by
  let hidden : Ty × String → Bool := q.foldedMembers.contains
  let C : Coupling := .folded env hidden (· ∈ q.aggregates env.schema)
    fun c d hc hd => haggregates c hc d hd
  have hasks : ∀ token ∈ q.asked env.schema, C.Reads token := by
    intro token htoken owner howner
    exact Bool.eq_false_iff.mpr fun hhidden =>
      hasked token htoken owner howner (List.contains_iff_mem.mp hhidden)
  have hfoldable : ∀ body ∈ q.bodies, body.Foldable env.schema hidden (· ∈ q.aggregates env.schema) :=
    fun body hbody => ⟨hreadable body hbody,
      fun key hkey => List.contains_iff_mem.mpr (List.mem_flatMap.mpr ⟨body, hbody, hkey⟩),
      fun c hc => List.mem_flatMap.mpr ⟨body, hbody, hc⟩⟩
  have hsound : C.Sound := by
    rintro c _ ⟨⟨hc, hreads⟩, rfl⟩
    have hoffers : ∀ token ∈ c.query.offers, C.Reads token := fun token htoken =>
      hasks token (List.mem_append_right _ (List.mem_flatMap.mpr ⟨c, hc, htoken⟩))
    obtain ⟨body, hbody, hc⟩ := List.mem_flatMap.mp hc
    exact ⟨Query.coupled_folded ((hfoldable body hbody).query hc) hreads, rfl, rfl,
      fun _ => exported_folded hoffers _⟩
  have hq : q.Coupled C q.folded := Query.coupled_folded hfoldable fun token htoken =>
    hasks token (List.mem_append_left _ htoken)
  exact ⟨q.folded, Query.evaluate_eq_folded h,
    hq.toSelect_eq hsound rfl q.aggregateDepth_folded hselect⟩

end Query

/-! ## 6. Tags -/

namespace Shop

/-- A record of one constant. -/
def tag : Expr := .record "Tag" [("Label", .constant (.string "x") (.scalar .string))]

/-- The names of customers with orders, each with the tag, where one string of the two is `"x"`. -/
def tagged (test : Parameter → Expr) : Query :=
  let c : Parameter := ⟨"c", .row "Customer"⟩
  let o : Parameter := ⟨"o", .row "Order"⟩
  let pair : Expr := .record "Tagged" [("Name", field c "Name"), ("Tag", tag)]
  let r : Parameter := ⟨"r", pair.type⟩
  .filter
    (.join (.table "Customer") (.table "Order") ⟨[c], field c "Id"⟩ ⟨[o], field o "CustomerId"⟩
      ⟨[c, o], pair⟩)
    ⟨[r], .binary .equal (test r) (.constant (.string "x") (.scalar .string))⟩

/-- The name in a pair. -/
def taggedName (r : Parameter) : Expr := r.member "Name" (.scalar .string)

/-- The label of the tag in a pair. -/
def taggedLabel (r : Parameter) : Expr :=
  .member (r.member "Tag" tag.type) "Label" (.scalar .string)

end Shop

namespace Query

/-- A record of constants that nothing is asked of. -/
theorem toSelect_taggedName :
    let env : Env := ⟨Shop.schema, {}⟩
    let q := Shop.tagged Shop.taggedName
    (∀ e ∈ q.exprs, e.foldsRecordsOnly = true) ∧
    (∀ body ∈ q.bodies, body.foldsReadably = true) ∧
    (∀ token ∈ q.asked env.schema, ∀ owner ∈ token.owner?,
      (owner, token.member) ∉ q.foldedMembers) ∧
    (∀ c ∈ q.aggregates env.schema, ∀ d ∈ q.aggregates env.schema,
      (c == d) = (c.folded == d.folded)) ∧
    q.foldedMembers ≠ [] ∧
    ∃ select q', (q.toSelect env).outcome = .ok select ∧ q.evaluate = .ok q' ∧
      (q'.toSelect env).outcome = .ok select := by
  intro env q
  have h : ∀ e ∈ q.exprs, e.foldsRecordsOnly = true := by decide
  have hreadable : ∀ body ∈ q.bodies, body.foldsReadably = true := by decide
  have hasked : ∀ token ∈ q.asked env.schema, ∀ owner ∈ token.owner?,
      (owner, token.member) ∉ q.foldedMembers := by decide
  have haggregates : ∀ c ∈ q.aggregates env.schema, ∀ d ∈ q.aggregates env.schema,
      (c == d) = (c.folded == d.folded) := by decide
  have hfolded : ∃ q', q.evaluate = .ok q' ∧ (q'.toSelect env).outcome = .ok _ :=
    toSelect_folded h hreadable hasked haggregates rfl
  obtain ⟨q', hevaluate, hselect⟩ := hfolded
  exact ⟨h, hreadable, hasked, haggregates, by decide, _, q', rfl, hevaluate, hselect⟩

/-- **A member of a folded record is not known again.**  The label of the tag is compiled as the
constant that it is, but not when the tag has become a value before. -/
theorem toSelect_taggedLabel :
    let env : Env := ⟨Shop.schema, {}⟩
    let q := Shop.tagged Shop.taggedLabel
    (∀ e ∈ q.exprs, e.foldsRecordsOnly = true) ∧ (∃ select, (q.toSelect env).outcome = .ok select) ∧
      ∃ q', q.evaluate = .ok q' ∧
        (q'.toSelect env).outcome = .error (.unresolvedColumn "Tag.Label") :=
  ⟨by decide, ⟨_, rfl⟩, _, rfl, rfl⟩

end Query

end ChainQuery
