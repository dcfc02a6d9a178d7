import ChainQuery.Proofs.Compile.Aggregates
import ChainQuery.Proofs.Expr.Names
import ChainQuery.Proofs.Coupling.Selection
import ChainQuery.Schema.Shop
/-!
# Names of parameters

What a parameter stands for is known by its type, so no column hangs on a name.  But aggregates are
told apart by their queries, names included: where two are equal, one column is selected for both, and
an ordering by one is restated as the other's output.  If other names leave equal aggregates equal and
different ones different, a query compiles to the same selection under them
(`Query.toSelect_renamed`).

The two sides are compared place by place: aggregates at the same places of two expressions that
differ in names only differ in names only themselves (`Expr.Renamed.query`).
-/

namespace ChainQuery

/-! ## 1. The query of an aggregate -/

/-- An aggregate without the names of parameters. -/
def Correlated.unnamed (c : Correlated) : Correlated := { c with query := c.query.unnamed }

namespace Correlated

variable {schema : Schema} {args args' : List Expr}

theorem arguments?_unnamed (args : List Expr) :
    arguments? (args.map Expr.unnamed)
      = (arguments? args).map fun x => (x.1.unnamed, x.2.map Lambda.unnamed) := by
  rcases args with _ | ⟨source, _ | ⟨selector, _ | ⟨third, rest⟩⟩⟩
  · rfl
  · rfl
  · cases selector with
    | call m receiver args t => cases receiver <;> rfl
    | _ => rfl
  · cases selector with
    | call m receiver args t => cases receiver <;> rfl
    | _ => rfl

/-- **The filter and the projection of related rows are chosen alike under other names.** -/
theorem clauses_of_unnamed {text : String} (text' : String) {a : Aggregate} {row row' : Parameter}
    {reference reference' correlation correlation' : Expr} {selector selector' : Option Lambda}
    (hrow : row.unnamed = row'.unnamed) (hreference : reference.unnamed = reference'.unnamed)
    (hcorrelation : correlation.unnamed = correlation'.unnamed)
    (hselector : selector.map Lambda.unnamed = selector'.map Lambda.unnamed)
    {predicate : Expr} {projection : Lambda} {nested : Bool}
    (h : clauses text a row reference correlation selector = .ok (predicate, projection, nested)) :
    ∃ predicate' projection',
      clauses text' a row' reference' correlation' selector'
        = .ok (predicate', projection', nested) ∧
      predicate.unnamed = predicate'.unnamed ∧ projection.unnamed = projection'.unnamed := by
  have hidentity : (Lambda.identity row).unnamed = (Lambda.identity row').unnamed := by
    have htype : row.type = row'.type := (Parameter.mk.inj hrow).2
    simp [Lambda.identity, Lambda.unnamed, Parameter.reference, hrow, htype]
  cases selector with
  | none =>
    obtain rfl : selector' = none := by simpa using hselector.symm
    cases a with
    | count =>
      cases h
      exact ⟨_, _, rfl, hcorrelation, hidentity⟩
    | sum | min | max | average => cases h
  | some l =>
    obtain ⟨l', rfl, hl⟩ := Option.map_eq_some_iff.mp hselector.symm
    have hbody : l.body.unnamed = l'.body.unnamed := (congrArg Lambda.body hl).symm
    cases a with
    | count =>
      cases h
      refine ⟨_, _, rfl, ?_, hidentity⟩
      rw [Expr.unnamed_binary, Expr.unnamed_binary, hcorrelation, hbody]
    | sum | min | max | average =>
      have haggregate : l.body.isAggregate = l'.body.isAggregate := by
        rw [← Expr.isAggregate_unnamed, hbody, Expr.isAggregate_unnamed]
      simp only [clauses] at h ⊢
      rw [← haggregate]
      split at h
      · rename_i hnested
        cases h
        rw [if_pos hnested]
        refine ⟨_, _, rfl, hcorrelation, ?_⟩
        have hpair : (Expr.record "KeyValuePair" [("Key", reference), ("Value", l.body)]).unnamed
            = (Expr.record "KeyValuePair" [("Key", reference'), ("Value", l'.body)]).unnamed :=
          Expr.unnamed_record (by simp [hreference, hbody])
        rw [Lambda.unnamed, Lambda.unnamed, hpair, List.map_singleton, List.map_singleton, hrow]
      · rename_i hnested
        cases h
        rw [if_neg hnested]
        exact ⟨_, _, rfl, hcorrelation, hl.symm⟩

theorem Call.row_of_unnamed (k : Call schema args) (k' : Call schema args')
    (hchild : k.navigation.childName = k'.navigation.childName)
    (hselector : k.selector.map Lambda.unnamed = k'.selector.map Lambda.unnamed) :
    k.row.unnamed = k'.row.unnamed := by
  have hfirst : ∀ (selector : Option Lambda) (p : Parameter),
      ((selector.bind fun l => l.params.head?).getD p).unnamed
        = ((selector.map Lambda.unnamed).bind fun l => l.params.head?).getD p.unnamed := by
    intro selector p
    rcases selector with _ | ⟨_ | ⟨first, rest⟩, body⟩ <;> rfl
  rw [Call.row, Call.row, hfirst, hfirst, hselector, hchild]

/-- **The query of an aggregate is the same but for names if the call is.** -/
theorem ofCall_of_unnamed {text : String} (text' : String) {a : Aggregate}
    (hargs : args.map Expr.unnamed = args'.map Expr.unnamed) {c : Correlated}
    (hc : (ofCall schema text a args).outcome = .ok c) :
    ∃ c', (ofCall schema text' a args').outcome = .ok c' ∧ c.unnamed = c'.unnamed := by
  obtain ⟨k, predicate, projection, nested, hclauses, rfl⟩ := ofCall_eq_ok.mp hc
  have harguments := arguments?_unnamed args'
  rw [← hargs, arguments?_unnamed, k.args_eq] at harguments
  obtain ⟨⟨source, selector⟩, hargs', hsame⟩ := Option.map_eq_some_iff.mp harguments.symm
  obtain ⟨hsource, hselector⟩ := Prod.mk.inj hsame
  obtain ⟨object, rfl, hobject⟩ := Expr.exists_of_unnamed_member hsource.symm
  let k' : Call schema args' := {
    navigation := k.navigation
    object := object
    path := k.path
    selector := selector
    args_eq := hargs'
    type_eq := by rw [← Expr.type_unnamed, ← hobject, Expr.type_unnamed, k.type_eq]
    path_eq := by rw [← Expr.memberPath?_unnamed, ← hobject, Expr.memberPath?_unnamed, k.path_eq]
    arity := by
      rintro l' rfl
      obtain ⟨l, hl, hlambda⟩ := Option.map_eq_some_iff.mp hselector.symm
      have hparams := congrArg List.length (Lambda.mk.inj hlambda).1
      rw [List.length_map, List.length_map] at hparams
      rw [← hparams, k.arity l hl] }
  have hrow : k.row.unnamed = k'.row.unnamed := Call.row_of_unnamed k k' rfl hselector.symm
  have hreference : k.reference.unnamed = k'.reference.unnamed := by
    simp [Call.reference, Parameter.member, Parameter.reference, (Parameter.mk.inj hrow).2, k']
  have hkey : k.key.unnamed = k'.key.unnamed := congrArg (Expr.member · _ _) hobject
  have hcorrelation : (Expr.binary .equal k.reference k.key).unnamed
      = (Expr.binary .equal k'.reference k'.key).unnamed := by
    rw [Expr.unnamed_binary, Expr.unnamed_binary, hreference, hkey]
  obtain ⟨predicate', projection', hclauses', hpredicate, hprojection⟩ :=
    clauses_of_unnamed text' hrow hreference hcorrelation hselector.symm hclauses
  refine ⟨_, ofCall_eq_ok.mpr ⟨k', predicate', projection', nested, hclauses', rfl⟩, ?_⟩
  have hfilter : Lambda.unnamed ⟨[k.row], predicate⟩ = Lambda.unnamed ⟨[k'.row], predicate'⟩ := by
    simp [Lambda.unnamed, hrow, hpredicate]
  simp only [Correlated.unnamed, Call.query, Query.unnamed, hfilter, hprojection, k']

end Correlated

/-! ## 2. Aggregates at the same places -/

/-- Corresponding elements of lists that are made part by part are corresponding elements of the
parts. -/
theorem zip_flatMap {α β γ δ : Type} {f : α → List γ} {g : β → List δ} {xs : List α} {ys : List β}
    (h : List.Forall₂ (fun x y => (f x).length = (g y).length) xs ys) :
    (xs.flatMap f).zip (ys.flatMap g) = (xs.zip ys).flatMap fun m => (f m.1).zip (g m.2) := by
  induction h with
  | nil => rfl
  | cons hxy _ ih =>
    rw [List.flatMap_cons, List.flatMap_cons, List.zip_append hxy, ih, List.zip_cons_cons,
      List.flatMap_cons]

/-- Related lists, each made of two parts, are related part by part. -/
theorem forall₂_append {α β : Type} {R : α → β → Prop} {xs xs' : List α} {ys ys' : List β}
    (h : List.Forall₂ R (xs ++ xs') (ys ++ ys')) (hlength : xs.length = ys.length) :
    List.Forall₂ R xs ys ∧ List.Forall₂ R xs' ys' := by
  induction xs generalizing ys with
  | nil =>
    obtain rfl := List.length_eq_zero_iff.mp hlength.symm
    exact ⟨.nil, h⟩
  | cons x xs ih =>
    obtain ⟨y, ys, rfl⟩ := List.exists_cons_of_length_eq_add_one hlength.symm
    obtain ⟨hxy, hrest⟩ := List.forall₂_cons.mp h
    exact (ih hrest (Nat.succ.inj hlength)).imp_left (.cons hxy)

namespace Expr

variable {schema : Schema}

/-- A call under other names, whose arguments are at the same places among the children. -/
theorem exists_of_unnamed_call {m : Method} {receiver : Option Expr} {args : List Expr} {t : Ty}
    {e : Expr} (h : (call m receiver args t).unnamed = e.unnamed) :
    ∃ receiver' args', e = .call m receiver' args' t ∧
      List.Forall₂ (fun c c' => c.unnamed = c'.unnamed) args args' ∧
      args.zip args' ⊆ (call m receiver args t).children.zip e.children := by
  rcases cases_of_unnamed h with ⟨_, _, _, ⟨⟩, _⟩ | ⟨_, _, _, _, ⟨⟩, _⟩ | ⟨_, he⟩
  have hchildren := forall₂_children_of_unnamed h
  cases receiver with
  | none => exact ⟨none, e.children, he, hchildren, List.Subset.refl _⟩
  | some r =>
    obtain ⟨r', args', _, hargs, hsame⟩ := List.forall₂_cons_left_iff.mp hchildren
    rw [hsame] at he
    rw [hsame]
    exact ⟨some r', args', he, hargs, List.subset_cons_self _ _⟩

/-- Under other names the same aggregate is called at the root, but for names. -/
theorem called?_of_unnamed {e e' : Expr} (h : e.unnamed = e'.unnamed) {c : Correlated}
    (hc : e.called? schema = some c) :
    ∃ c', e'.called? schema = some c' ∧ c.unnamed = c'.unnamed := by
  obtain ⟨a, receiver, args, t, rfl, hcall⟩ := called?_eq_some.mp hc
  obtain ⟨receiver', args', rfl, hargs, _⟩ := exists_of_unnamed_call h
  have hargs : args.map unnamed = args'.map unnamed := by
    rw [← List.forall₂_eq_eq_eq]
    exact List.forall₂_map_left_iff.mpr (List.forall₂_map_right_iff.mpr hargs)
  obtain ⟨c', hc', hsame⟩ := Correlated.ofCall_of_unnamed _ hargs hcall
  exact ⟨c', called?_eq_some.mpr ⟨a, receiver', args', t, rfl, hc'⟩, hsame⟩

theorem length_called?_of_unnamed {e e' : Expr} (h : e.unnamed = e'.unnamed) :
    (e.called? schema).toList.length = (e'.called? schema).toList.length := by
  cases hc : e.called? schema with
  | some c =>
    obtain ⟨c', hc', _⟩ := called?_of_unnamed h hc
    rw [hc']
    rfl
  | none =>
    cases hc' : e'.called? schema with
    | none => rfl
    | some c' =>
      obtain ⟨c, hc'', _⟩ := called?_of_unnamed h.symm hc'
      rw [hc] at hc''
      cases hc''

/-- **Expressions that differ in names only have as many aggregates.** -/
theorem length_aggregates_of_unnamed {e e' : Expr} (h : e.unnamed = e'.unnamed) :
    (e.aggregates schema).length = (e'.aggregates schema).length := by
  induction e using children_induction generalizing e' with
  | node e ih =>
    have hchildren : List.Forall₂ (fun c c' =>
        (c.aggregates schema).length = (c'.aggregates schema).length) e.children e'.children :=
      ((List.forall₂_and_left _ _).mpr ⟨ih, forall₂_children_of_unnamed h⟩).imp
        fun _ _ hc => hc.1 hc.2
    have hbelow : (e.children.map fun c => (c.aggregates schema).length)
        = e'.children.map fun c => (c.aggregates schema).length := by
      rw [← List.forall₂_eq_eq_eq]
      exact List.forall₂_map_left_iff.mpr (List.forall₂_map_right_iff.mpr hchildren)
    rw [e.aggregates_eq, e'.aggregates_eq, List.length_append, List.length_append,
      length_called?_of_unnamed h, List.length_flatMap, List.length_flatMap, hbelow]

/-- **Aggregates at the same places** are both at the root, or at the same places of a child. -/
theorem zip_aggregates {e e' : Expr} (h : e.unnamed = e'.unnamed) :
    (e.aggregates schema).zip (e'.aggregates schema)
      = (e.called? schema).toList.zip (e'.called? schema).toList
        ++ (e.children.zip e'.children).flatMap
          fun m => (m.1.aggregates schema).zip (m.2.aggregates schema) := by
  rw [e.aggregates_eq, e'.aggregates_eq, List.zip_append (length_called?_of_unnamed h), zip_flatMap]
  exact (forall₂_children_of_unnamed h).imp fun _ _ hc => length_aggregates_of_unnamed hc

variable {pairs : List (Correlated × Correlated)} {e e' : Expr}

/-- **Expressions that differ in names only**, with aggregates at the same places that are among the
given pairs. -/
structure Renamed (schema : Schema) (pairs : List (Correlated × Correlated)) (e e' : Expr) : Prop where
  unnamed : e.unnamed = e'.unnamed
  aggregates : (e.aggregates schema).zip (e'.aggregates schema) ⊆ pairs

namespace Renamed

theorem children (h : e.Renamed schema pairs e') :
    List.Forall₂ (Renamed schema pairs) e.children e'.children := by
  obtain ⟨hlength, hunnamed⟩ := List.forall₂_iff_zip.mp (forall₂_children_of_unnamed h.unnamed)
  refine List.forall₂_iff_zip.mpr ⟨hlength, fun {c c'} hc => ⟨hunnamed hc, fun p hp => ?_⟩⟩
  apply h.aggregates
  rw [zip_aggregates h.unnamed]
  exact List.mem_append_right _ (List.mem_flatMap.mpr ⟨(c, c'), hc, hp⟩)

/-- **Aggregates at the same places differ in names only**, and so do the aggregates in their
queries. -/
theorem query (h : e.Renamed schema pairs e') {c c' : Correlated}
    (hc : (c, c') ∈ (e.aggregates schema).zip (e'.aggregates schema)) :
    c.unnamed = c'.unnamed ∧
      (c.query.aggregates schema).zip (c'.query.aggregates schema) ⊆ pairs := by
  induction e using children_induction generalizing e' with
  | node e ih =>
    have hchildren := List.forall₂_iff_zip.mp h.children
    rw [zip_aggregates h.unnamed] at hc
    rcases List.mem_append.mp hc with hroot | hbelow
    · obtain ⟨hcalled, hcalled'⟩ := List.of_mem_zip hroot
      rw [Option.mem_toList] at hcalled hcalled'
      obtain ⟨d, hd, hsame⟩ := called?_of_unnamed h.unnamed hcalled
      obtain rfl : c' = d := Option.some.inj (hcalled'.symm.trans hd)
      refine ⟨hsame, ?_⟩
      obtain ⟨a, receiver, args, t, rfl, hcall⟩ := called?_eq_some.mp hcalled
      obtain ⟨receiver', args', rfl, hargs, hplaces⟩ := exists_of_unnamed_call h.unnamed
      obtain ⟨_, _, _, _, ⟨⟩, hcall'⟩ := called?_eq_some.mp hcalled'
      rw [Correlated.aggregates_query hcall, Correlated.aggregates_query hcall',
        zip_flatMap (hargs.imp fun _ _ hc => length_aggregates_of_unnamed hc)]
      intro p hp
      obtain ⟨m, hm, hp⟩ := List.mem_flatMap.mp hp
      exact (hchildren.2 (hplaces hm)).aggregates hp
    · obtain ⟨m, hm, hp⟩ := List.mem_flatMap.mp hbelow
      exact ih m.1 (List.of_mem_zip hm).1 (hchildren.2 hm) hp

end Renamed

end Expr

namespace Query

variable {schema : Schema} {pairs : List (Correlated × Correlated)} {q q' : Query}

theorem bodies_unnamed (q : Query) : q.unnamed.bodies = q.bodies.map Expr.unnamed := by
  induction q <;> simp_all [unnamed, bodies, Lambda.unnamed]

theorem forall₂_bodies_of_unnamed (h : q.unnamed = q'.unnamed) :
    List.Forall₂ (fun body body' => body.unnamed = body'.unnamed) q.bodies q'.bodies := by
  have hbodies := congrArg bodies h
  rw [bodies_unnamed, bodies_unnamed, ← List.forall₂_eq_eq_eq] at hbodies
  exact List.forall₂_map_right_iff.mp (List.forall₂_map_left_iff.mp hbodies)

/-- Aggregates at the same places are at the same places of a lambda. -/
theorem zip_aggregates (h : q.unnamed = q'.unnamed) :
    (q.aggregates schema).zip (q'.aggregates schema)
      = (q.bodies.zip q'.bodies).flatMap
        fun m => (m.1.aggregates schema).zip (m.2.aggregates schema) :=
  zip_flatMap ((forall₂_bodies_of_unnamed h).imp
    fun _ _ hb => Expr.length_aggregates_of_unnamed hb)

/-- **Queries that differ in names only are made of such lambdas.** -/
theorem renamed_bodies (h : q.unnamed = q'.unnamed)
    (hpairs : (q.aggregates schema).zip (q'.aggregates schema) ⊆ pairs) :
    List.Forall₂ (Expr.Renamed schema pairs) q.bodies q'.bodies := by
  obtain ⟨hlength, hunnamed⟩ := List.forall₂_iff_zip.mp (forall₂_bodies_of_unnamed h)
  refine List.forall₂_iff_zip.mpr ⟨hlength, fun {e e'} he => ⟨hunnamed he, fun p hp => ?_⟩⟩
  apply hpairs
  rw [zip_aggregates h]
  exact List.mem_flatMap.mpr ⟨(e, e'), he, hp⟩

end Query

/-! ## 3. Reading -/

/-- **A run beside the run under other names**, on pairs of aggregates that are not confused. -/
def Coupling.renamed (env : Env) (pairs : List (Correlated × Correlated))
    (hpairs : ∀ p ∈ pairs, ∀ r ∈ pairs, (p.1 == r.1) = (p.2 == r.2)) : Coupling :=
  .ofAggregates env (fun c c' => (c, c') ∈ pairs) fun hc hd => hpairs _ hc _ hd

section Reading

variable {env : Env} {pairs : List (Correlated × Correlated)}
  {hpairs : ∀ p ∈ pairs, ∀ r ∈ pairs, (p.1 == r.1) = (p.2 == r.2)}

/-- **An expression is read alike under other names.** -/
theorem Expr.Renamed.coupled {e e' : Expr} (h : e.Renamed env.schema pairs e') :
    e.Coupled (.renamed env pairs hpairs) e' := by
  induction e using children_induction generalizing e' with
  | node e ih =>
    have hchildren : List.Forall₂ (Coupled (.renamed env pairs hpairs)) e.children e'.children :=
      ((List.forall₂_and_left _ _).mpr ⟨ih, h.children⟩).imp fun _ _ hc => hc.1 hc.2
    rcases cases_of_unnamed h.unnamed with ⟨name, name', t, rfl, rfl⟩ |
      ⟨params, params', body, body', rfl, rfl, _⟩ | ⟨_, he⟩
    · exact .parameter name name' t t
    · exact .throw _ _
    · cases hwhole : e.isReadWhole with
      | false =>
        rw [he]
        exact .withChildren rfl hwhole hchildren
      | true =>
        cases e with
        | member object name t =>
          obtain ⟨object', rfl, hobject⟩ := exists_of_unnamed_member h.unnamed
          refine .member name t (fun _ _ _ => trivial) ?_ ?_
          · rw [← memberPath?_unnamed, ← hobject, memberPath?_unnamed]
          · rw [← type_unnamed, ← hobject, type_unnamed]
        | call m receiver args t =>
          cases m with
          | aggregate a =>
            obtain ⟨receiver', args', rfl, _⟩ := exists_of_unnamed_call h.unnamed
            refine .aggregate (.of_exists id fun c hc => ?_)
            have hcalled : (call (.aggregate a) receiver args t).called? env.schema = some c :=
              called?_eq_some.mpr ⟨a, receiver, args, t, rfl, hc⟩
            obtain ⟨c', hc', _⟩ := called?_of_unnamed h.unnamed hcalled
            obtain ⟨_, _, _, _, ⟨⟩, hcall'⟩ := called?_eq_some.mp hc'
            refine ⟨c', hcall', h.aggregates ?_⟩
            rw [zip_aggregates h.unnamed, hcalled, hc']
            exact List.mem_cons_self
          | string | other => cases hwhole
        | _ => cases hwhole

/-- A lambda is read alike under other names. -/
theorem Lambda.coupled_renamed {l l' : Lambda} (h : l.unnamed = l'.unnamed)
    (hbody : l.body.Renamed env.schema pairs l'.body) : l.Coupled (.renamed env pairs hpairs) l' := by
  obtain ⟨hparams, _⟩ := Lambda.mk.inj h
  have htype : l.returnType = l'.returnType := by
    rw [Lambda.returnType, ← Expr.type_unnamed, hbody.unnamed, Expr.type_unnamed, Lambda.returnType]
  exact Lambda.coupled_of_body (Parameter.map_type_of_unnamed hparams) hbody.coupled (Or.inl htype)
    fun hne => absurd htype hne

/-- **A query is read alike under other names.** -/
theorem Query.coupled_renamed {q q' : Query} (h : q.unnamed = q'.unnamed)
    (hbodies : List.Forall₂ (Expr.Renamed env.schema pairs) q.bodies q'.bodies) :
    q.Coupled (.renamed env pairs hpairs) q' := by
  induction q generalizing q' with
  | table rowType =>
    cases q' with
    | table rowType' =>
      cases h
      exact .table rowType
    | _ => cases h
  | select source selector ih =>
    cases q' with
    | select =>
      obtain ⟨hsource, hselector⟩ := select.inj h
      obtain ⟨hbody, hrest⟩ := List.forall₂_cons.mp hbodies
      exact .select (ih hsource hrest) (Lambda.coupled_renamed hselector hbody)
    | _ => cases h
  | filter source predicate ih =>
    cases q' with
    | filter =>
      obtain ⟨hsource, hpredicate⟩ := filter.inj h
      obtain ⟨hbody, hrest⟩ := List.forall₂_cons.mp hbodies
      exact .filter (ih hsource hrest) (Lambda.coupled_renamed hpredicate hbody)
    | _ => cases h
  | orderBy source key kind ih =>
    cases q' with
    | orderBy =>
      obtain ⟨hsource, hkey, rfl⟩ := orderBy.inj h
      obtain ⟨hbody, hrest⟩ := List.forall₂_cons.mp hbodies
      exact .orderBy (ih hsource hrest) (Lambda.coupled_renamed hkey hbody) _
    | _ => cases h
  | join outer inner outerKey innerKey result ihl ihr =>
    cases q' with
    | join =>
      obtain ⟨houter, hinner, houterKey, hinnerKey, hresult⟩ := join.inj h
      obtain ⟨hfirst, hinnerBodies⟩ := forall₂_append hbodies
        (by simp [(forall₂_bodies_of_unnamed houter).length_eq])
      obtain ⟨hlambdas, houterBodies⟩ := forall₂_append hfirst rfl
      simp only [List.forall₂_cons] at hlambdas
      exact .join (ihl houter houterBodies) (ihr hinner hinnerBodies)
        (Lambda.coupled_renamed houterKey hlambdas.1)
        (Lambda.coupled_renamed hinnerKey hlambdas.2.1)
        (Lambda.coupled_renamed hresult hlambdas.2.2.1)
    | _ => cases h
  | crossJoin source collection result ihl ihr =>
    cases q' with
    | crossJoin =>
      obtain ⟨hsource, hcollection, hresult⟩ := crossJoin.inj h
      obtain ⟨hfirst, hcollectionBodies⟩ := forall₂_append hbodies
        (by simp [(forall₂_bodies_of_unnamed hsource).length_eq])
      obtain ⟨hbody, hsourceBodies⟩ := List.forall₂_cons.mp hfirst
      exact .crossJoin (ihl hsource hsourceBodies) (ihr hcollection hcollectionBodies)
        (.of_shows (fun _ _ _ => rfl) fun _ => trivial) (.of_shows (fun _ _ _ => rfl) fun _ => trivial)
        (Lambda.coupled_renamed hresult hbody)
    | _ => cases h
  | call method source args ih =>
    cases q' with
    | call =>
      obtain ⟨rfl, hsource, _⟩ := call.inj h
      exact .call _ (ih hsource hbodies) _ _
    | _ => cases h

end Reading

/-! ## 4. The theorem -/

/-- **Names of parameters do not matter**: queries that differ in nothing else compile to the same
selection, if no two aggregates of one are equal whose counterparts in the other are not. -/
theorem Query.toSelect_renamed {env : Env} {q q' : Query} (h : q.unnamed = q'.unnamed)
    (haggregates : ∀ p ∈ (q.aggregates env.schema).zip (q'.aggregates env.schema),
      ∀ r ∈ (q.aggregates env.schema).zip (q'.aggregates env.schema), (p.1 == r.1) = (p.2 == r.2))
    {select : Sql.Select} (hselect : (q.toSelect env).outcome = .ok select) :
    (q'.toSelect env).outcome = .ok select := by
  let pairs := (q.aggregates env.schema).zip (q'.aggregates env.schema)
  have hbodies : List.Forall₂ (Expr.Renamed env.schema pairs) q.bodies q'.bodies :=
    Query.renamed_bodies h (List.Subset.refl _)
  have hsound : (Coupling.renamed env pairs haggregates).Sound := by
    intro c c' hc
    have hc : (c, c') ∈ (q.aggregates env.schema).zip (q'.aggregates env.schema) := hc
    rw [Query.zip_aggregates h] at hc
    obtain ⟨m, hm, hc⟩ := List.mem_flatMap.mp hc
    obtain ⟨hsame, hinner⟩ := ((List.forall₂_iff_zip.mp hbodies).2 hm).query hc
    obtain ⟨hquery, haggregate, hnested⟩ := Correlated.mk.inj hsame
    exact ⟨Query.coupled_renamed hquery (Query.renamed_bodies hquery hinner), haggregate, hnested,
      fun _ => .of_shows (fun _ _ _ => rfl) fun _ => trivial⟩
  have hdepth : q'.aggregateDepth = q.aggregateDepth := by
    rw [← q.aggregateDepth_unnamed, h, q'.aggregateDepth_unnamed]
  exact (Query.coupled_renamed h hbodies).toSelect_eq hsound rfl hdepth hselect

/-! ## 5. Numbers of orders -/

namespace Shop

/-- The number of orders of a customer. -/
def orderCount (c : Parameter) : Expr :=
  .aggregate .count (field c "Orders") none (.scalar .int32)

/-- Customers in the order of their numbers of orders, each with that number for every line of an
order.  The customer is named twice, in the ordering and in the projection. -/
def orderCounts (sorted projected : String) : Query :=
  let sorted : Parameter := ⟨sorted, .row "Customer"⟩
  let projected : Parameter := ⟨projected, .row "Customer"⟩
  let card : Expr := .record "Card" [("Number", orderCount projected)]
  let c : Parameter := ⟨"card", card.type⟩
  let l : Parameter := ⟨"l", .row "OrderLine"⟩
  .crossJoin
    (.select (.orderBy (.table "Customer") ⟨[sorted], orderCount sorted⟩ .orderBy)
      ⟨[projected], card⟩)
    (.table "OrderLine") ⟨[c, l], c.member "Number" (.scalar .int32)⟩

end Shop

/-- Another name for the customer in both places. -/
theorem Query.toSelect_renamedCustomer :
    let env : Env := ⟨Shop.schema, {}⟩
    let q := Shop.orderCounts "c" "c"
    let q' := Shop.orderCounts "customer" "customer"
    q.unnamed = q'.unnamed ∧
    (∀ p ∈ (q.aggregates env.schema).zip (q'.aggregates env.schema),
      ∀ r ∈ (q.aggregates env.schema).zip (q'.aggregates env.schema),
        (p.1 == r.1) = (p.2 == r.2)) ∧
    ∃ select, (q.toSelect env).outcome = .ok select ∧ (q'.toSelect env).outcome = .ok select := by
  intro env q q'
  have haggregates : ∀ p ∈ (q.aggregates env.schema).zip (q'.aggregates env.schema),
      ∀ r ∈ (q.aggregates env.schema).zip (q'.aggregates env.schema),
        (p.1 == r.1) = (p.2 == r.2) := by decide
  have hsame : q.unnamed = q'.unnamed := rfl
  exact ⟨hsame, haggregates, _, rfl, Query.toSelect_renamed hsame haggregates rfl⟩

/-- **Under another name an aggregate is not known again.**  The ordering by a number that the
projection selects is restated in terms of its output, unless the two name the customer
differently. -/
theorem Query.toSelect_renamedProjection :
    let env : Env := ⟨Shop.schema, {}⟩
    let q := Shop.orderCounts "c" "c"
    let q' := Shop.orderCounts "c" "customer"
    q.unnamed = q'.unnamed ∧ (∃ select, (q.toSelect env).outcome = .ok select) ∧
      (q'.toSelect env).outcome = .error (.unresolvedColumn "Customer.Id") :=
  ⟨rfl, ⟨_, rfl⟩, rfl⟩

end ChainQuery
