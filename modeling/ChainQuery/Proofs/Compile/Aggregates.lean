import ChainQuery.Proofs.Compile.Correlation
import ChainQuery.Proofs.Expr.Children
import ChainQuery.Proofs.Query.Chain
/-!
# The aggregates of a query

Every aggregate that an expression calls is a query of its own.  Here they are listed, those inside of
others included: an expression has the aggregate at its root, and those of its children
(`Expr.aggregates_eq`).  The query of an aggregate has the aggregates of the arguments that it was
called with (`Correlated.aggregates_query`), so nothing in it is new.
-/

namespace ChainQuery

namespace Expr

variable {schema : Schema}

/-! ## 1. Expressions -/

/-- The aggregates in an expression, those inside of others included. -/
def aggregates (schema : Schema) (e : Expr) : List Correlated :=
  e.fold fun node below =>
    match node with
    | .call (.aggregate a) _ args _ =>
      (Correlated.ofCall schema node.text a args).outcome.toOption.toList ++ below.flatten
    | _ => below.flatten

/-- The aggregate that is called at the root of an expression. -/
def called? (schema : Schema) : Expr → Option Correlated
  | .call (.aggregate a) receiver args t =>
    (Correlated.ofCall schema (call (.aggregate a) receiver args t).text a args).outcome.toOption
  | _ => none

/-- **The aggregates of an expression** are the one at its root and those of its children. -/
theorem aggregates_eq (e : Expr) :
    e.aggregates schema
      = (e.called? schema).toList ++ e.children.flatMap (Expr.aggregates schema) := by
  rw [List.flatMap_def, Expr.aggregates, fold_eq]
  cases e with
  | call m receiver args t => cases m <;> rfl
  | _ => rfl

theorem aggregates_subset {e c : Expr} (hc : c ∈ e.children) :
    c.aggregates schema ⊆ e.aggregates schema := by
  rw [e.aggregates_eq]
  exact List.subset_append_of_subset_right _ fun _ h => List.mem_flatMap.mpr ⟨c, hc, h⟩

theorem called?_eq_some {e : Expr} {c : Correlated} :
    e.called? schema = some c ↔ ∃ a receiver args t, e = call (.aggregate a) receiver args t ∧
      (Correlated.ofCall schema e.text a args).outcome = .ok c := by
  constructor
  · intro h
    unfold called? at h
    split at h
    · rename_i a receiver args t
      refine ⟨a, receiver, args, t, rfl, ?_⟩
      cases hcall : (Correlated.ofCall schema (call (.aggregate a) receiver args t).text a
          args).outcome with
      | error e =>
        rw [hcall] at h
        cases h
      | ok d =>
        rw [hcall] at h
        rw [← Option.some.inj h]
    · cases h
  · rintro ⟨a, receiver, args, t, rfl, h⟩
    rw [called?, h]
    rfl

theorem mem_aggregates {a : Aggregate} {receiver : Option Expr} {args : List Expr} {t : Ty}
    {c : Correlated} (h : (Correlated.ofCall schema (call (.aggregate a) receiver args t).text a
      args).outcome = .ok c) : c ∈ (call (.aggregate a) receiver args t).aggregates schema := by
  rw [aggregates_eq, called?_eq_some.mpr ⟨a, receiver, args, t, rfl, h⟩]
  exact List.mem_cons_self

/-- An aggregate in an expression is called at the root, or is in a child. -/
theorem mem_aggregates_cases {e : Expr} {c : Correlated} (h : c ∈ e.aggregates schema) :
    (∃ a receiver args t, e = call (.aggregate a) receiver args t ∧
      (Correlated.ofCall schema e.text a args).outcome = .ok c) ∨
    ∃ child ∈ e.children, c ∈ child.aggregates schema := by
  rw [e.aggregates_eq] at h
  rcases List.mem_append.mp h with hself | hchild
  · exact Or.inl (called?_eq_some.mp (Option.mem_toList.mp hself))
  · exact Or.inr (List.mem_flatMap.mp hchild)

/-- What is reached from a parameter calls no aggregate. -/
theorem aggregates_eq_nil : ∀ {e : Expr} {path : List Ty}, e.memberPath? = some path →
    e.aggregates schema = []
  | .parameter _ _, _, _ => rfl
  | .unary (.convert _) operand, _, h => by
    rw [aggregates_eq, children, List.flatMap_cons, List.flatMap_nil, List.append_nil]
    exact aggregates_eq_nil (e := operand) h
  | .member object _ _, _, h => by
    obtain ⟨path, hpath, _⟩ := Option.map_eq_some_iff.mp h
    rw [aggregates_eq, children, List.flatMap_cons, List.flatMap_nil, List.append_nil]
    exact aggregates_eq_nil (e := object) hpath

end Expr

/-! ## 2. Queries -/

/-- The bodies of the lambdas of a query. -/
def Query.bodies : Query → List Expr
  | .table _ => []
  | .select source selector => selector.body :: source.bodies
  | .filter source predicate => predicate.body :: source.bodies
  | .join outer inner outerKey innerKey result =>
    [outerKey.body, innerKey.body, result.body] ++ outer.bodies ++ inner.bodies
  | .crossJoin source collection result => result.body :: source.bodies ++ collection.bodies
  | .orderBy source key _ => key.body :: source.bodies
  | .call _ source _ => source.bodies

theorem Query.bodies_eq_map_lambdas (q : Query) : q.bodies = q.lambdas.map Lambda.body := by
  induction q with
  | table => rfl
  | select _ _ ih | filter _ _ ih | orderBy _ _ _ ih | call _ _ _ ih => simp [bodies, lambdas, ih]
  | join _ _ _ _ _ ihl ihr | crossJoin _ _ _ ihl ihr => simp [bodies, lambdas, ihl, ihr]

/-- The aggregates in the lambdas of a query. -/
def Query.aggregates (schema : Schema) (q : Query) : List Correlated :=
  q.bodies.flatMap (Expr.aggregates schema)

namespace Correlated

variable {schema : Schema} {args : List Expr}

/-- The collection and the selector are all arguments. -/
theorem flatMap_of_arguments? {β : Type} {f : Expr → List β} {source : Expr}
    {selector : Option Lambda} (h : arguments? args = some (source, selector)) :
    args.flatMap f = f source ++ (selector.map fun l => f l.toExpr).getD [] := by
  unfold arguments? at h
  split at h
  · cases h
    simp
  · cases h
    simp [Lambda.toExpr]
  · cases h

/-- **What the arguments of an aggregate have, the lambdas of its query have**, if the expressions that
these are put together of have it from their parts. -/
theorem forall_bodies_query {P : Expr → Prop} {text : String} {a : Aggregate} {c : Correlated}
    (hc : (ofCall schema text a args).outcome = .ok c) (hparameter : ∀ p : Parameter, P p.reference)
    (hmember : ∀ object name t, P object → P (.member object name t))
    (hbinary : ∀ op left right, P left → P right → P (.binary op left right))
    (hpair : ∀ object name t value, P (.member object name t) → P value →
      P (Expr.record "KeyValuePair" [("Key", .member object name t), ("Value", value)]))
    (hobject : ∀ k : Call schema args, P k.object)
    (hselector : ∀ (k : Call schema args) (l : Lambda), k.selector = some l → P l.body) :
    ∀ body ∈ c.query.bodies, P body := by
  obtain ⟨k, predicate, projection, nested, hclauses, rfl⟩ := ofCall_eq_ok.mp hc
  have hreference : P k.reference := hmember _ _ _ (hparameter _)
  have hcorrelation : P (.binary .equal k.reference k.key) :=
    hbinary _ _ _ hreference (hmember _ _ _ (hobject k))
  obtain ⟨hpredicate, hprojection⟩ := clauses_parts hclauses hcorrelation (hparameter _)
    (hselector k) (fun _ hbody => hbinary _ _ _ hcorrelation hbody)
    fun _ hbody => hpair _ _ _ _ hreference hbody
  simpa [Call.query, Query.bodies] using ⟨hprojection, hpredicate⟩

/-- **The query of an aggregate has the aggregates of its arguments.** -/
theorem aggregates_query {text : String} {a : Aggregate} {c : Correlated}
    (hc : (ofCall schema text a args).outcome = .ok c) :
    c.query.aggregates schema = args.flatMap (Expr.aggregates schema) := by
  obtain ⟨k, predicate, projection, nested, hclauses, rfl⟩ := ofCall_eq_ok.mp hc
  -- neither the reference nor the key of the row at hand calls an aggregate
  have hreference : k.reference.aggregates schema = [] := Expr.aggregates_eq_nil rfl
  have hrow : k.row.reference.aggregates schema = [] := Expr.aggregates_eq_nil rfl
  have hpath : ∀ (name : String) (t : Ty),
      (Expr.member k.object name t).memberPath? = some (k.path ++ [t]) := by
    intro name t
    rw [Expr.memberPath?, k.path_eq]
    rfl
  have hkey : k.key.aggregates schema = [] := Expr.aggregates_eq_nil (hpath _ _)
  have hcollection : (k.navigation.collection k.object).aggregates schema = [] :=
    Expr.aggregates_eq_nil (hpath _ _)
  have hcorrelation : (Expr.binary .equal k.reference k.key).aggregates schema = [] := by
    rw [Expr.aggregates_eq]
    simp [Expr.children, Expr.called?, hreference, hkey]
  rw [flatMap_of_arguments? k.args_eq, hcollection, List.nil_append]
  have hbodies : (k.query predicate projection).aggregates schema
      = projection.body.aggregates schema ++ predicate.aggregates schema := by
    simp [Call.query, Query.aggregates, Query.bodies]
  rw [hbodies]
  have hlambda : ∀ l : Lambda, l.toExpr.aggregates schema = l.body.aggregates schema := by
    intro l
    rw [Expr.aggregates_eq]
    simp [Lambda.toExpr, Expr.children, Expr.called?]
  generalize k.selector = selector at hclauses ⊢
  unfold clauses at hclauses
  split at hclauses
  · cases hclauses
    simp [Lambda.identity, hrow, hcorrelation]
  · cases hclauses
    rw [Expr.aggregates_eq (.binary _ _ _)]
    simp [Lambda.identity, Expr.children, Expr.called?, hrow, hcorrelation, hlambda]
  · cases hclauses
  · split at hclauses
    · cases hclauses
      rw [Expr.aggregates_eq (Expr.record _ _)]
      simp [Expr.record, Expr.children, Expr.called?, hreference, hcorrelation, hlambda]
    · cases hclauses
      simp [hcorrelation, hlambda]

end Correlated

/-- **The aggregates inside of an aggregate** are listed with it. -/
theorem Expr.aggregates_query_subset {schema : Schema} {e : Expr} {c : Correlated}
    (hc : c ∈ e.aggregates schema) : c.query.aggregates schema ⊆ e.aggregates schema := by
  induction e using children_induction with
  | node e ih =>
    rcases mem_aggregates_cases hc with ⟨a, receiver, args, t, rfl, hcall⟩ | ⟨child, hchild, hc⟩
    · rw [Correlated.aggregates_query hcall]
      intro d hd
      obtain ⟨arg, harg, hd⟩ := List.mem_flatMap.mp hd
      exact aggregates_subset (List.mem_append_right _ harg) hd
    · exact List.Subset.trans (ih child hchild hc) (aggregates_subset hchild)

theorem Query.aggregates_query_subset {schema : Schema} {q : Query} {c : Correlated}
    (hc : c ∈ q.aggregates schema) : c.query.aggregates schema ⊆ q.aggregates schema := by
  obtain ⟨body, hbody, hc⟩ := List.mem_flatMap.mp hc
  exact fun d hd => List.mem_flatMap.mpr ⟨body, hbody, Expr.aggregates_query_subset hc hd⟩

end ChainQuery
