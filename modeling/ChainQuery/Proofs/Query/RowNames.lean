import ChainQuery.Proofs.Evaluate.Types
import ChainQuery.Schema.Basic
/-!
# What a query names of a schema

A query names row types, by its tables and in the types that are written in it (`Query.rowNames`), and
navigations, by the collections that its aggregates are taken of (`Query.navigations`).  A schema that
has all of them covers the query (`Query.Covered`).

Partial evaluation names nothing new: it keeps the types of expressions (`Expr.Narrows`), so a query is
covered after it if it was before (`Query.Covered.evaluate`).
-/

namespace ChainQuery

/-! ## 1. Types -/

namespace Ty

mutual
/-- The row types that occur in a type. -/
def rowNames : Ty → List String
  | .scalar _ => []
  | .nullable t => t.rowNames
  | .row name => [name]
  | .record _ fields => fieldRowNames fields
  | .collection t => t.rowNames
  | .group key t => key.rowNames ++ t.rowNames

/-- The row types that occur in the types of fields. -/
def fieldRowNames : List (String × Ty) → List String
  | [] => []
  | (_, t) :: rest => t.rowNames ++ fieldRowNames rest
end

end Ty

/-! ## 2. Expressions -/

/-- A navigation as an aggregate follows it: from the rows of one type by a member to those of
another. -/
structure Traversal where
  parent : String
  member : String
  child : String
  deriving Repr, DecidableEq

namespace Expr

/-- The types that are written at the root of an expression. -/
def ownTypes : Expr → List Ty
  | .unary (.convert t) _ => [t]
  | .unary .not _ | .unary .negate _ | .binary .. | .conditional .. => []
  | .member _ _ t | .constant _ t | .parameter _ t | .new t _ | .call _ _ _ t | .memberInit t _
  | .listInit t _ | .newArray t _ | .invoke _ _ t | .typeIs _ t => [t]
  | .lambda params _ => params.map Parameter.type

/-- **The row types that are named in an expression.** -/
def rowNames (e : Expr) : List String :=
  e.fold fun node below => node.ownTypes.flatMap Ty.rowNames ++ below.flatten

/-- The navigation that a member of a row is, if it leads to a collection of rows. -/
def traversal? : Expr → Option Traversal
  | .member object name t => do
    return { parent := ← object.type.row?, member := name, child := ← t.element?.bind Ty.row? }
  | _ => none

/-- The navigation that an aggregate follows. -/
def ownNavigations : Expr → List Traversal
  | .call (.aggregate _) _ (source :: _) _ => source.traversal?.toList
  | _ => []

/-- **The navigations that the aggregates in an expression follow.** -/
def navigations (e : Expr) : List Traversal :=
  e.fold fun node below => node.ownNavigations ++ below.flatten

theorem rowNames_eq (e : Expr) :
    e.rowNames = e.ownTypes.flatMap Ty.rowNames ++ e.children.flatMap rowNames := by
  rw [rowNames, fold_eq, List.flatMap_def (f := rowNames)]
  rfl

theorem navigations_eq (e : Expr) :
    e.navigations = e.ownNavigations ++ e.children.flatMap navigations := by
  rw [navigations, fold_eq, List.flatMap_def (f := navigations)]
  rfl

theorem rowNames_child {e c : Expr} (h : c ∈ e.children) : c.rowNames ⊆ e.rowNames := by
  rw [rowNames_eq e]
  exact fun name hname => List.mem_append_right _ (List.mem_flatMap.mpr ⟨c, h, hname⟩)

/-- **The type of an expression is named in it.** -/
theorem rowNames_type (e : Expr) : e.type.rowNames ⊆ e.rowNames := by
  have hown : ∀ {e : Expr} {t : Ty}, t ∈ e.ownTypes → t.rowNames ⊆ e.rowNames := by
    intro e t ht
    rw [rowNames_eq e]
    exact fun name hname => List.mem_append_left _ (List.mem_flatMap.mpr ⟨t, ht, hname⟩)
  induction e using children_induction with
  | node e ih =>
    have hchild : ∀ c ∈ e.children, c.type.rowNames ⊆ e.rowNames :=
      fun c hc => List.Subset.trans (ih c hc) (rowNames_child hc)
    cases e with
    | binary op left right =>
      rw [type]
      split
      · exact List.nil_subset _
      · exact hchild left (by simp [children])
    | unary op operand =>
      cases op with
      | not => exact List.nil_subset _
      | negate => exact hchild operand (by simp [children])
      | convert t => exact hown List.mem_cons_self
    | conditional test ifTrue ifFalse => exact hchild ifTrue (by simp [children])
    | lambda params body => exact hchild body (by simp [children])
    | typeIs operand t => exact List.nil_subset _
    | _ => exact hown (by simp [ownTypes, type])

/-! ## 3. Partial evaluation -/

/-- **An expression that names nothing new**, of the same type, and a navigation only if it was
one. -/
structure Narrows (e e' : Expr) : Prop where
  type : e'.type = e.type
  rowNames : e'.rowNames ⊆ e.rowNames
  navigations : e'.navigations ⊆ e.navigations
  traversal : ∀ n, e'.traversal? = some n → e.traversal? = some n

/-- A constant names nothing but its type. -/
theorem narrows_evaluated {e e' : Expr} (h : e.evaluated = .ok e') : e.Narrows e' := by
  obtain ⟨v, -, rfl⟩ := evaluated_eq_ok_iff.mp h
  refine ⟨rfl, ?_, List.nil_subset _, by rintro n ⟨⟩⟩
  rw [rowNames_eq]
  simpa [ownTypes, children] using e.rowNames_type

/-- The root of a node names the same over narrower children. -/
theorem withChildren_root {e : Expr} {cs : List Expr} (h : List.Forall₂ Narrows e.children cs) :
    (e.withChildren cs).ownTypes = e.ownTypes ∧
      (e.withChildren cs).ownNavigations ⊆ e.ownNavigations ∧
      ∀ n, (e.withChildren cs).traversal? = some n → e.traversal? = some n := by
  cases e with
  | constant | parameter => exact ⟨rfl, List.Subset.refl _, fun _ h => h⟩
  | new | memberInit | listInit | newArray => exact ⟨rfl, List.Subset.refl _, fun _ h => h⟩
  | unary op operand =>
    match cs, h with
    | [_], _ => cases op <;> exact ⟨rfl, List.Subset.refl _, by rintro n ⟨⟩⟩
  | lambda | typeIs =>
    match cs, h with
    | [_], _ => exact ⟨rfl, List.Subset.refl _, by rintro n ⟨⟩⟩
  | binary op left right =>
    match cs, h with
    | [_, _], _ => exact ⟨rfl, List.Subset.refl _, by rintro n ⟨⟩⟩
  | conditional test ifTrue ifFalse =>
    match cs, h with
    | [_, _, _], _ => exact ⟨rfl, List.Subset.refl _, by rintro n ⟨⟩⟩
  | invoke target args t =>
    match cs, h with
    | _ :: _, _ => exact ⟨rfl, List.Subset.refl _, by rintro n ⟨⟩⟩
  | member object name t =>
    match cs, h with
    | [object'], .cons hobject _ =>
      refine ⟨rfl, List.Subset.refl _, fun n hn => ?_⟩
      rw [withChildren, traversal?, hobject.type] at hn
      exact hn
  | call m receiver args t =>
    -- the receiver comes first among the children, if there is one
    have hargs : ∀ {receiver' : Option Expr} {args' : List Expr}, List.Forall₂ Narrows args args' →
        (call m receiver' args' t).ownNavigations ⊆ (call m receiver args t).ownNavigations := by
      intro receiver' args' hargs
      cases m with
      | string | other => exact List.nil_subset _
      | aggregate a =>
        cases hargs with
        | nil => exact List.nil_subset _
        | cons hsource _ =>
          intro n hn
          rw [ownNavigations, Option.mem_toList] at hn ⊢
          exact hsource.traversal n hn
    cases receiver with
    | none => exact ⟨rfl, hargs h, by rintro n ⟨⟩⟩
    | some r =>
      match cs, h with
      | _ :: _, .cons _ hrest => exact ⟨rfl, hargs hrest, by rintro n ⟨⟩⟩

/-- **A node names nothing new over narrower children.** -/
theorem narrows_withChildren {e : Expr} {cs : List Expr} (h : List.Forall₂ Narrows e.children cs) :
    e.Narrows (e.withChildren cs) := by
  obtain ⟨hown, hnavigations, htraversal⟩ := withChildren_root h
  have htype : (e.withChildren cs).type = e.type := type_withChildren (h.imp fun _ _ hc => hc.type)
  have hchildren : (e.withChildren cs).children = cs := children_withChildren h.length_eq.symm
  have hbelow : ∀ {es cs : List Expr}, List.Forall₂ Narrows es cs →
      cs.flatMap rowNames ⊆ es.flatMap rowNames ∧ cs.flatMap navigations ⊆ es.flatMap navigations := by
    intro es cs h
    induction h with
    | nil => exact ⟨List.Subset.refl _, List.Subset.refl _⟩
    | cons hc _ ih =>
      simp only [List.flatMap_cons]
      exact ⟨List.append_subset.mpr ⟨List.subset_append_of_subset_left _ hc.rowNames,
          List.subset_append_of_subset_right _ ih.1⟩,
        List.append_subset.mpr ⟨List.subset_append_of_subset_left _ hc.navigations,
          List.subset_append_of_subset_right _ ih.2⟩⟩
  refine ⟨htype, ?_, ?_, htraversal⟩
  · rw [rowNames_eq, rowNames_eq e, hchildren, hown]
    exact List.append_subset.mpr ⟨List.subset_append_left _ _,
      List.subset_append_of_subset_right _ (hbelow h).1⟩
  · rw [navigations_eq, navigations_eq e, hchildren]
    exact List.append_subset.mpr ⟨List.subset_append_of_subset_left _ hnavigations,
      List.subset_append_of_subset_right _ (hbelow h).2⟩

/-- **Partial evaluation names nothing new.** -/
theorem narrows_evaluate {e e' : Expr} (h : e.evaluate = .ok e') : e.Narrows e' :=
  evaluateWith_rel (R := Narrows) (fun _ _ _ => narrows_evaluated)
    (fun _ _ _ => narrows_withChildren) h

end Expr

/-! ## 4. Queries -/

/-- A row type of a schema. -/
def Schema.Registers (s : Schema) (name : String) : Prop := ∃ info, s.rowType name = .ok info

instance (s : Schema) (name : String) : Decidable (s.Registers name) :=
  match h : s.rowType name with
  | .ok info => isTrue ⟨info, h⟩
  | .error _ => isFalse fun ⟨_, hinfo⟩ => by rw [h] at hinfo; cases hinfo

/-- A schema has the row types that occur in a type. -/
def Ty.Covered (s : Schema) (t : Ty) : Prop := ∀ name ∈ t.rowNames, s.Registers name

@[simp] theorem Ty.covered_scalar (s : Schema) (t : ScalarType) : (Ty.scalar t).Covered s := by
  simp [Ty.Covered, Ty.rowNames]

@[simp] theorem Ty.covered_row {s : Schema} {name : String} :
    (Ty.row name).Covered s ↔ s.Registers name := by
  simp [Ty.Covered, Ty.rowNames]

/-- **A schema has all that an expression names.** -/
structure Expr.Covered (s : Schema) (e : Expr) : Prop where
  rowNames : ∀ name ∈ e.rowNames, s.Registers name
  navigations : ∀ n ∈ e.navigations, s.navigation n.parent n.member = .ok n.child

/-- **A schema has what a node names if it has what its root and its children name.** -/
theorem Expr.covered_iff {s : Schema} {e : Expr} :
    e.Covered s ↔ (∀ t ∈ e.ownTypes, t.Covered s) ∧
      (∀ n ∈ e.ownNavigations, s.navigation n.parent n.member = .ok n.child) ∧
        ∀ c ∈ e.children, c.Covered s := by
  constructor
  · rintro ⟨hnames, hnavigations⟩
    rw [rowNames_eq] at hnames
    rw [navigations_eq] at hnavigations
    obtain ⟨hown, hnames⟩ := List.forall_mem_append.mp hnames
    obtain ⟨hownNavigations, hnavigations⟩ := List.forall_mem_append.mp hnavigations
    refine ⟨fun t ht name hname => ?_, hownNavigations, fun c hc => ⟨fun name hname => ?_,
      fun n hn => ?_⟩⟩
    · exact hown name (List.mem_flatMap.mpr ⟨t, ht, hname⟩)
    · exact hnames name (List.mem_flatMap.mpr ⟨c, hc, hname⟩)
    · exact hnavigations n (List.mem_flatMap.mpr ⟨c, hc, hn⟩)
  · rintro ⟨hown, hownNavigations, hchildren⟩
    refine ⟨?_, ?_⟩
    · rw [rowNames_eq]
      refine List.forall_mem_append.mpr ⟨fun name hname => ?_, fun name hname => ?_⟩
      · obtain ⟨t, ht, hname⟩ := List.mem_flatMap.mp hname
        exact hown t ht name hname
      · obtain ⟨c, hc, hname⟩ := List.mem_flatMap.mp hname
        exact (hchildren c hc).rowNames name hname
    · rw [navigations_eq]
      refine List.forall_mem_append.mpr ⟨hownNavigations, fun n hn => ?_⟩
      obtain ⟨c, hc, hn⟩ := List.mem_flatMap.mp hn
      exact (hchildren c hc).navigations n hn

theorem Expr.Covered.child {s : Schema} {e c : Expr} (h : e.Covered s) (hc : c ∈ e.children) :
    c.Covered s := (covered_iff.mp h).2.2 c hc

/-- The type of an expression is among what it names. -/
theorem Expr.Covered.type {s : Schema} {e : Expr} (h : e.Covered s) : e.type.Covered s :=
  fun name hname => h.rowNames name (e.rowNames_type hname)

theorem Expr.Covered.narrow {s : Schema} {e e' : Expr} (h : e.Covered s) (he : e.Narrows e') :
    e'.Covered s :=
  ⟨fun name hname => h.rowNames name (he.rowNames hname),
    fun n hn => h.navigations n (he.navigations hn)⟩

namespace Lambda

/-- The row types that are named in a lambda. -/
def rowNames (l : Lambda) : List String :=
  l.params.flatMap (fun p => p.type.rowNames) ++ l.body.rowNames

/-- A schema has all that a lambda names. -/
structure Covered (s : Schema) (l : Lambda) : Prop where
  params : ∀ p ∈ l.params, p.type.Covered s
  body : l.body.Covered s

theorem Covered.evaluate {s : Schema} {l l' : Lambda} (h : l.Covered s)
    (hl : l.Pointwise (fun e e' => e.evaluate = .ok e') l') : l'.Covered s :=
  ⟨hl.params ▸ h.params, h.body.narrow (Expr.narrows_evaluate hl.body)⟩

end Lambda

namespace Query

/-- The tables of a query that name a row type. -/
def tables : Query → List String
  | .table rowType => if rowType.isEmpty then [] else [rowType]
  | .select source _ | .filter source _ | .orderBy source _ _ | .call _ source _ => source.tables
  | .join left right _ _ _ | .crossJoin left right _ => left.tables ++ right.tables

/-- **The row types that a query names**, by its tables and in the types in its lambdas. -/
def rowNames (q : Query) : List String := q.tables ++ q.lambdas.flatMap Lambda.rowNames

/-- **The navigations that the aggregates in a query follow.** -/
def navigations (q : Query) : List Traversal := q.lambdas.flatMap fun l => l.body.navigations

/-- **A schema has all that a query names.** -/
structure Covered (s : Schema) (q : Query) : Prop where
  tables : ∀ name ∈ q.tables, s.Registers name
  lambdas : ∀ l ∈ q.lambdas, l.Covered s

section Operators

variable {s : Schema}

theorem covered_select {source : Query} {l : Lambda} :
    (select source l).Covered s ↔ source.Covered s ∧ l.Covered s := by
  constructor
  · rintro ⟨htables, hlambdas⟩
    obtain ⟨hl, hlambdas⟩ := List.forall_mem_cons.mp hlambdas
    exact ⟨⟨htables, hlambdas⟩, hl⟩
  · rintro ⟨hsource, hl⟩
    exact ⟨hsource.tables, List.forall_mem_cons.mpr ⟨hl, hsource.lambdas⟩⟩

/-- All operators with one lambda name the same. -/
theorem covered_filter {source : Query} {l : Lambda} :
    (filter source l).Covered s ↔ source.Covered s ∧ l.Covered s :=
  Iff.trans ⟨fun h => ⟨h.tables, h.lambdas⟩, fun h => ⟨h.tables, h.lambdas⟩⟩ covered_select

theorem covered_orderBy {source : Query} {l : Lambda} {kind : OrderingKind} :
    (orderBy source l kind).Covered s ↔ source.Covered s ∧ l.Covered s :=
  Iff.trans ⟨fun h => ⟨h.tables, h.lambdas⟩, fun h => ⟨h.tables, h.lambdas⟩⟩ covered_select

theorem covered_join {outer inner : Query} {outerKey innerKey result : Lambda} :
    (join outer inner outerKey innerKey result).Covered s ↔
      outer.Covered s ∧ inner.Covered s ∧ outerKey.Covered s ∧ innerKey.Covered s ∧
        result.Covered s := by
  constructor
  · rintro ⟨htables, hlambdas⟩
    simp only [tables, lambdas, List.forall_mem_append, List.forall_mem_cons] at htables hlambdas
    obtain ⟨⟨⟨houterKey, hinnerKey, hresult, _⟩, houter⟩, hinner⟩ := hlambdas
    exact ⟨⟨htables.1, houter⟩, ⟨htables.2, hinner⟩, houterKey, hinnerKey, hresult⟩
  · rintro ⟨houter, hinner, houterKey, hinnerKey, hresult⟩
    constructor
    · exact List.forall_mem_append.mpr ⟨houter.tables, hinner.tables⟩
    · simp only [lambdas, List.forall_mem_append, List.forall_mem_cons]
      exact ⟨⟨⟨houterKey, hinnerKey, hresult, by simp⟩, houter.lambdas⟩, hinner.lambdas⟩

theorem covered_crossJoin {source collection : Query} {result : Lambda} :
    (crossJoin source collection result).Covered s ↔
      source.Covered s ∧ collection.Covered s ∧ result.Covered s := by
  constructor
  · rintro ⟨htables, hlambdas⟩
    simp only [tables, lambdas, List.cons_append, List.forall_mem_append, List.forall_mem_cons]
      at htables hlambdas
    obtain ⟨hresult, hsource, hcollection⟩ := hlambdas
    exact ⟨⟨htables.1, hsource⟩, ⟨htables.2, hcollection⟩, hresult⟩
  · rintro ⟨hsource, hcollection, hresult⟩
    constructor
    · exact List.forall_mem_append.mpr ⟨hsource.tables, hcollection.tables⟩
    · simp only [lambdas, List.cons_append, List.forall_mem_append, List.forall_mem_cons]
      exact ⟨hresult, hsource.lambdas, hcollection.lambdas⟩

end Operators

theorem covered_iff {s : Schema} {q : Query} :
    q.Covered s ↔ (∀ name ∈ q.rowNames, s.Registers name) ∧
      ∀ n ∈ q.navigations, s.navigation n.parent n.member = .ok n.child := by
  constructor
  · rintro ⟨htables, hlambdas⟩
    refine ⟨List.forall_mem_append.mpr ⟨htables, fun name hname => ?_⟩, fun n hn => ?_⟩
    · obtain ⟨l, hl, hname⟩ := List.mem_flatMap.mp hname
      rcases List.mem_append.mp hname with hparam | hbody
      · obtain ⟨p, hp, hname⟩ := List.mem_flatMap.mp hparam
        exact (hlambdas l hl).params p hp name hname
      · exact (hlambdas l hl).body.rowNames name hbody
    · obtain ⟨l, hl, hn⟩ := List.mem_flatMap.mp hn
      exact (hlambdas l hl).body.navigations n hn
  · rintro ⟨hnames, hnavigations⟩
    obtain ⟨htables, hlambdas⟩ := List.forall_mem_append.mp hnames
    refine ⟨htables, fun l hl => ⟨fun p hp name hname => ?_, fun name hname => ?_, fun n hn => ?_⟩⟩
    · exact hlambdas name (List.mem_flatMap.mpr
        ⟨l, hl, List.mem_append_left _ (List.mem_flatMap.mpr ⟨p, hp, hname⟩)⟩)
    · exact hlambdas name (List.mem_flatMap.mpr ⟨l, hl, List.mem_append_right _ hname⟩)
    · exact hnavigations n (List.mem_flatMap.mpr ⟨l, hl, hn⟩)

/-- Related queries are over the same tables. -/
theorem Pointwise.tables_eq {R : Expr → Expr → Prop} {q q' : Query} (h : q.Pointwise R q') :
    q'.tables = q.tables := by
  induction h with
  | table rowType => rfl
  | select _ _ ih | filter _ _ ih | orderBy _ _ _ ih | call _ _ _ ih => exact ih
  | join _ _ _ _ _ ihOuter ihInner => rw [tables, tables, ihOuter, ihInner]
  | crossJoin _ _ _ ihSource ihCollection => rw [tables, tables, ihSource, ihCollection]

/-- **A query is covered after partial evaluation if it was before.** -/
theorem Covered.evaluate {s : Schema} {q q' : Query} (h : q.Covered s) (hq : q.evaluate = .ok q') :
    q'.Covered s := by
  have hpointwise := mapExprs_eq_ok.mp hq
  refine ⟨hpointwise.tables_eq ▸ h.tables, fun l' hl' => ?_⟩
  obtain ⟨l, hl, hlambda⟩ := hpointwise.forall₂_lambdas.flip.exists_of_mem hl'
  exact (h.lambdas l hl).evaluate hlambda

end Query

end ChainQuery
