import ChainQuery.Proofs.Expr.Children
/-!
# Expressions without the names of parameters

Two expressions differ in nothing but the names of their parameters iff they are the same without
names (`Expr.unnamed`).  Whether the names are consistent is of no account: what a parameter stands
for is known by its type.

`Expr.cases_of_unnamed` compares such expressions root by root: either the roots name no parameter and
are the same over children that differ in names only, or both are parameters or both lambdas.
-/

namespace ChainQuery

/-- A parameter without its name. -/
def Parameter.unnamed (p : Parameter) : Parameter := { p with name := "" }

/-- Parameters that are the same without names have the same types. -/
theorem Parameter.map_type_of_unnamed {ps ps' : List Parameter}
    (h : ps.map unnamed = ps'.map unnamed) : ps.map type = ps'.map type := by
  have htypes := congrArg (List.map type) h
  rw [List.map_map, List.map_map] at htypes
  exact htypes

namespace Expr

/-! ## 1. Expressions -/

/-- An expression with the names of parameters removed from its root. -/
def blank : Expr → Expr
  | .parameter _ t => .parameter "" t
  | .lambda params body => .lambda (params.map Parameter.unnamed) body
  | e => e

/-- Whether the root of an expression names a parameter. -/
def isNamed : Expr → Bool
  | .parameter .. | .lambda .. => true
  | _ => false

theorem blank_of_not_isNamed {e : Expr} (h : e.isNamed = false) : e.blank = e := by
  cases e with
  | parameter | lambda => cases h
  | _ => rfl

@[simp] theorem isNamed_blank (e : Expr) : e.blank.isNamed = e.isNamed := by
  cases e <;> rfl

@[simp] theorem isNamed_withChildren (e : Expr) (cs : List Expr) :
    (e.withChildren cs).isNamed = e.isNamed := by
  unfold withChildren
  split <;> rfl

/-- **An expression without the names of parameters.** -/
def unnamed (e : Expr) : Expr := e.fold fun node children => node.blank.withChildren children

theorem unnamed_eq (e : Expr) : e.unnamed = e.blank.withChildren (e.children.map unnamed) := by
  rw [unnamed, fold_eq]
  rfl

@[simp] theorem children_blank (e : Expr) : e.blank.children = e.children := by
  cases e <;> rfl

@[simp] theorem children_unnamed (e : Expr) : e.unnamed.children = e.children.map unnamed := by
  rw [unnamed_eq]
  exact children_withChildren (by rw [List.length_map, children_blank])

@[simp] theorem unnamed_parameter (name : String) (t : Ty) :
    (parameter name t).unnamed = .parameter "" t := rfl

@[simp] theorem unnamed_member (object : Expr) (name : String) (t : Ty) :
    (member object name t).unnamed = .member object.unnamed name t := rfl

@[simp] theorem unnamed_binary (op : BinaryOp) (left right : Expr) :
    (binary op left right).unnamed = .binary op left.unnamed right.unnamed := rfl

@[simp] theorem unnamed_new (t : Ty) (members : List (String × Expr)) :
    (new t members).unnamed = .new t (members.map fun m => (m.1, m.2.unnamed)) :=
  (unnamed_eq _).trans (congrArg (Expr.new t) (rename_map unnamed members))

@[simp] theorem unnamed_lambda (params : List Parameter) (body : Expr) :
    (lambda params body).unnamed = .lambda (params.map Parameter.unnamed) body.unnamed := rfl

/-! ## 2. What stays the same -/

@[simp] theorem type_unnamed (e : Expr) : e.unnamed.type = e.type := by
  induction e using children_induction with
  | node e ih =>
    cases e with
    | binary op left right =>
      rw [unnamed_binary, type, type, ih left (by simp [children])]
    | unary op operand =>
      cases op with
      | not | convert => rfl
      | negate => exact ih operand (by simp [children])
    | conditional test ifTrue ifFalse => exact ih ifTrue (by simp [children])
    | lambda params body => exact ih body (by simp [children])
    | call m receiver args t => cases receiver <;> rfl
    | _ => rfl

@[simp] theorem memberPath?_unnamed : ∀ e : Expr, e.unnamed.memberPath? = e.memberPath?
  | .unary (.convert _) operand => memberPath?_unnamed operand
  | .member object _ _ => by
    rw [unnamed_member, memberPath?, memberPath?, memberPath?_unnamed object]
  | .call _ none _ _ | .call _ (some _) _ _ => rfl
  | .unary .not _ | .unary .negate _ | .binary .. | .constant .. | .parameter .. | .new ..
  | .conditional .. | .lambda .. | .memberInit .. | .listInit .. | .newArray .. | .invoke ..
  | .typeIs .. => rfl

@[simp] theorem isAggregate_unnamed (e : Expr) : e.unnamed.isAggregate = e.isAggregate := by
  cases e with
  | call m receiver args t => cases m <;> cases receiver <;> rfl
  | _ => rfl

@[simp] theorem aggregateDepth_unnamed (e : Expr) :
    e.unnamed.aggregateDepth = e.aggregateDepth := by
  induction e using children_induction with
  | node e ih =>
    rw [aggregateDepth_eq, aggregateDepth_eq e, children_unnamed, List.map_map, isAggregate_unnamed,
      List.map_congr_left (f := aggregateDepth ∘ unnamed) ih]

/-! ## 3. Expressions that differ in names only -/

theorem rename_rename {members : List (String × Expr)} {cs : List Expr}
    (h : cs.length = members.length) (ds : List Expr) :
    rename (rename members cs) ds = rename members ds := by
  induction members generalizing cs ds with
  | nil => rfl
  | cons m rest ih =>
    cases cs with
    | nil => cases h
    | cons c cs =>
      cases ds with
      | nil => rfl
      | cons d ds => exact congrArg ((m.1, d) :: ·) (ih (Nat.succ.inj h) ds)

/-- Of the children that a node is given in turn, the last are kept. -/
theorem withChildren_withChildren {e : Expr} {cs ds : List Expr}
    (hc : cs.length = e.children.length) (hd : ds.length = e.children.length) :
    (e.withChildren cs).withChildren ds = e.withChildren ds := by
  cases e with
  | constant | parameter | listInit | newArray => rfl
  | unary | member | lambda | typeIs =>
    obtain ⟨c, rfl⟩ := List.length_eq_one_iff.mp hc
    obtain ⟨d, rfl⟩ := List.length_eq_one_iff.mp hd
    rfl
  | binary =>
    obtain ⟨_, _, rfl⟩ := List.length_eq_two.mp hc
    obtain ⟨_, _, rfl⟩ := List.length_eq_two.mp hd
    rfl
  | conditional =>
    obtain ⟨_, _, _, rfl⟩ := List.length_eq_three.mp hc
    obtain ⟨_, _, _, rfl⟩ := List.length_eq_three.mp hd
    rfl
  | invoke =>
    obtain ⟨_, _, rfl⟩ := List.exists_cons_of_length_eq_add_one hc
    obtain ⟨_, _, rfl⟩ := List.exists_cons_of_length_eq_add_one hd
    rfl
  | new | memberInit =>
    simp only [children, List.length_map] at hc
    simp only [withChildren, rename_rename hc]
  | call m receiver args t =>
    cases receiver with
    | none => rfl
    | some r =>
      obtain ⟨_, _, rfl⟩ := List.exists_cons_of_length_eq_add_one hc
      obtain ⟨_, _, rfl⟩ := List.exists_cons_of_length_eq_add_one hd
      rfl

/-- Children of expressions that differ in names only. -/
theorem forall₂_children_of_unnamed {e e' : Expr} (h : e.unnamed = e'.unnamed) :
    List.Forall₂ (fun c c' => c.unnamed = c'.unnamed) e.children e'.children := by
  have hchildren := congrArg children h
  rw [children_unnamed, children_unnamed, ← List.forall₂_eq_eq_eq] at hchildren
  exact List.forall₂_map_right_iff.mp (List.forall₂_map_left_iff.mp hchildren)

/-- The roots of expressions that differ in names only are the same without names. -/
theorem blank_of_unnamed {e e' : Expr} (h : e.unnamed = e'.unnamed) :
    e'.blank = e.blank.withChildren e'.children := by
  have hlength := (forall₂_children_of_unnamed h).length_eq
  calc e'.blank = e'.blank.withChildren e'.blank.children := (withChildren_children _).symm
    _ = e'.unnamed.withChildren e'.children := by
      rw [children_blank, unnamed_eq, withChildren_withChildren] <;> simp
    _ = e.unnamed.withChildren e'.children := by rw [h]
    _ = e.blank.withChildren e'.children := by
      rw [unnamed_eq, withChildren_withChildren] <;> simp [hlength]

/-- **Expressions that differ in names only** are parameters, or lambdas, or have the same roots over
children that differ in names only. -/
theorem cases_of_unnamed {e e' : Expr} (h : e.unnamed = e'.unnamed) :
    (∃ name name' t, e = .parameter name t ∧ e' = .parameter name' t) ∨
    (∃ params params' body body', e = .lambda params body ∧ e' = .lambda params' body' ∧
      params.map Parameter.unnamed = params'.map Parameter.unnamed ∧
      body.unnamed = body'.unnamed) ∨
    (e.isNamed = false ∧ e' = e.withChildren e'.children) := by
  have hblank := blank_of_unnamed h
  cases hnamed : e.isNamed with
  | false =>
    have hnamed' : e'.isNamed = false := by
      rw [← isNamed_blank, hblank, isNamed_withChildren, isNamed_blank, hnamed]
    rw [blank_of_not_isNamed hnamed, blank_of_not_isNamed hnamed'] at hblank
    exact Or.inr (Or.inr ⟨rfl, hblank⟩)
  | true =>
    cases e with
    | parameter name t =>
      cases e' with
      | parameter name' t' =>
        cases hblank
        exact Or.inl ⟨name, name', t, rfl, rfl⟩
      | _ => cases hblank
    | lambda params body =>
      obtain ⟨body', rest, hbody, hnil, hchildren⟩ :=
        List.forall₂_cons_left_iff.mp (forall₂_children_of_unnamed h)
      cases hnil
      rw [hchildren] at hblank
      cases e' with
      | lambda params' =>
        cases hchildren
        exact Or.inr (Or.inl ⟨params, params', body, body', rfl, rfl, (lambda.inj hblank).1.symm, hbody⟩)
      | _ => cases hblank
    | _ => cases hnamed

theorem exists_of_unnamed_member {e object : Expr} {name : String} {t : Ty}
    (h : (member object name t).unnamed = e.unnamed) :
    ∃ object', e = .member object' name t ∧ object.unnamed = object'.unnamed := by
  obtain ⟨object', rest, hobject, hnil, hchildren⟩ :=
    List.forall₂_cons_left_iff.mp (forall₂_children_of_unnamed h)
  cases hnil
  rcases cases_of_unnamed h with ⟨_, _, _, ⟨⟩, _⟩ | ⟨_, _, _, _, ⟨⟩, _⟩ | ⟨_, he⟩
  rw [hchildren] at he
  exact ⟨object', he, hobject⟩

/-- Records whose members differ in names only do so themselves. -/
theorem unnamed_record {name : String} {members members' : List (String × Expr)}
    (h : members.map (fun m => (m.1, m.2.unnamed)) = members'.map fun m => (m.1, m.2.unnamed)) :
    (record name members).unnamed = (record name members').unnamed := by
  have hfields := congrArg (List.map fun m : String × Expr => (m.1, m.2.type)) h
  simp only [List.map_map, Function.comp_def, type_unnamed] at hfields
  rw [record, record, unnamed_new, unnamed_new, h, hfields]

end Expr

/-! ## 4. Queries -/

/-- A lambda without the names of parameters. -/
def Lambda.unnamed (l : Lambda) : Lambda := ⟨l.params.map Parameter.unnamed, l.body.unnamed⟩

/-- **A query without the names of parameters.** -/
def Query.unnamed : Query → Query
  | .table rowType => .table rowType
  | .select source selector => .select source.unnamed selector.unnamed
  | .filter source predicate => .filter source.unnamed predicate.unnamed
  | .join outer inner outerKey innerKey result =>
    .join outer.unnamed inner.unnamed outerKey.unnamed innerKey.unnamed result.unnamed
  | .crossJoin source collection result =>
    .crossJoin source.unnamed collection.unnamed result.unnamed
  | .orderBy source key kind => .orderBy source.unnamed key.unnamed kind
  | .call method source args => .call method source.unnamed (args.map Expr.unnamed)

@[simp] theorem Query.aggregateDepth_unnamed (q : Query) :
    q.unnamed.aggregateDepth = q.aggregateDepth := by
  induction q <;> simp_all [unnamed, aggregateDepth, Lambda.unnamed]

end ChainQuery
