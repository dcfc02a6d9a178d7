import ChainQuery.Compile.Navigation
import ChainQuery.Proofs.Expr.Children
/-!
# Renaming the strings of constants

`Query.mapStrings` replaces every string inside the constants of a query and leaves names, members and
types alone.  The laws here say what cannot tell the two queries apart: types, paths of members, how
deep aggregates are nested, and for an injective renaming also equality (`Expr.beq_mapStrings`,
`Query.beq_mapStrings`).
-/

namespace ChainQuery

variable (f : String → String)

/-! ## 1. Literals -/

namespace Literal

mutual
/-- A literal with its strings replaced.  The members of objects keep their names. -/
def mapStrings : Literal → Literal
  | .null => .null
  | .bool b => .bool b
  | .int i => .int i
  | .float x => .float x
  | .string s => .string (f s)
  | .list items => .list (mapItems items)
  | .object members => .object (mapMembers members)

/-- The items of a list with their strings replaced. -/
def mapItems : List Literal → List Literal
  | [] => []
  | l :: rest => l.mapStrings :: mapItems rest

/-- The members of an object with their strings replaced. -/
def mapMembers : List (String × Literal) → List (String × Literal)
  | [] => []
  | (name, l) :: rest => (name, l.mapStrings) :: mapMembers rest
end

mutual
theorem mapStrings_id : ∀ v : Literal, v.mapStrings id = v
  | .null | .bool _ | .int _ | .float _ | .string _ => rfl
  | .list items => by rw [mapStrings, mapItems_id items]
  | .object members => by rw [mapStrings, mapMembers_id members]

theorem mapItems_id : ∀ items : List Literal, mapItems id items = items
  | [] => rfl
  | l :: rest => by rw [mapItems, mapStrings_id l, mapItems_id rest]

theorem mapMembers_id : ∀ members : List (String × Literal), mapMembers id members = members
  | [] => rfl
  | (name, l) :: rest => by rw [mapMembers, mapStrings_id l, mapMembers_id rest]
end

variable {f}

theorem length_mapMembers (members : List (String × Literal)) :
    (mapMembers f members).length = members.length := by
  induction members with
  | nil => rfl
  | cons m rest ih => simp [mapMembers, ih]

theorem lookup_mapMembers (name : String) (members : List (String × Literal)) :
    (mapMembers f members).lookup name = (members.lookup name).map (mapStrings f) := by
  induction members with
  | nil => rfl
  | cons m rest ih =>
    rw [mapMembers, List.lookup_cons, List.lookup_cons, ih]
    cases name == m.1 with
    | true => rfl
    | false => rfl

mutual
/-- **An injective renaming does not change which literals are equal.** -/
theorem beq_mapStrings (hf : f.Injective) :
    ∀ v w : Literal, (v.mapStrings f).beq (w.mapStrings f) = v.beq w
  | .null, w | .bool _, w | .int _, w | .float _, w => by cases w <;> rfl
  | .string a, w => by
    cases w with
    | string b => simp [mapStrings, beq, Bool.beq_eq_decide_eq, hf.eq_iff]
    | _ => rfl
  | .list xs, w => by
    cases w with
    | list ys => exact beqItems_mapItems hf xs ys
    | _ => rfl
  | .object ms, w => by
    cases w with
    | object ns =>
      simp only [mapStrings, beq, length_mapMembers, beqMembers_mapMembers hf ms ns]
    | _ => rfl

theorem beqItems_mapItems (hf : f.Injective) :
    ∀ xs ys : List Literal, beqItems (mapItems f xs) (mapItems f ys) = beqItems xs ys
  | [], ys => by cases ys <;> rfl
  | x :: xs, [] => rfl
  | x :: xs, y :: ys => by
    rw [mapItems, mapItems, beqItems, beqItems, beq_mapStrings hf x y, beqItems_mapItems hf xs ys]

theorem beqMembers_mapMembers (hf : f.Injective) :
    ∀ ms ns : List (String × Literal),
      beqMembers (mapMembers f ms) (mapMembers f ns) = beqMembers ms ns
  | [], _ => rfl
  | (name, x) :: rest, ns => by
    rw [mapMembers, beqMembers, beqMembers, lookup_mapMembers, beqMembers_mapMembers hf rest ns]
    cases ns.lookup name with
    | none => rfl
    | some y => simp only [Option.map_some, beq_mapStrings hf x y]
end

end Literal

/-! ## 2. Expressions -/

namespace Expr

/-- An expression with the strings of its constants replaced. -/
def mapStrings (e : Expr) : Expr :=
  e.fold fun node children =>
    match node with
    | .constant value t => .constant (value.mapStrings f) t
    | node => node.withChildren children

theorem rename_foldMembers (members : List (String × Expr)) :
    rename members (foldMembers (fun node children =>
      match node with
      | .constant value t => .constant (value.mapStrings f) t
      | node => node.withChildren children) members)
      = members.map fun m => (m.1, m.2.mapStrings f) := by
  induction members with
  | nil => rfl
  | cons m rest ih =>
    simp only [foldMembers, List.map_cons, ← ih]
    rfl

section

variable {f}

@[simp] theorem mapStrings_binary (op : BinaryOp) (left right : Expr) :
    (binary op left right).mapStrings f = .binary op (left.mapStrings f) (right.mapStrings f) := rfl

@[simp] theorem mapStrings_unary (op : UnaryOp) (operand : Expr) :
    (unary op operand).mapStrings f = .unary op (operand.mapStrings f) := rfl

@[simp] theorem mapStrings_member (object : Expr) (name : String) (t : Ty) :
    (member object name t).mapStrings f = .member (object.mapStrings f) name t := rfl

@[simp] theorem mapStrings_constant (value : Literal) (t : Ty) :
    (constant value t).mapStrings f = .constant (value.mapStrings f) t := rfl

@[simp] theorem mapStrings_parameter (name : String) (t : Ty) :
    (parameter name t).mapStrings f = .parameter name t := rfl

@[simp] theorem mapStrings_new (t : Ty) (members : List (String × Expr)) :
    (new t members).mapStrings f = .new t (members.map fun m => (m.1, m.2.mapStrings f)) := by
  rw [← rename_foldMembers]
  rfl

@[simp] theorem mapStrings_call (m : Method) (receiver : Option Expr) (args : List Expr) (t : Ty) :
    (call m receiver args t).mapStrings f
      = .call m (receiver.map (mapStrings f)) (args.map (mapStrings f)) t := by
  cases receiver <;> simp [mapStrings, fold, withChildren, foldList_eq_map]

@[simp] theorem mapStrings_conditional (test ifTrue ifFalse : Expr) :
    (conditional test ifTrue ifFalse).mapStrings f
      = .conditional (test.mapStrings f) (ifTrue.mapStrings f) (ifFalse.mapStrings f) := rfl

@[simp] theorem mapStrings_lambda (params : List Parameter) (body : Expr) :
    (lambda params body).mapStrings f = .lambda params (body.mapStrings f) := rfl

@[simp] theorem mapStrings_memberInit (t : Ty) (bindings : List (String × Expr)) :
    (memberInit t bindings).mapStrings f
      = .memberInit t (bindings.map fun m => (m.1, m.2.mapStrings f)) := by
  rw [← rename_foldMembers]
  rfl

@[simp] theorem mapStrings_listInit (t : Ty) (elements : List Expr) :
    (listInit t elements).mapStrings f = .listInit t (elements.map (mapStrings f)) := by
  simp [mapStrings, fold, withChildren, foldList_eq_map]

@[simp] theorem mapStrings_newArray (t : Ty) (elements : List Expr) :
    (newArray t elements).mapStrings f = .newArray t (elements.map (mapStrings f)) := by
  simp [mapStrings, fold, withChildren, foldList_eq_map]

@[simp] theorem mapStrings_invoke (target : Expr) (args : List Expr) (t : Ty) :
    (invoke target args t).mapStrings f
      = .invoke (target.mapStrings f) (args.map (mapStrings f)) t := by
  simp [mapStrings, fold, withChildren, foldList_eq_map]

@[simp] theorem mapStrings_typeIs (operand : Expr) (target : Ty) :
    (typeIs operand target).mapStrings f = .typeIs (operand.mapStrings f) target := rfl

@[simp] theorem children_mapStrings (e : Expr) :
    (e.mapStrings f).children = e.children.map (mapStrings f) := by
  cases e with
  | call m receiver args t => cases receiver <;> simp [children]
  | _ => simp [children]

@[simp] theorem type_mapStrings : ∀ e : Expr, (e.mapStrings f).type = e.type
  | .binary op left _ => by simp [type, type_mapStrings left]
  | .unary .not _ => rfl
  | .unary .negate operand => by simp [type, type_mapStrings operand]
  | .unary (.convert _) _ => rfl
  | .conditional _ ifTrue _ => by simp [type, type_mapStrings ifTrue]
  | .lambda _ body => by simp [type, type_mapStrings body]
  | .member .. | .constant .. | .parameter .. | .new .. | .call .. | .memberInit .. | .listInit ..
  | .newArray .. | .invoke .. | .typeIs .. => by simp [type]

@[simp] theorem memberPath?_mapStrings : ∀ e : Expr, (e.mapStrings f).memberPath? = e.memberPath?
  | .unary (.convert _) operand => by simp [memberPath?, memberPath?_mapStrings operand]
  | .member object _ _ => by simp [memberPath?, memberPath?_mapStrings object]
  | .unary .not _ | .unary .negate _ | .binary .. | .constant .. | .parameter .. | .new ..
  | .call .. | .conditional .. | .lambda .. | .memberInit .. | .listInit .. | .newArray ..
  | .invoke .. | .typeIs .. => by simp [memberPath?]

@[simp] theorem isAggregate_mapStrings (e : Expr) : (e.mapStrings f).isAggregate = e.isAggregate := by
  cases e with
  | call m receiver args t => cases m <;> simp [isAggregate]
  | _ => simp [isAggregate]

@[simp] theorem aggregateDepth_mapStrings (e : Expr) :
    (e.mapStrings f).aggregateDepth = e.aggregateDepth := by
  induction e using children_induction with
  | node e ih =>
    rw [aggregateDepth_eq, aggregateDepth_eq e, children_mapStrings, List.map_map,
      isAggregate_mapStrings, List.map_congr_left (f := aggregateDepth ∘ mapStrings f) ih]

end

theorem mapStrings_id (e : Expr) : e.mapStrings id = e := by
  induction e using children_induction with
  | node e ih =>
    have hchildren : e.children.map (fold fun node children =>
        match node with
        | .constant value t => .constant (value.mapStrings id) t
        | node => node.withChildren children) = e.children := by
      refine (List.map_congr_left ih).trans (List.map_id _)
    rw [mapStrings, fold_eq, hchildren]
    cases e with
    | constant value t => simp [Literal.mapStrings_id]
    | _ => exact withChildren_children _

variable {f}

mutual
/-- **An injective renaming does not change which expressions are equal.** -/
theorem beq_mapStrings (hf : f.Injective) :
    ∀ e e' : Expr, (e.mapStrings f).beq (e'.mapStrings f) = e.beq e'
  | .binary _ l r, e' => by
    cases e' <;> simp [beq, beq_mapStrings hf l, beq_mapStrings hf r]
  | .unary _ operand, e' => by cases e' <;> simp [beq, beq_mapStrings hf operand]
  | .member object _ _, e' => by cases e' <;> simp [beq, beq_mapStrings hf object]
  | .constant value _, e' => by
    cases e' with
    | constant value' _ =>
      have hvalue : (value.mapStrings f == value'.mapStrings f) = (value == value') :=
        Literal.beq_mapStrings hf value value'
      simp [beq, hvalue]
    | _ => simp [beq]
  | .parameter _ _, e' => by cases e' <;> simp [beq]
  | .new _ members, e' => by cases e' <;> simp [beq, beqMembers_map hf members]
  | .call _ none args _, e' => by
    cases e' with
    | call _ receiver' args' _ => cases receiver' <;> simp [beq, beqList_map hf args]
    | _ => simp [beq]
  | .call _ (some receiver) args _, e' => by
    cases e' with
    | call _ receiver' args' _ =>
      cases receiver' <;> simp [beq, beqList_map hf args, beq_mapStrings hf receiver]
    | _ => simp [beq]
  | .conditional a b c, e' => by
    cases e' <;> simp [beq, beq_mapStrings hf a, beq_mapStrings hf b, beq_mapStrings hf c]
  | .lambda _ body, e' => by cases e' <;> simp [beq, beq_mapStrings hf body]
  | .memberInit _ bindings, e' => by cases e' <;> simp [beq, beqMembers_map hf bindings]
  | .listInit _ elements, e' => by cases e' <;> simp [beq, beqList_map hf elements]
  | .newArray _ elements, e' => by cases e' <;> simp [beq, beqList_map hf elements]
  | .invoke target args _, e' => by
    cases e' <;> simp [beq, beq_mapStrings hf target, beqList_map hf args]
  | .typeIs operand _, e' => by cases e' <;> simp [beq, beq_mapStrings hf operand]

theorem beqList_map (hf : f.Injective) :
    ∀ es es' : List Expr, beqList (es.map (mapStrings f)) (es'.map (mapStrings f)) = beqList es es'
  | [], es' => by cases es' <;> rfl
  | e :: es, [] => rfl
  | e :: es, e' :: es' => by simp [beqList, beq_mapStrings hf e e', beqList_map hf es es']

theorem beqMembers_map (hf : f.Injective) :
    ∀ ms ms' : List (String × Expr), beqMembers (ms.map fun m => (m.1, m.2.mapStrings f))
      (ms'.map fun m => (m.1, m.2.mapStrings f)) = beqMembers ms ms'
  | [], ms' => by cases ms' <;> rfl
  | m :: ms, [] => rfl
  | (_, e) :: ms, (_, e') :: ms' => by
    simp [beqMembers, beq_mapStrings hf e e', beqMembers_map hf ms ms']
end

theorem list_beq_map (hf : f.Injective) (es es' : List Expr) :
    (es.map (mapStrings f) == es'.map (mapStrings f)) = (es == es') := by
  induction es generalizing es' with
  | nil => cases es' <;> rfl
  | cons e es ih =>
    cases es' with
    | nil => rfl
    | cons e' es' =>
      have hhead : (e.mapStrings f == e'.mapStrings f) = (e == e') := beq_mapStrings hf e e'
      rw [List.map_cons, List.map_cons, List.cons_beq_cons, List.cons_beq_cons, hhead, ih es']

end Expr

/-! ## 3. Queries -/

namespace Lambda

/-- A lambda with the strings of its constants replaced. -/
def mapStrings (l : Lambda) : Lambda := { l with body := l.body.mapStrings f }

theorem mapStrings_id (l : Lambda) : l.mapStrings id = l := by
  rw [mapStrings, Expr.mapStrings_id]

variable {f}

@[simp] theorem params_mapStrings (l : Lambda) : (l.mapStrings f).params = l.params := rfl

@[simp] theorem body_mapStrings (l : Lambda) : (l.mapStrings f).body = l.body.mapStrings f := rfl

@[simp] theorem returnType_mapStrings (l : Lambda) : (l.mapStrings f).returnType = l.returnType :=
  Expr.type_mapStrings l.body

@[simp] theorem isGrouped_mapStrings (l : Lambda) : (l.mapStrings f).isGrouped = l.isGrouped := rfl

theorem beq_mapStrings (hf : f.Injective) (l l' : Lambda) :
    (l.mapStrings f == l'.mapStrings f) = (l == l') := by
  change (l.params == l'.params && (l.body.mapStrings f).beq (l'.body.mapStrings f))
    = (l.params == l'.params && l.body.beq l'.body)
  rw [Expr.beq_mapStrings hf]

end Lambda

namespace Query

/-- **A query with the strings of its constants replaced.** -/
def mapStrings : Query → Query
  | .table rowType => .table rowType
  | .select source selector => .select source.mapStrings (selector.mapStrings f)
  | .filter source predicate => .filter source.mapStrings (predicate.mapStrings f)
  | .join outer inner outerKey innerKey result =>
    .join outer.mapStrings inner.mapStrings (outerKey.mapStrings f) (innerKey.mapStrings f)
      (result.mapStrings f)
  | .crossJoin source collection result =>
    .crossJoin source.mapStrings collection.mapStrings (result.mapStrings f)
  | .orderBy source key kind => .orderBy source.mapStrings (key.mapStrings f) kind
  | .call method source args => .call method source.mapStrings (args.map (Expr.mapStrings f))

theorem mapStrings_id (q : Query) : q.mapStrings id = q := by
  induction q with
  | call method source args ih =>
    have hargs : args.map (Expr.mapStrings id) = args :=
      (List.map_congr_left fun e _ => Expr.mapStrings_id e).trans (List.map_id _)
    rw [mapStrings, ih, hargs]
  | _ => simp_all [mapStrings, Lambda.mapStrings_id]

variable {f}

@[simp] theorem aggregateDepth_mapStrings (q : Query) :
    (q.mapStrings f).aggregateDepth = q.aggregateDepth := by
  induction q <;> simp_all [mapStrings, aggregateDepth]

/-- **An injective renaming does not change which queries are equal.** -/
theorem beq_mapStrings (hf : f.Injective) (q q' : Query) :
    (q.mapStrings f).beq (q'.mapStrings f) = q.beq q' := by
  induction q generalizing q' with
  | call method source args ih =>
    cases q' with
    | call method' source' args' => simp [mapStrings, beq, ih, Expr.list_beq_map hf]
    | _ => rfl
  | _ => cases q' <;> simp_all [mapStrings, beq, Lambda.beq_mapStrings hf]

end Query

end ChainQuery
