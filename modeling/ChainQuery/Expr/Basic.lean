import ChainQuery.Literal.Basic
import ChainQuery.Expr.Operator
/-!
# Expressions

The bodies of predicates, projections and keys.  Besides the type, this file has the three views on
which everything else is built: the static type (`Expr.type`), the direct sub-expressions with
their replacement (`Expr.children`, `Expr.withChildren`), and recursion that sees a node and what
became of its children (`Expr.fold`).

`withChildren_children` and `children_withChildren` say that the two halves of the second view fit:
children are put back where they were taken from.
-/

namespace ChainQuery

/-- A parameter of a lambda. -/
structure Parameter where
  name : String
  type : Ty
  deriving Repr, DecidableEq, Inhabited

/-- An expression. -/
inductive Expr where
  | binary (op : BinaryOp) (left right : Expr)
  | unary (op : UnaryOp) (operand : Expr)
  /-- A member of a row, a record or a captured object. -/
  | member (object : Expr) (name : String) (type : Ty)
  | constant (value : Literal) (type : Ty)
  /-- A reference to a parameter of a lambda. -/
  | parameter (name : String) (type : Ty)
  /-- Construction of a record. -/
  | new (type : Ty) (members : List (String × Expr))
  /-- A call.  A method of strings has a receiver, an aggregate takes its collection first. -/
  | call (method : Method) (receiver : Option Expr) (args : List Expr) (type : Ty)
  | conditional (test ifTrue ifFalse : Expr)
  /-- A lambda in the place of an argument, such as the selector of an aggregate. -/
  | lambda (params : List Parameter) (body : Expr)
  /-- Construction followed by bindings of members. -/
  | memberInit (type : Ty) (bindings : List (String × Expr))
  /-- Construction of a collection followed by its elements. -/
  | listInit (type : Ty) (elements : List Expr)
  | newArray (type : Ty) (elements : List Expr)
  /-- Invocation of a function value. -/
  | invoke (target : Expr) (args : List Expr) (type : Ty)
  /-- A test of the type of a value. -/
  | typeIs (operand : Expr) (target : Ty)
  deriving Inhabited

/-- A lambda: the parameters that it binds, and its body. -/
structure Lambda where
  params : List Parameter
  body : Expr
  deriving Inhabited

/-- A reference to a parameter. -/
def Parameter.reference (p : Parameter) : Expr := .parameter p.name p.type

namespace Expr

/-! ## 1. Static types -/

/-- The static type of an expression. -/
def type : Expr → Ty
  | .binary op left _ => if op.isLogical || op.isComparison then .boolean else left.type
  | .unary .not _ => .boolean
  | .unary .negate operand => operand.type
  | .unary (.convert target) _ => target
  | .member _ _ t => t
  | .constant _ t => t
  | .parameter _ t => t
  | .new t _ => t
  | .call _ _ _ t => t
  | .conditional _ ifTrue _ => ifTrue.type
  | .lambda _ body => body.type
  | .memberInit t _ => t
  | .listInit t _ => t
  | .newArray t _ => t
  | .invoke _ _ t => t
  | .typeIs _ _ => .boolean

/-- The name of the kind of node that stands at the root. -/
def node : Expr → String
  | .binary .. => "binary"
  | .unary .. => "unary"
  | .member .. => "member"
  | .constant .. => "constant"
  | .parameter .. => "parameter"
  | .new .. => "new"
  | .call .. => "call"
  | .conditional .. => "conditional"
  | .lambda .. => "lambda"
  | .memberInit .. => "member_init"
  | .listInit .. => "list_init"
  | .newArray .. => "new_array"
  | .invoke .. => "invoke"
  | .typeIs .. => "type_is"

/-! ## 2. Children -/

/-- The direct sub-expressions, in the order of evaluation. -/
def children : Expr → List Expr
  | .binary _ left right => [left, right]
  | .unary _ operand => [operand]
  | .member object _ _ => [object]
  | .constant _ _ => []
  | .parameter _ _ => []
  | .new _ members => members.map Prod.snd
  | .call _ receiver args _ => receiver.toList ++ args
  | .conditional test ifTrue ifFalse => [test, ifTrue, ifFalse]
  | .lambda _ body => [body]
  | .memberInit _ bindings => bindings.map Prod.snd
  | .listInit _ elements => elements
  | .newArray _ elements => elements
  | .invoke target args _ => target :: args
  | .typeIs operand _ => [operand]

/-- The names of members, each with a new expression. -/
def rename (members : List (String × Expr)) (values : List Expr) : List (String × Expr) :=
  List.zipWith (fun m e => (m.1, e)) members values

/-- The same node over other children.  There must be as many of them as before. -/
def withChildren : Expr → List Expr → Expr
  | .binary op _ _, [left, right] => .binary op left right
  | .unary op _, [operand] => .unary op operand
  | .member _ name t, [object] => .member object name t
  | .new t members, values => .new t (rename members values)
  | .call m (some _) _ t, receiver :: args => .call m (some receiver) args t
  | .call m none _ t, args => .call m none args t
  | .conditional _ _ _, [test, ifTrue, ifFalse] => .conditional test ifTrue ifFalse
  | .lambda params _, [body] => .lambda params body
  | .memberInit t bindings, values => .memberInit t (rename bindings values)
  | .listInit t _, elements => .listInit t elements
  | .newArray t _, elements => .newArray t elements
  | .invoke _ _ t, target :: args => .invoke target args t
  | .typeIs _ target, [operand] => .typeIs operand target
  | e, _ => e

theorem rename_map_snd (members : List (String × Expr)) :
    rename members (members.map Prod.snd) = members := by
  induction members with
  | nil => rfl
  | cons m rest ih => simpa [rename] using ih

theorem map_snd_rename {members : List (String × Expr)} {values : List Expr}
    (h : values.length = members.length) : (rename members values).map Prod.snd = values := by
  induction members generalizing values with
  | nil => simp_all [rename]
  | cons m rest ih =>
    cases values with
    | nil => simp at h
    | cons v vs => simpa [rename] using ih (by simpa using h)

/-- **A node over its own children is itself.** -/
@[simp] theorem withChildren_children (e : Expr) : e.withChildren e.children = e := by
  cases e with
  | call m receiver args t => cases receiver <;> simp [children, withChildren]
  | _ => simp [children, withChildren, rename_map_snd]

/-- **The children of a rebuilt node are those it was given.** -/
theorem children_withChildren {e : Expr} {cs : List Expr} (h : cs.length = e.children.length) :
    (e.withChildren cs).children = cs := by
  cases e with
  | unary | member | lambda | typeIs =>
    match cs, h with
    | [_], _ => rfl
  | binary =>
    match cs, h with
    | [_, _], _ => rfl
  | conditional =>
    match cs, h with
    | [_, _, _], _ => rfl
  | call m receiver args t =>
    cases receiver with
    | none => simp [children, withChildren]
    | some r =>
      cases cs with
      | nil => simp [children] at h
      | cons c rest => simp [children, withChildren]
  | invoke =>
    cases cs with
    | nil => simp [children] at h
    | cons c rest => simp [children, withChildren]
  | new | memberInit =>
    simp only [children, List.length_map] at h
    simp [children, withChildren, map_snd_rename h]
  | constant | parameter => simp_all [children, withChildren]
  | listInit | newArray => simp [children, withChildren]

/-- The members of a record with each expression replaced by what `f` makes of it, left to right. -/
def traverseMembers {m : Type → Type} [Monad m] (f : Expr → m Expr)
    (members : List (String × Expr)) : m (List (String × Expr)) :=
  members.mapM fun (name, e) => do return (name, ← f e)

/-- **Rebuilds a node with each child replaced by what `f` makes of it**, in the order of evaluation. -/
def traverseChildren {m : Type → Type} [Monad m] (f : Expr → m Expr) : Expr → m Expr
  | .binary op left right => do return .binary op (← f left) (← f right)
  | .unary op operand => do return .unary op (← f operand)
  | .member object name t => do return .member (← f object) name t
  | .constant value t => return .constant value t
  | .parameter name t => return .parameter name t
  | .new t members => do return .new t (← traverseMembers f members)
  | .call m none args t => do return .call m none (← args.mapM f) t
  | .call m (some receiver) args t => do
    return .call m (some (← f receiver)) (← args.mapM f) t
  | .conditional test ifTrue ifFalse => do
    return .conditional (← f test) (← f ifTrue) (← f ifFalse)
  | .lambda params body => do return .lambda params (← f body)
  | .memberInit t bindings => do return .memberInit t (← traverseMembers f bindings)
  | .listInit t elements => do return .listInit t (← elements.mapM f)
  | .newArray t elements => do return .newArray t (← elements.mapM f)
  | .invoke target args t => do return .invoke (← f target) (← args.mapM f) t
  | .typeIs operand target => do return .typeIs (← f operand) target

section Traversal

variable {m : Type → Type} [Monad m] [LawfulMonad m]

theorem traverseMembers_eq (f : Expr → m Expr) (members : List (String × Expr)) :
    traverseMembers f members = rename members <$> (members.map Prod.snd).mapM f := by
  induction members with
  | nil => simp [traverseMembers, rename]
  | cons member rest ih =>
    rw [traverseMembers] at ih
    rw [traverseMembers, List.mapM_cons, ih]
    simp [rename]

/-- **A traversal meets the children in their order**, and puts what becomes of them in their places. -/
theorem traverseChildren_eq (f : Expr → m Expr) (e : Expr) :
    e.traverseChildren f = e.withChildren <$> e.children.mapM f := by
  cases e with
  | call method receiver args t =>
    cases receiver with
    | none =>
      simp only [traverseChildren, children, Option.toList_none, List.nil_append, bind_pure_comp]
      rfl
    | some receiver => simp [traverseChildren, children, withChildren]
  | new | memberInit =>
    simp only [traverseChildren, children, traverseMembers_eq, bind_pure_comp, Functor.map_map]
    rfl
  | listInit | newArray =>
    simp only [traverseChildren, children, bind_pure_comp]
    rfl
  | _ => simp [traverseChildren, children, withChildren]

end Traversal

/-! ## 3. Recursion over children -/

mutual
/-- Recursion from the leaves: `step` sees a node and what became of its children. -/
def fold {β : Type} (step : Expr → List β → β) : Expr → β
  | .binary op left right => step (.binary op left right) [left.fold step, right.fold step]
  | .unary op operand => step (.unary op operand) [operand.fold step]
  | .member object name t => step (.member object name t) [object.fold step]
  | .constant value t => step (.constant value t) []
  | .parameter name t => step (.parameter name t) []
  | .new t members => step (.new t members) (foldMembers step members)
  | .call m none args t => step (.call m none args t) (foldList step args)
  | .call m (some receiver) args t =>
    step (.call m (some receiver) args t) (receiver.fold step :: foldList step args)
  | .conditional test ifTrue ifFalse =>
    step (.conditional test ifTrue ifFalse) [test.fold step, ifTrue.fold step, ifFalse.fold step]
  | .lambda params body => step (.lambda params body) [body.fold step]
  | .memberInit t bindings => step (.memberInit t bindings) (foldMembers step bindings)
  | .listInit t elements => step (.listInit t elements) (foldList step elements)
  | .newArray t elements => step (.newArray t elements) (foldList step elements)
  | .invoke target args t => step (.invoke target args t) (target.fold step :: foldList step args)
  | .typeIs operand target => step (.typeIs operand target) [operand.fold step]

/-- `fold` on each expression of a list. -/
def foldList {β : Type} (step : Expr → List β → β) : List Expr → List β
  | [] => []
  | e :: rest => e.fold step :: foldList step rest

/-- `fold` on each member of a record. -/
def foldMembers {β : Type} (step : Expr → List β → β) : List (String × Expr) → List β
  | [] => []
  | (_, e) :: rest => e.fold step :: foldMembers step rest
end

theorem foldList_eq_map {β : Type} (step : Expr → List β → β) (es : List Expr) :
    foldList step es = es.map (fold step) := by
  induction es with
  | nil => rfl
  | cons e rest ih => simp [foldList, ih]

theorem foldMembers_eq_map {β : Type} (step : Expr → List β → β) (ms : List (String × Expr)) :
    foldMembers step ms = (ms.map Prod.snd).map (fold step) := by
  induction ms with
  | nil => rfl
  | cons m rest ih => simp [foldMembers, ih]

/-- **The fold of a node** is the step at it over the folds of its children. -/
theorem fold_eq {β : Type} (step : Expr → List β → β) (e : Expr) :
    e.fold step = step e (e.children.map (fold step)) := by
  cases e with
  | call m receiver args t => cases receiver <;> simp [fold, children, foldList_eq_map]
  | _ => simp [fold, children, foldList_eq_map, foldMembers_eq_map]

/-- How deep aggregates are nested in the arguments of aggregates. -/
def aggregateDepth (e : Expr) : Nat :=
  e.fold fun node depths =>
    let below := depths.foldl max 0
    match node with
    | .call (.aggregate _) _ _ _ => below + 1
    | _ => below

end Expr

namespace Lambda

/-- The type of the value that a lambda returns. -/
def returnType (l : Lambda) : Ty := l.body.type

/-- A lambda in the place of an argument. -/
def toExpr (l : Lambda) : Expr := .lambda l.params l.body

/-- The type of the first parameter. -/
def parameterType? (l : Lambda) : Option Ty := l.params.head?.map Parameter.type

/-- Whether a lambda ranges over groups. -/
def isGrouped (l : Lambda) : Bool := (l.parameterType?.map Ty.isGroup).getD false

/-- The lambda that returns its parameter. -/
def identity (p : Parameter) : Lambda := ⟨[p], p.reference⟩

end Lambda

end ChainQuery
