import ChainQuery.Evaluate.Operation
import ChainQuery.Expr.Basic
/-!
# The value of an expression

`Expr.evalWith` computes the value of an expression, given the values of the parameters; `Expr.eval`
does so without any, so that an expression that depends on a parameter has no value.  Operands are
evaluated from left to right and only if they are needed: a conjunction stops at `false`, a
disjunction at `true`, and a conditional takes one branch.
-/

namespace ChainQuery.Expr

mutual
/-- The value of an expression under an assignment of values to parameters. -/
def evalWith (ρ : String → Except Failure Literal) : Expr → Except Failure Literal
  | .constant value _ => .ok value
  | .binary op left right => do
    let l ← left.evalWith ρ
    match op, l with
    | .and, .bool false => return .bool false
    | .or, .bool true => return .bool true
    | op, l => op.apply l (← right.evalWith ρ)
  | .unary op operand => do op.apply (← operand.evalWith ρ)
  | .member object name _ => do (← object.evalWith ρ).member name
  | .conditional test ifTrue ifFalse => do
    match ← test.evalWith ρ with
    | .bool true => ifTrue.evalWith ρ
    | .bool false => ifFalse.evalWith ρ
    | other => throw (.testNotBoolean other.kind)
  | .new _ members => do return .object (Assoc.ofEntries (← evalMembers ρ members))
  | .memberInit _ bindings => do return .object (Assoc.ofEntries (← evalMembers ρ bindings))
  | .listInit _ elements => do return .list (← evalList ρ elements)
  | .newArray _ elements => do return .list (← evalList ρ elements)
  | .call (.string m) receiver args _ =>
    match receiver with
    | none => .error (.needsReceiver m.text)
    | some r => do
      match ← r.evalWith ρ with
      | .string s => m.apply s (← evalList ρ args)
      | other => throw (.calledOn m.text other.kind)
  | .call (.aggregate a) _ args _ =>
    match args with
    | [source] => do
      match ← source.evalWith ρ with
      | .list items => a.apply items
      | other => throw (.calledOn a.text other.kind)
    | _ => .error (.selectorNotLocal a.text)
  | .call (.other declaringType name) _ _ _ => .error (.methodNotLocal declaringType name)
  | .typeIs operand target => do return .bool ((← operand.evalWith ρ).hasType target)
  | .parameter name _ => ρ name
  | .lambda _ _ => .error .lambdaHasNoValue
  | .invoke _ _ _ => .error .cannotInvoke

/-- The values of the expressions of a list, from left to right. -/
def evalList (ρ : String → Except Failure Literal) : List Expr → Except Failure (List Literal)
  | [] => .ok []
  | e :: rest => do return (← e.evalWith ρ) :: (← evalList ρ rest)

/-- The values of members, from left to right. -/
def evalMembers (ρ : String → Except Failure Literal) :
    List (String × Expr) → Except Failure (List (String × Literal))
  | [] => .ok []
  | (name, e) :: rest => do return (name, ← e.evalWith ρ) :: (← evalMembers ρ rest)
end

/-- **The value of an expression that depends on no parameter.** -/
def eval (e : Expr) : Except Failure Literal :=
  e.evalWith fun name => .error (.dependsOnParameter name)

end ChainQuery.Expr
