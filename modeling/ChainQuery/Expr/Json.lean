import ChainQuery.Expr.Basic
import ChainQuery.Literal.Json
/-!
# The JSON form of expressions

An expression is an object whose member `node` says which kind of node it is; the other members are
the parts of the node.  A missing receiver is written as `null`, and a missing list of arguments is
read as an empty one.  The parts of a node are read leniently, the node itself is not unless it is part
of another.
-/

namespace ChainQuery

namespace Parameter

/-- Writes a parameter. -/
def toJson (p : Parameter) : Json := .object [("name", .string p.name), ("type", p.type.toJson)]

/-- Reads a parameter whose type may nest `levels` arrays and objects. -/
def decode (manner : Json.Manner) (levels : Nat) (j : Json) : Option Parameter := do
  let ms ← j.members?
  return { name := ← ms.string? "name", type := ← Ty.decode manner levels (← ms.required? "type") }

end Parameter

namespace Expr

/-! ## 1. Writing -/

mutual
/-- **Writes an expression.** -/
def toJson : Expr → Json
  | .binary op left right =>
    .object [("node", .string "binary"), ("operator", op.toJson), ("left", left.toJson),
      ("right", right.toJson)]
  | .unary op operand =>
    .object [("node", .string "unary"), ("operator", op.toJson), ("operand", operand.toJson)]
  | .member object name t =>
    .object [("node", .string "member"), ("object", object.toJson), ("member", .string name),
      ("type", t.toJson)]
  | .constant value t =>
    .object [("node", .string "constant"), ("value", value.toJson), ("type", t.toJson)]
  | .parameter name t =>
    .object [("node", .string "parameter"), ("name", .string name), ("type", t.toJson)]
  | .new t members =>
    .object [("node", .string "new"), ("type", t.toJson), ("members", .array (pairsToJson members))]
  | .call m receiver args t =>
    .object [("node", .string "call"), ("method", m.toJson),
      ("object", match receiver with
        | some r => r.toJson
        | none => .null),
      ("arguments", .array (listToJson args)), ("type", t.toJson)]
  | .conditional test ifTrue ifFalse =>
    .object [("node", .string "conditional"), ("test", test.toJson), ("if_true", ifTrue.toJson),
      ("if_false", ifFalse.toJson)]
  | .lambda params body =>
    .object [("node", .string "lambda"), ("parameters", .array (params.map Parameter.toJson)),
      ("body", body.toJson)]
  | .memberInit t bindings =>
    .object [("node", .string "member_init"), ("type", t.toJson),
      ("bindings", .array (pairsToJson bindings))]
  | .listInit t elements =>
    .object [("node", .string "list_init"), ("type", t.toJson),
      ("initializers", .array (listToJson elements))]
  | .newArray t elements =>
    .object [("node", .string "new_array"), ("type", t.toJson),
      ("elements", .array (listToJson elements))]
  | .invoke target args t =>
    .object [("node", .string "invoke"), ("target", target.toJson),
      ("arguments", .array (listToJson args)), ("type", t.toJson)]
  | .typeIs operand target =>
    .object [("node", .string "type_is"), ("operand", operand.toJson),
      ("type_operand", target.toJson)]

/-- Writes the expressions of a list. -/
def listToJson : List Expr → List Json
  | [] => []
  | e :: rest => e.toJson :: listToJson rest

/-- Writes members, each as a pair of its name and its expression. -/
def pairsToJson : List (String × Expr) → List Json
  | [] => []
  | (name, e) :: rest => .array [.string name, e.toJson] :: pairsToJson rest
end

/-! ## 2. Reading -/

/-- Reads a list, item by item. -/
def listOf? (decode : Json → Option Expr) (j : Json) : Option (List Expr) := do
  (← j.items?).mapM decode

/-- Reads a member: a pair of its name and its expression. -/
def pairOf? (decode : Json → Option Expr) (j : Json) : Option (String × Expr) := do
  match ← j.items? with
  | [name, e] => return (← name.string?, ← decode e)
  | _ => none

/-- Reads members. -/
def pairsOf? (decode : Json → Option Expr) (j : Json) : Option (List (String × Expr)) := do
  (← j.items?).mapM (pairOf? decode)

/-- Reads an expression that may be `null`. -/
def orNull? (decode : Json → Option Expr) : Json → Option (Option Expr)
  | .null => some none
  | j => (decode j).map some

/-- Reads the type in a member of a node. -/
def typeIn? (ms : Json.Members) (name : String) : Option Ty := do
  Ty.decode .lenient Json.maxDepth (← ms.required? name)

/-- Reads the parameters of a lambda, whose types may nest `levels` arrays and objects. -/
def parametersIn? (manner : Json.Manner) (levels : Nat) (ms : Json.Members) :
    Option (List Parameter) := do
  (← (← ms.required? "parameters").items?).mapM (Parameter.decode manner levels)

/-- Every kind of node, in the order of their numbers. -/
def nodes : List String :=
  ["binary", "unary", "member", "constant", "parameter", "new", "call", "conditional", "lambda",
    "member_init", "list_init", "new_array", "invoke", "type_is"]

/-- Reads an expression nested in at most `levels` others. -/
def decode : Nat → Json.Manner → Json → Option Expr
  | 0, _, _ => none
  | levels + 1, manner, j => do
    let (node, ms) ← j.tagged? manner "node" nodes
    let part? (name : String) : Option Expr := do decode levels .lenient (← ms.required? name)
    match node with
    | "binary" =>
      return .binary (← BinaryOp.ofJson? (← ms.required? "operator")) (← part? "left")
        (← part? "right")
    | "unary" => return .unary (← UnaryOp.ofJson? (← ms.required? "operator")) (← part? "operand")
    | "member" =>
      return .member (← part? "object") (← ms.string? "member") (← typeIn? ms "type")
    | "constant" =>
      return .constant (Literal.ofJson (← ms.required? "value")) (← typeIn? ms "type")
    | "parameter" => return .parameter (← ms.string? "name") (← typeIn? ms "type")
    | "new" =>
      return .new (← typeIn? ms "type") (← pairsOf? (decode levels .lenient) (← ms.required? "members"))
    | "call" =>
      return .call (← Method.ofJson? (← ms.required? "method"))
        (← ms.orElse? "object" none (orNull? (decode levels .lenient)))
        (← ms.orElse? "arguments" [] (listOf? (decode levels .lenient))) (← typeIn? ms "type")
    | "conditional" =>
      return .conditional (← part? "test") (← part? "if_true") (← part? "if_false")
    | "lambda" => return .lambda (← parametersIn? .lenient Json.maxDepth ms) (← part? "body")
    | "member_init" =>
      return .memberInit (← typeIn? ms "type")
        (← pairsOf? (decode levels .lenient) (← ms.required? "bindings"))
    | "list_init" =>
      return .listInit (← typeIn? ms "type")
        (← listOf? (decode levels .lenient) (← ms.required? "initializers"))
    | "new_array" =>
      return .newArray (← typeIn? ms "type") (← listOf? (decode levels .lenient) (← ms.required? "elements"))
    | "invoke" =>
      return .invoke (← part? "target") (← ms.orElse? "arguments" [] (listOf? (decode levels .lenient)))
        (← typeIn? ms "type")
    | "type_is" => return .typeIs (← part? "operand") (← typeIn? ms "type_operand")
    | _ => none

/-- Reads an expression whose text nests at most `levels` arrays and objects and holds no number that
is too large. -/
def ofJsonWithin? (levels : Nat) (j : Json) : Option Expr :=
  if j.depth ≤ levels && j.inRange then decode Json.maxDepth .strict j else none

/-- **Reads an expression** whose text neither nests too deep nor holds a number that is too
large. -/
def ofJson? (j : Json) : Option Expr := ofJsonWithin? Json.maxDepth j

end Expr

namespace Lambda

/-- Writes a lambda. -/
def toJson (l : Lambda) : Json :=
  .object [("parameters", .array (l.params.map Parameter.toJson)), ("body", l.body.toJson)]

/-- Reads a lambda that is part of a query, which has been checked for its nesting and its numbers. -/
def decode (j : Json) : Option Lambda := do
  let ms ← j.members?
  return { params := ← Expr.parametersIn? .lenient Json.maxDepth ms
           body := ← Expr.decode Json.maxDepth .lenient (← ms.required? "body") }

/-- **Reads a lambda that stands by itself.**  The types of its parameters stand on the fourth level of
its text and its body on the second. -/
def ofJson? (j : Json) : Option Lambda := do
  let ms ← j.members?
  return { params := ← Expr.parametersIn? .strict (Json.maxDepth - 3) ms
           body := ← Expr.ofJsonWithin? (Json.maxDepth - 1) (← ms.required? "body") }

end Lambda

end ChainQuery
