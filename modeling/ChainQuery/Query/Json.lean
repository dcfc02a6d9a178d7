import ChainQuery.Query.Basic
import ChainQuery.Expr.Json
import ChainQuery.Json.Reader
/-!
# The JSON form of queries

A query is an object whose member `operator` names its outermost operator.  What an operator is applied
to is read leniently, the outermost operator itself is not.
-/

namespace ChainQuery.Query

/-- **Writes a query.** -/
def toJson : Query → Json
  | .table rowType => .object [("operator", .string "table"), ("row_type", .string rowType)]
  | .select source selector =>
    .object [("operator", .string "select"), ("source", source.toJson),
      ("selector", selector.toJson)]
  | .filter source predicate =>
    .object [("operator", .string "where"), ("source", source.toJson),
      ("predicate", predicate.toJson)]
  | .join outer inner outerKey innerKey result =>
    .object [("operator", .string "join"), ("outer", outer.toJson), ("inner", inner.toJson),
      ("outer_key", outerKey.toJson), ("inner_key", innerKey.toJson),
      ("result_selector", result.toJson)]
  | .crossJoin source collection result =>
    .object [("operator", .string "cross_join"), ("source", source.toJson),
      ("collection", collection.toJson), ("result_selector", result.toJson)]
  | .orderBy source key kind =>
    .object [("operator", .string "order_by"), ("source", source.toJson), ("key", key.toJson),
      ("kind", .string kind.name)]
  | .call method source args =>
    .object [("operator", .string "call"), ("method", .string method), ("source", source.toJson),
      ("arguments", .array (Expr.listToJson args))]

/-- Every operator, in the order of their numbers. -/
def operators : List String :=
  ["table", "select", "where", "join", "cross_join", "order_by", "call"]

/-- Reads a query of at most `levels` operators. -/
def decode : Nat → Json.Manner → Json → Option Query
  | 0, _, _ => none
  | levels + 1, manner, j => do
    let (operator, ms) ← j.tagged? manner "operator" operators
    let part? (name : String) : Option Query := do decode levels .lenient (← ms.required? name)
    let lambda? (name : String) : Option Lambda := do Lambda.decode (← ms.required? name)
    match operator with
    | "table" => return .table (← ms.string? "row_type")
    | "select" => return .select (← part? "source") (← lambda? "selector")
    | "where" => return .filter (← part? "source") (← lambda? "predicate")
    | "join" =>
      return .join (← part? "outer") (← part? "inner") (← lambda? "outer_key")
        (← lambda? "inner_key") (← lambda? "result_selector")
    | "cross_join" =>
      return .crossJoin (← part? "source") (← part? "collection") (← lambda? "result_selector")
    | "order_by" =>
      return .orderBy (← part? "source") (← lambda? "key")
        (← OrderingKind.ofName? (← (← ms.required? "kind").unit? .lenient))
    | "call" =>
      return .call (← ms.string? "method") (← part? "source")
        (← ms.orElse? "arguments" [] (Expr.listOf? (Expr.decode Json.maxDepth .lenient)))
    | _ => none

/-- **Reads a query** whose text neither nests too deep nor holds a number that is too large. -/
def ofJson? (j : Json) : Option Query :=
  if j.depth ≤ Json.maxDepth && j.inRange then decode Json.maxDepth .strict j else none

/-- Reads a query from its text. -/
def parse? (text : String) : Option Query := do ofJson? (← Json.parse? text)

end ChainQuery.Query
