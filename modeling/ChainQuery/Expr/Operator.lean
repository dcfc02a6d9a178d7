import ChainQuery.Ty.Json
/-!
# Operators and methods

The operators of expressions and the methods that may be called in them, with their texts and their
JSON forms.
-/

namespace ChainQuery

/-! ## 1. Binary operators -/

/-- An operator with two operands. -/
inductive BinaryOp where
  | and | or
  | equal | notEqual | lessThan | lessThanOrEqual | greaterThan | greaterThanOrEqual
  | add | subtract | multiply | divide | modulo
  deriving Repr, DecidableEq, Inhabited

namespace BinaryOp

/-- Every binary operator. -/
def all : List BinaryOp :=
  [and, or, equal, notEqual, lessThan, lessThanOrEqual, greaterThan, greaterThanOrEqual, add,
    subtract, multiply, divide, modulo]

/-- Whether the operator joins truth values. -/
def isLogical : BinaryOp → Bool
  | and | or => true
  | _ => false

/-- Whether the operator compares. -/
def isComparison : BinaryOp → Bool
  | equal | notEqual | lessThan | lessThanOrEqual | greaterThan | greaterThanOrEqual => true
  | _ => false

/-- The operator in the text of an expression. -/
def symbol : BinaryOp → String
  | and => "&&"
  | or => "||"
  | equal => "=="
  | notEqual => "!="
  | lessThan => "<"
  | lessThanOrEqual => "<="
  | greaterThan => ">"
  | greaterThanOrEqual => ">="
  | add => "+"
  | subtract => "-"
  | multiply => "*"
  | divide => "/"
  | modulo => "%"

/-- The name of the operator. -/
def name : BinaryOp → String
  | and => "and"
  | or => "or"
  | equal => "equal"
  | notEqual => "not_equal"
  | lessThan => "less_than"
  | lessThanOrEqual => "less_than_or_equal"
  | greaterThan => "greater_than"
  | greaterThanOrEqual => "greater_than_or_equal"
  | add => "add"
  | subtract => "subtract"
  | multiply => "multiply"
  | divide => "divide"
  | modulo => "modulo"

/-- The operator of a name. -/
def ofName? (s : String) : Option BinaryOp := all.find? (fun op => op.name == s)

/-- An operator is written as its name. -/
def toJson (op : BinaryOp) : Json := .string op.name

/-- Reads an operator. -/
def ofJson? (j : Json) : Option BinaryOp := do ofName? (← j.unit? .lenient)

@[simp] theorem ofName?_name (op : BinaryOp) : ofName? op.name = some op := by
  cases op <;> decide

end BinaryOp

/-! ## 2. Unary operators -/

/-- An operator with one operand. -/
inductive UnaryOp where
  | not
  | negate
  | convert (target : Ty)
  deriving Repr, DecidableEq, Inhabited

namespace UnaryOp

/-- Writes an operator. -/
def toJson : UnaryOp → Json
  | not => .string "not"
  | negate => .string "negate"
  | convert target => .object [("convert", target.toJson)]

/-- Reads an operator. -/
def ofJson? (j : Json) : Option UnaryOp :=
  match j.unit? .lenient with
  | some "not" => some .not
  | some "negate" => some .negate
  | _ => do
    match ← j.variant? with
    | ("convert", content) => return .convert (← Ty.decode .lenient Json.maxDepth content)
    | _ => none

end UnaryOp

/-! ## 3. Methods -/

/-- A method of strings. -/
inductive StringMethod where
  | startsWith | endsWith | contains | substring | toUpper | toLower
  deriving Repr, DecidableEq, Inhabited

namespace StringMethod

/-- Every method of strings. -/
def all : List StringMethod := [startsWith, endsWith, contains, substring, toUpper, toLower]

/-- The method in the text of an expression. -/
def text : StringMethod → String
  | startsWith => "StartsWith"
  | endsWith => "EndsWith"
  | contains => "Contains"
  | substring => "Substring"
  | toUpper => "ToUpper"
  | toLower => "ToLower"

/-- The name of the method. -/
def name : StringMethod → String
  | startsWith => "starts_with"
  | endsWith => "ends_with"
  | contains => "contains"
  | substring => "substring"
  | toUpper => "to_upper"
  | toLower => "to_lower"

/-- The method of a name. -/
def ofName? (s : String) : Option StringMethod := all.find? (fun m => m.name == s)

@[simp] theorem ofName?_name (m : StringMethod) : ofName? m.name = some m := by
  cases m <;> decide

end StringMethod

/-- A method that computes one value from a collection. -/
inductive Aggregate where
  | count | sum | min | max | average
  deriving Repr, DecidableEq, Inhabited

namespace Aggregate

/-- Every aggregate. -/
def all : List Aggregate := [count, sum, min, max, average]

/-- The aggregate in the text of an expression. -/
def text : Aggregate → String
  | count => "Count"
  | sum => "Sum"
  | min => "Min"
  | max => "Max"
  | average => "Average"

/-- The name of the aggregate. -/
def name : Aggregate → String
  | count => "count"
  | sum => "sum"
  | min => "min"
  | max => "max"
  | average => "average"

/-- The aggregate of a name. -/
def ofName? (s : String) : Option Aggregate := all.find? (fun a => a.name == s)

@[simp] theorem ofName?_name (a : Aggregate) : ofName? a.name = some a := by
  cases a <;> decide

end Aggregate

/-- A method called in an expression. -/
inductive Method where
  | string (method : StringMethod)
  | aggregate (method : Aggregate)
  /-- Any other method, which can be neither evaluated nor compiled. -/
  | other (declaringType name : String)
  deriving Repr, DecidableEq, Inhabited

namespace Method

/-- The method in the text of an expression. -/
def text : Method → String
  | string m => m.text
  | aggregate a => a.text
  | other _ name => name

/-- Writes a method. -/
def toJson : Method → Json
  | string m => .object [("string", .string m.name)]
  | aggregate a => .object [("aggregate", .string a.name)]
  | other declaringType name =>
    .object [("other", .object [("declaring_type", .string declaringType), ("name", .string name)])]

/-- Reads a method. -/
def ofJson? (j : Json) : Option Method := do
  match ← j.variant? with
  | ("string", content) => return .string (← StringMethod.ofName? (← content.unit? .lenient))
  | ("aggregate", content) => return .aggregate (← Aggregate.ofName? (← content.unit? .lenient))
  | ("other", content) =>
    let ms ← content.members?
    return .other (← ms.string? "declaring_type") (← ms.string? "name")
  | _ => none

end Method

end ChainQuery
