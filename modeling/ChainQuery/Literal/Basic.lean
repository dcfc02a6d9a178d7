import ChainQuery.Assoc
import ChainQuery.Ty.Basic
import ChainQuery.Decimal.Layout
/-!
# Literals

Constants that a query holds: written in it, or captured from the program around it.  Integers have
64 bits, other numbers are doubles, and an object is a captured record with its members in the
order in which they were first given.
-/

namespace ChainQuery

/-- A literal value. -/
inductive Literal where
  | null
  | bool (value : Bool)
  | int (value : Int64)
  | float (value : Float)
  | string (value : String)
  | list (items : List Literal)
  /-- A captured object; each member has a name of its own. -/
  | object (members : List (String × Literal))
  deriving Inhabited

namespace Literal

/-! ## 1. Views -/

/-- Whether a literal is the null value. -/
def isNull : Literal → Bool
  | .null => true
  | _ => false

/-- What kind of value a literal is, in a word for messages. -/
def kind : Literal → String
  | .null => "null"
  | .bool _ => "boolean"
  | .int _ => "integer"
  | .float _ => "float"
  | .string _ => "string"
  | .list _ => "list"
  | .object _ => "object"

mutual
/-- The text of a literal.  Strings stand in quotes and are not escaped. -/
def text : Literal → String
  | .null => "null"
  | .bool b => if b then "true" else "false"
  | .int i => Decimal.integerText i.toInt
  | .float x => Decimal.plain x
  | .string s => "\"" ++ s ++ "\""
  | .list items => "[" ++ String.intercalate ", " (texts items) ++ "]"
  | .object members => "\x7b" ++ String.intercalate "," (assignments members) ++ " \x7d"

/-- The texts of the items of a list. -/
def texts : List Literal → List String
  | [] => []
  | l :: rest => l.text :: texts rest

/-- The members of an object, each after a blank. -/
def assignments : List (String × Literal) → List String
  | [] => []
  | (name, l) :: rest => (" " ++ name ++ " = " ++ l.text) :: assignments rest
end

mutual
/-- The type that a compiler would infer for a literal. -/
def type : Literal → Ty
  | .null => .nullable (.scalar .string)
  | .bool _ => .boolean
  | .int _ => .scalar .int64
  | .float _ => .scalar .double
  | .string _ => .scalar .string
  | .list [] => .collection (.scalar .string)
  | .list (first :: _) => .collection first.type
  | .object members => .record "Closure" (memberTypes members)

/-- The types of the members of an object. -/
def memberTypes : List (String × Literal) → List (String × Ty)
  | [] => []
  | (name, l) :: rest => (name, l.type) :: memberTypes rest
end

/-! ## 2. Equality -/

mutual
/-- Whether two literals are equal.  Literals of different kinds never are; doubles are compared as
numbers; the members of objects are compared by name, whatever their order. -/
def beq : Literal → Literal → Bool
  | .null, .null => true
  | .bool a, .bool b => a == b
  | .int a, .int b => a == b
  | .float a, .float b => a == b
  | .string a, .string b => a == b
  | .list xs, .list ys => beqItems xs ys
  | .object ms, .object ns => ms.length == ns.length && beqMembers ms ns
  | _, _ => false

/-- Whether two lists of literals are equal, item by item. -/
def beqItems : List Literal → List Literal → Bool
  | [], [] => true
  | x :: xs, y :: ys => x.beq y && beqItems xs ys
  | _, _ => false

/-- Whether each member has an equal one of the same name in an object. -/
def beqMembers : List (String × Literal) → List (String × Literal) → Bool
  | [], _ => true
  | (name, x) :: rest, ns =>
    (match ns.lookup name with
      | some y => x.beq y
      | none => false) && beqMembers rest ns
end

instance : BEq Literal := ⟨beq⟩

end Literal

end ChainQuery
