import ChainQuery.Literal.Basic
import ChainQuery.Json.Members
/-!
# The JSON form of literals

A literal is written as the JSON value that it is.  Reading keeps integers and doubles apart by how
they are written: a number without fraction and exponent that fits in 64 bits is an integer.
-/

namespace ChainQuery.Literal

mutual
/-- Writes a literal. -/
def toJson : Literal → Json
  | .null => .null
  | .bool b => .bool b
  | .int i => .int i.toInt
  | .float x => .float x
  | .string s => .string s
  | .list items => .array (itemsToJson items)
  | .object members => .object (membersToJson members)

/-- Writes the items of a list. -/
def itemsToJson : List Literal → List Json
  | [] => []
  | l :: rest => l.toJson :: itemsToJson rest

/-- Writes the members of an object. -/
def membersToJson : List (String × Literal) → List (String × Json)
  | [] => []
  | (name, l) :: rest => (name, l.toJson) :: membersToJson rest
end

/-- The literal of a number. -/
def ofNumber : Json.Number → Literal
  | .int i =>
    if i ≤ Int64.maxValue.toInt then .int (Int64.ofInt i) else .float (UInt64.ofNat i.toNat).toFloat
  | .float x => .float x

mutual
/-- The literal that a JSON value is.  A member of an object that is repeated keeps its first place
and has its last value. -/
def ofJson : Json → Literal
  | .null => .null
  | .bool b => .bool b
  | .number n => ofNumber n
  | .string s => .string s
  | .array items => .list (ofItems items)
  | .object members => .object (Assoc.ofEntries (ofMembers members))

/-- The literals of the items of an array. -/
def ofItems : List Json → List Literal
  | [] => []
  | j :: rest => ofJson j :: ofItems rest

/-- The literals of the members of an object. -/
def ofMembers : List (String × Json) → List (String × Literal)
  | [] => []
  | (name, j) :: rest => (name, ofJson j) :: ofMembers rest
end

/-- **Reads a literal** whose text neither nests too deep nor holds a number that is too large. -/
def ofJson? (j : Json) : Option Literal :=
  if j.depth ≤ Json.maxDepth && j.inRange then some (ofJson j) else none

end ChainQuery.Literal
