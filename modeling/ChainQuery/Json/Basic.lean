/-!
# JSON values

Objects are lists of members: their order and their repeated names are part of the value, since a
reader of members may care for both.  Numbers keep apart integers and doubles, as their texts do.
-/

namespace ChainQuery

/-- A number.  An integer is one written without fraction and exponent, between `-2 ^ 63` and
`2 ^ 64 - 1`; every other number is a double, an infinity standing for a text that is too large. -/
inductive Json.Number where
  | int (value : Int)
  | float (value : Float)
  deriving Repr

/-- A JSON value. -/
inductive Json where
  | null
  | bool (value : Bool)
  | number (value : Json.Number)
  | string (value : String)
  | array (items : List Json)
  | object (members : List (String × Json))
  deriving Repr, Inhabited

namespace Json

/-- The integer `i`. -/
def int (i : Int) : Json := .number (.int i)

/-- The double `x`. -/
def float (x : Float) : Json := .number (.float x)

/-- A string, or `null` for none. -/
def optionalString : Option String → Json
  | none => .null
  | some s => .string s

/-! ## Nesting and range -/

mutual
/-- How many arrays and objects are nested in a value, itself included. -/
def depth : Json → Nat
  | .array items => depthItems items + 1
  | .object members => depthMembers members + 1
  | _ => 0

/-- The deepest nesting among the items of an array. -/
def depthItems : List Json → Nat
  | [] => 0
  | j :: rest => max j.depth (depthItems rest)

/-- The deepest nesting among the members of an object. -/
def depthMembers : List (String × Json) → Nat
  | [] => 0
  | (_, j) :: rest => max j.depth (depthMembers rest)
end

/-- The most arrays and objects that a text may nest. -/
def maxDepth : Nat := 127

mutual
/-- Whether every number of a value is one that a double or an integer can hold. -/
def inRange : Json → Bool
  | .number (.float x) => x.isFinite
  | .array items => inRangeItems items
  | .object members => inRangeMembers members
  | _ => true

/-- `inRange` for the items of an array. -/
def inRangeItems : List Json → Bool
  | [] => true
  | j :: rest => j.inRange && inRangeItems rest

/-- `inRange` for the members of an object. -/
def inRangeMembers : List (String × Json) → Bool
  | [] => true
  | (_, j) :: rest => j.inRange && inRangeMembers rest
end

end Json

end ChainQuery
