import ChainQuery.Json.Members
/-!
# Scalar types

The types that a member of a row may have, which are also the types that a conversion may target.
-/

namespace ChainQuery

/-- A type of single values. -/
inductive ScalarType where
  | boolean | char | string
  | byte | sbyte | int16 | int32 | int64 | uint16 | uint32 | uint64
  | single | double | decimal
  | datetime | guid | enum
  deriving Repr, DecidableEq, Inhabited

namespace ScalarType

/-- Every scalar type. -/
def all : List ScalarType :=
  [boolean, char, string, byte, sbyte, int16, int32, int64, uint16, uint32, uint64, single, double,
    decimal, datetime, guid, enum]

/-- The name of a scalar type. -/
def text : ScalarType → String
  | boolean => "boolean"
  | char => "char"
  | string => "string"
  | byte => "byte"
  | sbyte => "sbyte"
  | int16 => "int16"
  | int32 => "int32"
  | int64 => "int64"
  | uint16 => "uint16"
  | uint32 => "uint32"
  | uint64 => "uint64"
  | single => "single"
  | double => "double"
  | decimal => "decimal"
  | datetime => "datetime"
  | guid => "guid"
  | enum => "enum"

/-- The scalar type of a name. -/
def ofText? (name : String) : Option ScalarType := all.find? (fun s => s.text == name)

/-- Whether values of this type are whole numbers. -/
def isIntegral : ScalarType → Bool
  | byte | sbyte | int16 | int32 | int64 | uint16 | uint32 | uint64 => true
  | _ => false

/-- Whether values of this type are numbers with a fraction. -/
def isFractional : ScalarType → Bool
  | single | double | decimal => true
  | _ => false

/-- Whether values of this type take part in arithmetic. -/
def isNumeric (s : ScalarType) : Bool := s.isIntegral || s.isFractional

/-- Whether values of this type are text. -/
def isTextual : ScalarType → Bool
  | string | char => true
  | _ => false

/-- A scalar type is written as its name. -/
def toJson (s : ScalarType) : Json := .string s.text

/-- Reads a scalar type. -/
def ofJson? (manner : Json.Manner) (j : Json) : Option ScalarType := do ofText? (← j.unit? manner)

/-! ## Names and readers -/

/-- Every scalar type is found by its name. -/
@[simp] theorem ofText?_text (s : ScalarType) : ofText? s.text = some s := by
  cases s <;> decide

@[simp] theorem ofJson?_toJson (manner : Json.Manner) (s : ScalarType) :
    ofJson? manner s.toJson = some s := by
  simp [ofJson?, toJson, Json.unit?]

end ScalarType

end ChainQuery
