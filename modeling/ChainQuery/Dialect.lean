import ChainQuery.Json.Members
/-!
# Dialects

What may differ between the databases that the SQL is written for: the token of division.
-/

namespace ChainQuery

/-- The token of division. -/
inductive DivisionOp where
  | slash
  /-- Integer division in some databases. -/
  | backslash
  deriving Repr, DecidableEq, Inhabited

namespace DivisionOp

/-- The token itself. -/
def token : DivisionOp → String
  | slash => "/"
  | backslash => "\\"

/-- The name of the token. -/
def name : DivisionOp → String
  | slash => "slash"
  | backslash => "backslash"

/-- The token of a name. -/
def ofName? : String → Option DivisionOp
  | "slash" => some slash
  | "backslash" => some backslash
  | _ => none

@[simp] theorem ofName?_name (d : DivisionOp) : ofName? d.name = some d := by
  cases d <;> rfl

end DivisionOp

/-- The flavour of SQL that is written. -/
structure Dialect where
  division : DivisionOp := .slash
  deriving Repr, DecidableEq, Inhabited

namespace Dialect

/-- Writes a dialect. -/
def toJson (d : Dialect) : Json := .object [("divisionOperator", .string d.division.name)]

/-- Reads a dialect. -/
def ofJson? (j : Json) : Option Dialect := do
  let ms ← j.members?
  return { division := ← ms.orElse? "divisionOperator" .slash fun j => do
    DivisionOp.ofName? (← j.unit? .strict) }

end Dialect

end ChainQuery
