import ChainQuery.Ty.Basic
/-!
# The JSON form of types

A type is an object with one member, which names its shape and holds its content.  Of the nesting of
its text only what belongs to the type counts, not what stands in members that are ignored.
-/

namespace ChainQuery.Ty

mutual
/-- Writes a type. -/
def toJson : Ty → Json
  | .scalar s => .object [("scalar", s.toJson)]
  | .nullable t => .object [("nullable", t.toJson)]
  | .row name => .object [("row", .string name)]
  | .record name fields =>
    .object [("record", .object [("name", .string name), ("fields", .array (fieldsToJson fields))])]
  | .collection t => .object [("collection", t.toJson)]
  | .group k t => .object [("group", .object [("key", k.toJson), ("element", t.toJson)])]

/-- Writes the fields of a record. -/
def fieldsToJson : List (String × Ty) → List Json
  | [] => []
  | (name, t) :: rest =>
    .object [("name", .string name), ("type", t.toJson)] :: fieldsToJson rest
end

/-- Reads a type whose text may nest `levels` arrays and objects.  A record takes four of them before
the types of its fields, and a group two before its key and its elements. -/
def decode (manner : Json.Manner) : Nat → Json → Option Ty
  | 0, _ => none
  | levels + 1, j => do
    let (shape, content) ← j.variant?
    match shape with
    | "scalar" =>
      if content.depth ≤ levels then return .scalar (← ScalarType.ofJson? manner content) else none
    | "nullable" => return .nullable (← decode manner levels content)
    | "row" => return .row (← content.string?)
    | "record" =>
      if levels < 2 then none
      let ms ← content.members?
      let name ← ms.string? "name"
      let fields ← (← (← ms.required? "fields").items?).mapM fun field => do
        let ms ← field.members?
        let name ← ms.string? "name"
        let type ← ms.required? "type"
        match levels with
        | inner + 3 => return (name, ← decode manner inner type)
        | _ => none
      return .record name fields
    | "collection" => return .collection (← decode manner levels content)
    | "group" =>
      let ms ← content.members?
      match levels with
      | inner + 1 =>
        return .group (← decode manner inner (← ms.required? "key"))
          (← decode manner inner (← ms.required? "element"))
      | 0 => none
    | _ => none

/-- **Reads a type** whose text does not nest too deep. -/
def ofJson? (j : Json) : Option Ty := decode .strict Json.maxDepth j

end ChainQuery.Ty
