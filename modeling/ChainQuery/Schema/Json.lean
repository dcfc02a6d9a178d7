import ChainQuery.Assoc
import ChainQuery.Schema.Basic
/-!
# The JSON form of schemas

Row types, foreign keys and navigations are read in the order of their names, columns in the order
of the text.  A name that is repeated has its last value.
-/

namespace ChainQuery

namespace Column

/-- Writes a column. -/
def toJson (c : Column) : Json :=
  .object [("name", .string c.name), ("type", c.type.toJson),
    ("description", .optionalString c.description)]

/-- Reads a string or `null`. -/
def stringOrNull? : Json → Option (Option String)
  | .null => some none
  | j => j.string?.map some

/-- Reads a column. -/
def ofJson? (j : Json) : Option Column := do
  let ms ← j.members?
  return { name := ← ms.string? "name"
           type := ← ScalarType.ofJson? .strict (← ms.required? "type")
           description := ← ms.orElse? "description" none stringOrNull? }

end Column

namespace RowType

/-- Writes a row type. -/
def toJson (r : RowType) : Json :=
  .object [("tableName", .string r.table), ("primaryKey", .string r.primaryKey),
    ("columns", .object (r.columns.map fun (member, c) => (member, c.toJson))),
    ("foreignKeys", .object (r.foreignKeys.map fun (principal, m) => (principal, .string m))),
    ("navigations", .object (r.navigations.map fun (member, target) =>
      (member, .object [("target", .string target)])))]

/-- Reads the entries of an object. -/
def entriesOf? {α : Type} (decode : Json → Option α) (j : Json) : Option (List (String × α)) := do
  (← j.members?).mapM fun (name, content) => do return (name, ← decode content)

/-- Reads where a navigation leads. -/
def target? (j : Json) : Option String := do (← j.members?).string? "target"

/-- Reads a row type. -/
def ofJson? (j : Json) : Option RowType := do
  let ms ← j.members?
  return { table := ← ms.string? "tableName"
           primaryKey := ← ms.string? "primaryKey"
           columns := Assoc.ofEntries (← entriesOf? Column.ofJson? (← ms.required? "columns"))
           foreignKeys := Assoc.sortedOfEntries
             (← ms.orElse? "foreignKeys" [] (entriesOf? Json.string?))
           navigations := Assoc.sortedOfEntries
             (← ms.orElse? "navigations" [] (entriesOf? target?)) }

end RowType

namespace Schema

/-- Writes the row types of a schema. -/
def toJson (s : Schema) : Json := .object (s.rowTypes.map fun (name, r) => (name, r.toJson))

/-- **Reads the row types of a schema.**  What is known of them nests a few levels only, and what is
not known is ignored however deep it nests. -/
def ofJson? (j : Json) : Option Schema := do
  return { rowTypes := Assoc.sortedOfEntries (← RowType.entriesOf? RowType.ofJson? j) }

end Schema

end ChainQuery
