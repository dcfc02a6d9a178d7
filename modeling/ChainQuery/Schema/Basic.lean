import ChainQuery.Error
import ChainQuery.Dialect
/-!
# Schemas

Which row types there are, which tables hold them, which members are columns, and how row types
refer to each other.  A schema is a map from the names of row types to what is known of them; the
look-ups here are the only way in which the compiler asks for any of it.
-/

namespace ChainQuery

/-! ## 1. Row types -/

/-- A column of a table. -/
structure Column where
  /-- The name of the column in the database. -/
  name : String
  type : ScalarType
  description : Option String := none
  deriving Repr, DecidableEq, Inhabited

/-- What is known of a row type. -/
structure RowType where
  table : String
  /-- The member that holds the primary key. -/
  primaryKey : String
  /-- The members that are columns, in order. -/
  columns : List (String × Column)
  /-- For each principal row type, sorted by name, the member that references its primary key. -/
  foreignKeys : List (String × String) := []
  /-- The members that lead to many rows of another row type, sorted by name, with that type. -/
  navigations : List (String × String) := []
  deriving Repr, DecidableEq, Inhabited

/-- The row types by name, sorted. -/
structure Schema where
  rowTypes : List (String × RowType) := []
  deriving Repr, DecidableEq, Inhabited

namespace Schema

/-! ## 2. Look-ups -/

/-- A registered row type. -/
def rowType (s : Schema) (name : String) : Except Error RowType :=
  match s.rowTypes.lookup name with
  | some info => .ok info
  | none => .error (.missingMetadata ("row type '" ++ name ++ "'"))

/-- The member of `child` that references the primary key of `principal`. -/
def foreignKey (s : Schema) (child principal : String) : Except Error String := do
  match (← s.rowType child).foreignKeys.lookup principal with
  | some member => return member
  | none =>
    throw (.missingMetadata ("foreign key from '" ++ child ++ "' to '" ++ principal ++ "'"))

/-- The row type that a navigation of `name` leads to. -/
def navigation (s : Schema) (name member : String) : Except Error String := do
  match (← s.rowType name).navigations.lookup member with
  | some target => return target
  | none => throw (.missingMetadata ("navigation '" ++ name ++ "." ++ member ++ "'"))

/-- The database column of a member.  A member that is no column keeps its own name. -/
def columnName (s : Schema) (name member : String) : Except Error String := do
  return (((← s.rowType name).columns.lookup member).map Column.name).getD member

/-- The type of a registered column. -/
def columnType (s : Schema) (name member : String) : Except Error Ty := do
  match (← s.rowType name).columns.lookup member with
  | some column => return .scalar column.type
  | none => throw (.missingMetadata ("column '" ++ name ++ "." ++ member ++ "'"))

end Schema

/-- What a compilation is done against: a schema and a dialect. -/
structure Env where
  schema : Schema
  dialect : Dialect := {}
  deriving Repr, DecidableEq, Inhabited

end ChainQuery
