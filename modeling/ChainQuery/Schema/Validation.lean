import ChainQuery.Schema.Basic
/-!
# Validation of schemas

A schema can be used if every primary key and every foreign key is a column, every row type that is
referred to is there, and every navigation leads to a row type with a foreign key back.  The first
fault in the order of the names is reported.
-/

namespace ChainQuery

/-- What is wrong with a schema. -/
inductive SchemaFault where
  | primaryKeyNotAColumn (rowType primaryKey : String)
  | foreignKeyNotAColumn (rowType column : String)
  | unknownRowType (rowType target : String)
  | navigationWithoutForeignKey (rowType navigation target : String)
  deriving Repr, DecidableEq

/-- The message of a fault. -/
def SchemaFault.message : SchemaFault → String
  | primaryKeyNotAColumn rowType primaryKey =>
    "row type '" ++ rowType ++ "': primary key '" ++ primaryKey ++ "' is not a column"
  | foreignKeyNotAColumn rowType column =>
    "row type '" ++ rowType ++ "': foreign key '" ++ column ++ "' is not a column"
  | unknownRowType rowType target =>
    "row type '" ++ rowType ++ "' refers to unknown row type '" ++ target ++ "'"
  | navigationWithoutForeignKey rowType navigation target =>
    "row type '" ++ rowType ++ "': navigation '" ++ navigation ++ "' targets '" ++ target
      ++ "', which has no foreign key to '" ++ rowType ++ "'"

namespace Schema

/-- Checks the primary key of a row type. -/
def checkPrimaryKey (name : String) (info : RowType) : Except SchemaFault Unit :=
  if (info.columns.lookup info.primaryKey).isSome then .ok ()
  else .error (.primaryKeyNotAColumn name info.primaryKey)

/-- Checks a foreign key of a row type. -/
def checkForeignKey (s : Schema) (name : String) (info : RowType) (principal column : String) :
    Except SchemaFault Unit :=
  if (s.rowTypes.lookup principal).isNone then .error (.unknownRowType name principal)
  else if (info.columns.lookup column).isNone then .error (.foreignKeyNotAColumn name column)
  else .ok ()

/-- Checks a navigation of a row type. -/
def checkNavigation (s : Schema) (name navigation target : String) : Except SchemaFault Unit :=
  match s.rowTypes.lookup target with
  | none => .error (.unknownRowType name target)
  | some info =>
    if (info.foreignKeys.lookup name).isSome then .ok ()
    else .error (.navigationWithoutForeignKey name navigation target)

/-- Checks a row type. -/
def checkRowType (s : Schema) (name : String) (info : RowType) : Except SchemaFault Unit := do
  checkPrimaryKey name info
  info.foreignKeys.forM fun (principal, column) => s.checkForeignKey name info principal column
  info.navigations.forM fun (navigation, target) => s.checkNavigation name navigation target

/-- **Checks a schema.** -/
def validate (s : Schema) : Except SchemaFault Unit :=
  s.rowTypes.forM fun (name, info) => s.checkRowType name info

end Schema

end ChainQuery
