import ChainQuery.Json.Printer
import ChainQuery.ScalarType
/-!
# The JSON schema of configuration files

A document that describes configuration files to other programs.
-/

namespace ChainQuery.Config

/-- A member that describes. -/
def described (text : String) : String × Json := ("description", .string text)

/-- A member that names a type. -/
def typed (name : String) : String × Json := ("type", .string name)

/-- A reference to a definition of the document. -/
def reference (name : String) : String × Json := ("$ref", .string ("#/definitions/" ++ name))

/-- A member that names the members which must be there. -/
def requiring (names : List String) : String × Json := ("required", .array (names.map .string))

/-- A member that lists properties. -/
def properties (ps : List (String × Json)) : String × Json := ("properties", .object ps)

/-- An object, from any name to a definition. -/
def mapTo (content : List (String × Json)) : List (String × Json) :=
  [typed "object", ("additionalProperties", .object content)]

/-- One spelling of the token of division. -/
def spelling (text name : String) : Json :=
  .object [described text, typed "string", ("enum", .array [.string name])]

/-- The definitions of the document. -/
def definitions : List (String × Json) :=
  [ ("Metadata", .object
      [described "Metadata information.", typed "object", requiring ["rowTypes"],
        properties [("rowTypes", .object [reference "RowTypes"])]]),
    ("RowTypes", .object
      (described "Mapping from a row type name to its information."
        :: mapTo [reference "RowTypeInfo"])),
    ("RowTypeInfo", .object
      [described "Information about a row type and the table that stores it.", typed "object",
        requiring ["columns", "primaryKey", "tableName"],
        properties
          [ ("tableName", .object [typed "string"]),
            ("primaryKey", .object [described "The member holding the primary key.",
              typed "string"]),
            ("columns", .object
              (described "Members stored as columns, in declaration order."
                :: mapTo [reference "ColumnInfo"])),
            ("foreignKeys", .object
              (described ("For each principal row type, the member of this row type that "
                  ++ "references its primary key.")
                :: ("default", .object []) :: mapTo [typed "string"])),
            ("navigations", .object
              (described "One-to-many navigation members."
                :: ("default", .object []) :: mapTo [reference "NavigationInfo"])) ]]),
    ("ColumnInfo", .object
      [described "Information about a database column.", typed "object",
        requiring ["name", "type"],
        properties
          [ ("name", .object [described "The name of the column in the database.",
              typed "string"]),
            ("type", .object [reference "ScalarType"]),
            ("description", .object [("default", .null),
              ("type", .array [.string "string", .string "null"])]) ]]),
    ("ScalarType", .object
      [described ("The scalar types a row member may have. This is also the set of types a "
          ++ "conversion may target."),
        typed "string", ("enum", .array (ScalarType.all.map ScalarType.toJson))]),
    ("NavigationInfo", .object
      [described ("A navigation member exposing the rows of another row type that reference "
          ++ "this one."),
        typed "object", requiring ["target"],
        properties [("target", .object [described "The row type on the \"many\" side.",
          typed "string"])]]),
    ("Dialect", .object
      [described "Options for the flavour of SQL the compiler emits.", typed "object",
        properties [("divisionOperator", .object
          [("default", .string "slash"),
            ("allOf", .array [.object [reference "DivisionOperator"]])])]]),
    ("DivisionOperator", .object
      [described "The token emitted for division.",
        ("oneOf", .array
          [ spelling "`/`" "slash",
            spelling "`\\`, integer division in some dialects." "backslash" ])]) ]

/-- **The JSON schema of configuration files.** -/
def document : Json :=
  .object
    [ ("$schema", .string "http://json-schema.org/draft-07/schema#"),
      ("title", .string "ParsedConfiguration"),
      described "The configuration as it is stored on disk.",
      typed "object",
      requiring ["version"],
      properties
        [ ("version", .object [typed "integer", ("format", .string "uint32"),
            ("minimum", .float 0.0)]),
          ("metadata", .object
            [ ("default", .object [("rowTypes", .object [])]),
              ("allOf", .array [.object [reference "Metadata"]]) ]),
          ("dialect", .object [reference "Dialect"]) ],
      ("definitions", .object definitions) ]

end ChainQuery.Config
