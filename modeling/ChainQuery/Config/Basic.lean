import ChainQuery.Json.Printer
import ChainQuery.Json.Reader
import ChainQuery.Schema.Json
import ChainQuery.Schema.Validation
/-!
# Configurations

The schema and the dialect as they are kept in a file, with the version of its format.  A written
configuration leaves out the dialect if it is the default one.
-/

namespace ChainQuery

/-- A configuration file. -/
structure Config where
  version : Nat
  schema : Schema := {}
  dialect : Dialect := {}
  deriving Repr, DecidableEq

/-- Why a text is no configuration. -/
inductive ConfigError where
  | malformed
  | unsupportedVersion (version : Nat)
  deriving Repr, DecidableEq

/-- The message of a configuration error. -/
def ConfigError.message : ConfigError → String
  | malformed => "the text is not a configuration"
  | unsupportedVersion version =>
    "unsupported configuration version " ++ Decimal.digitText version

namespace Config

/-- The version of the format that is read and written. -/
def currentVersion : Nat := 1

/-! ## 1. Writing -/

/-- Writes a configuration. -/
def toJson (c : Config) : Json :=
  .object ([("version", .int c.version), ("metadata", .object [("rowTypes", c.schema.toJson)])]
    ++ if c.dialect == {} then [] else [("dialect", c.dialect.toJson)])

/-- **The text of a configuration file.** -/
def write (c : Config) : String := c.toJson.pretty 0 ++ "\n"

/-! ## 2. Reading -/

/-- Reads a version: a natural number of 32 bits. -/
def version? : Json → Option Nat
  | .number (.int i) => if 0 ≤ i ∧ i.toNat < UInt32.size then some i.toNat else none
  | _ => none

/-- Reads the schema of a configuration. -/
def schema? (j : Json) : Option Schema := do Schema.ofJson? (← (← j.members?).required? "rowTypes")

/-- Reads a configuration of any version. -/
def decode (j : Json) : Option Config := do
  let ms ← j.members?
  return { version := ← version? (← ms.required? "version")
           schema := ← ms.orElse? "metadata" {} schema?
           dialect := ← ms.orElse? "dialect" {} Dialect.ofJson? }

/-- Reads a configuration of the current version. -/
def ofJson (j : Json) : Except ConfigError Config :=
  match decode j with
  | none => .error .malformed
  | some c => if c.version == currentVersion then .ok c else .error (.unsupportedVersion c.version)

/-- **Reads a configuration file.** -/
def parse (text : String) : Except ConfigError Config :=
  match Json.parse? text with
  | none => .error .malformed
  | some j => ofJson j

/-- **What queries are compiled against**, if the schema of a configuration can be used. -/
def toEnv (c : Config) : Except SchemaFault Env := do
  c.schema.validate
  return { schema := c.schema, dialect := c.dialect }

end Config

end ChainQuery
