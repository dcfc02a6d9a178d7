import ChainQuery.Compile.Plan
import ChainQuery.Config.Basic
import ChainQuery.Config.Document
import ChainQuery.Query.Json
/-!
# Commands

What the command line can be asked for, given the texts of the files that it names: the SQL of a query
under a configuration, and the JSON schema of configurations.
-/

namespace ChainQuery

/-- A parameter in the list beside a statement. -/
def Sql.Param.toJson : Sql.Param → Json
  | bool b => .bool b
  | int i => .int i.toInt
  | float x => .float x
  | string s => .string s

/-- Why a command has no output. -/
inductive CommandError where
  /-- A file could not be read. -/
  | unreadable
  | config (error : ConfigError)
  | schema (fault : SchemaFault)
  | malformedQuery
  | compilation (error : Error)

/-- The message of a command error. -/
def CommandError.message : CommandError → String
  | unreadable => "a file could not be read"
  | config error => error.message
  | schema fault => fault.message
  | malformedQuery => "the text is not a query"
  | compilation error => error.message

namespace Command

/-- **Compiles a query under a configuration**: the SQL on one line, its parameters on the next.  The
configuration is read and checked before the query; `none` stands for a file that is not there. -/
def compile (configuration query : Option String) : Except CommandError String := do
  let some text := configuration | throw .unreadable
  let config ← (Config.parse text).mapError CommandError.config
  let env ← config.toEnv.mapError CommandError.schema
  let some text := query | throw .unreadable
  let some q := Query.parse? text | throw .malformedQuery
  let plan ← (q.compile env).mapError CommandError.compilation
  let statement := plan.render
  return statement.text ++ "\n" ++ (Json.array (statement.params.map Sql.Param.toJson)).compact

/-- **The JSON schema of configurations**, over several lines. -/
def schema : String := Config.document.pretty 0

end Command

end ChainQuery
