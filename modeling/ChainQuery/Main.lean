import ChainQuery.Command
/-!
# The command line

`compile --configuration DIR --query FILE` prints the SQL of a query and its parameters, under the
configuration in `DIR/configuration.json`.  `schema` prints the JSON schema of configurations.
-/

namespace ChainQuery.CommandLine

/-- How the program is called. -/
def usage : String :=
  "usage: compile --configuration DIR --query FILE\n       schema"

/-- The text of a file, if it can be read. -/
def readText (path : String) : IO (Option String) := do
  try
    return some (← IO.FS.readFile path)
  catch _ => return none

/-- Compiles a query file under a configuration directory. -/
def compile (directory file : String) : IO UInt32 := do
  let configuration ← readText (directory ++ "/configuration.json")
  let query ← readText file
  match Command.compile configuration query with
  | .ok output =>
    IO.println output
    return 0
  | .error e =>
    IO.eprintln e.message
    return 1

/-- Runs the command that the arguments name. -/
def run : List String → IO UInt32
  | ["compile", "--configuration", directory, "--query", file] => compile directory file
  | ["compile", "--query", file, "--configuration", directory] => compile directory file
  | ["schema"] => do
    IO.println Command.schema
    return 0
  | _ => do
    IO.eprintln usage
    return 2

end ChainQuery.CommandLine

/-- The program. -/
def main (args : List String) : IO UInt32 := ChainQuery.CommandLine.run args
