import ChainQuery.Json.Basic
import ChainQuery.Decimal.Layout
/-!
# Writing JSON values

Two layouts: compact, without any blanks, and pretty, one item or member to a line with an indent of
two for each level.  Strings escape the quote, the backslash and the control characters, and nothing
else.
-/

namespace ChainQuery.Json

/-! ## 1. Strings and numbers -/

/-- The last two hexadecimal digits of an escape, in lower case. -/
def hex2 (n : Nat) : String :=
  String.ofList [Nat.digitChar (n / 16), Nat.digitChar (n % 16)]

/-- A character inside quotes. -/
def quoteChar (c : Char) : String :=
  match c with
  | '"' => "\\\""
  | '\\' => "\\\\"
  | '\x08' => "\\b"
  | '\t' => "\\t"
  | '\n' => "\\n"
  | '\x0c' => "\\f"
  | '\r' => "\\r"
  | c => if c.toNat < 0x20 then "\\u00" ++ hex2 c.toNat else c.toString

/-- A string in quotes. -/
def quote (s : String) : String := "\"" ++ String.join (s.toList.map quoteChar) ++ "\""

/-- A number. -/
def Number.text : Number → String
  | .int i => Decimal.integerText i
  | .float x => Decimal.json x

/-- A value that holds no other. -/
def leafText : Json → String
  | .null => "null"
  | .bool b => if b then "true" else "false"
  | .number n => n.text
  | .string s => quote s
  | .array _ => "[]"
  | .object _ => "\x7b\x7d"

/-! ## 2. Compact -/

mutual
/-- **The compact text of a value.** -/
def compact : Json → String
  | .array items => "[" ++ compactItems items ++ "]"
  | .object members => "\x7b" ++ compactMembers members ++ "\x7d"
  | leaf => leaf.leafText

/-- Items, divided by commas. -/
def compactItems : List Json → String
  | [] => ""
  | [j] => j.compact
  | j :: rest => j.compact ++ "," ++ compactItems rest

/-- Members, divided by commas. -/
def compactMembers : List (String × Json) → String
  | [] => ""
  | [(name, j)] => quote name ++ ":" ++ j.compact
  | (name, j) :: rest => quote name ++ ":" ++ j.compact ++ "," ++ compactMembers rest
end

/-! ## 3. Pretty -/

/-- A new line at a level of nesting. -/
def lineBreak (level : Nat) : String := "\n" ++ String.ofList (List.replicate (2 * level) ' ')

mutual
/-- **The text of a value over several lines**, inside `level` other values.  An empty array or
object stays on its line. -/
def pretty (level : Nat) : Json → String
  | .array (j :: rest) =>
    "[" ++ lineBreak (level + 1) ++ j.pretty (level + 1) ++ prettyItems (level + 1) rest
      ++ lineBreak level ++ "]"
  | .object ((name, j) :: rest) =>
    "\x7b" ++ lineBreak (level + 1) ++ quote name ++ ": " ++ j.pretty (level + 1)
      ++ prettyMembers (level + 1) rest ++ lineBreak level ++ "\x7d"
  | leaf => leaf.leafText

/-- The items after the first, each after a comma and on a line of its own. -/
def prettyItems (level : Nat) : List Json → String
  | [] => ""
  | j :: rest => "," ++ lineBreak level ++ j.pretty level ++ prettyItems level rest

/-- The members after the first, each after a comma and on a line of its own. -/
def prettyMembers (level : Nat) : List (String × Json) → String
  | [] => ""
  | (name, j) :: rest =>
    "," ++ lineBreak level ++ quote name ++ ": " ++ j.pretty level ++ prettyMembers level rest
end

end ChainQuery.Json
