import ChainQuery.Json.Token
/-!
# Reading JSON values

Tokens are assembled into a value one by one, with a stack of the arrays and objects that are still
open (`Assembly`).  Each token either takes the assembly one step on or has no place where it
stands; the text is a value if the last token leaves one complete value and nothing open.
-/

namespace ChainQuery.Json

/-! ## 1. The assembly -/

/-- An array or object that is still open, its parts in reverse. -/
inductive Frame where
  | array (done : List Json)
  | object (done : List (String × Json))
  /-- An object whose next member's name has been read. -/
  | member (done : List (String × Json)) (name : String)

/-- What may come next. -/
inductive Expect where
  | value
  | valueOrClose
  | name
  | nameOrClose
  | colon (name : String)
  /-- A value is complete; what it belongs to goes on or closes. -/
  | rest (value : Json)

/-- What may come next, and the open arrays and objects, innermost first. -/
structure Assembly where
  expect : Expect
  stack : List Frame

/-- The value of a token that is one by itself. -/
def Token.value? : Token → Option Json
  | .null => some .null
  | .bool b => some (.bool b)
  | .number n => some (.number n)
  | .string s => some (.string s)
  | _ => none

/-- A token where a value must stand. -/
def Assembly.startValue (stack : List Frame) (token : Token) : Option Assembly :=
  match token with
  | .openArray => some { expect := .valueOrClose, stack := .array [] :: stack }
  | .openObject => some { expect := .nameOrClose, stack := .object [] :: stack }
  | token => token.value?.map fun j => { expect := .rest j, stack }

/-- A token where the name of a member must stand. -/
def Assembly.startMember (stack : List Frame) (token : Token) : Option Assembly :=
  match token with
  | .string name => some { expect := .colon name, stack }
  | _ => none

/-- A token after a complete value. -/
def Assembly.goOn (stack : List Frame) (value : Json) (token : Token) : Option Assembly :=
  match stack, token with
  | .array done :: outer, .comma => some { expect := .value, stack := .array (value :: done) :: outer }
  | .array done :: outer, .closeArray =>
    some { expect := .rest (.array (value :: done).reverse), stack := outer }
  | .member done name :: outer, .comma =>
    some { expect := .name, stack := .object ((name, value) :: done) :: outer }
  | .member done name :: outer, .closeObject =>
    some { expect := .rest (.object ((name, value) :: done).reverse), stack := outer }
  | _, _ => none

/-- One step of the assembly. -/
def Assembly.step (a : Assembly) (token : Token) : Option Assembly :=
  match a.expect with
  | .value => startValue a.stack token
  | .valueOrClose =>
    match a.stack, token with
    | .array _ :: outer, .closeArray => some { expect := .rest (.array []), stack := outer }
    | stack, token => startValue stack token
  | .name => startMember a.stack token
  | .nameOrClose =>
    match a.stack, token with
    | .object _ :: outer, .closeObject => some { expect := .rest (.object []), stack := outer }
    | stack, token => startMember stack token
  | .colon name =>
    match a.stack, token with
    | .object done :: outer, .colon => some { expect := .value, stack := .member done name :: outer }
    | _, _ => none
  | .rest value => goOn a.stack value token

/-- The complete value, if there is one and nothing is open. -/
def Assembly.result? (a : Assembly) : Option Json :=
  match a.expect, a.stack with
  | .rest value, [] => some value
  | _, _ => none

/-! ## 2. Texts -/

/-- The value that a list of tokens writes. -/
def ofTokens? (tokens : List Token) : Option Json := do
  (← tokens.foldlM Assembly.step { expect := .value, stack := [] }).result?

/-- **The value of a text.** -/
def parse? (text : String) : Option Json := do ofTokens? (← tokens? text)

end ChainQuery.Json
