import ChainQuery.Json.Basic
/-!
# Reading the members of an object

What a decoder asks of an object: a member that must be there, one that may be missing, the tag that
says which of several shapes the object has.  A member that a decoder knows may occur once only;
members it does not know are ignored.

An object with a tag is kept until its tag is known, wherever that stands.  What it holds is then read
leniently (`Manner`): everything else is read strictly, as it stands in the text.
-/

namespace ChainQuery.Json

/-- How freely the shape of a value may be named. -/
inductive Manner where
  /-- A tag is a string, and a shape without content holds at most `null`. -/
  | strict
  /-- A tag may also be its place among all tags, and a shape without content may hold an empty
  object.  This is the manner inside an object with a tag. -/
  | lenient
  deriving Repr, DecidableEq

/-- The members of an object, in the order of its text. -/
abbrev Members := List (String × Json)

/-- The members of an object. -/
def members? : Json → Option Members
  | .object members => some members
  | _ => none

/-- The items of an array. -/
def items? : Json → Option (List Json)
  | .array items => some items
  | _ => none

/-- The text of a string. -/
def string? : Json → Option String
  | .string s => some s
  | _ => none

namespace Members

/-- A member that may be missing; it is refused if it is repeated. -/
def optional? (ms : Members) (name : String) : Option (Option Json) :=
  match ms.filter (fun m => m.1 == name) with
  | [] => some none
  | [(_, value)] => some (some value)
  | _ => none

/-- A member that must be there, once. -/
def required? (ms : Members) (name : String) : Option Json := do (← ms.optional? name)

/-- A member that must be a string. -/
def string? (ms : Members) (name : String) : Option String := do (← ms.required? name).string?

/-- A member that may be missing, decoded, with what stands for it then. -/
def orElse? {α : Type} (ms : Members) (name : String) (missing : α) (decode : Json → Option α) :
    Option α := do
  match ← ms.optional? name with
  | none => return missing
  | some j => decode j

end Members

/-- The tag that a value names, among all tags. -/
def tag? (manner : Manner) (tags : List String) : Json → Option String
  | .string name => some name
  | .number (.int i) =>
    match manner with
    | .strict => none
    | .lenient => if 0 ≤ i then tags[i.toNat]? else none
  | _ => none

/-- The tag of an object, which is the member `name`, and the object's members. -/
def tagged? (manner : Manner) (name : String) (tags : List String) (j : Json) :
    Option (String × Members) := do
  let ms ← j.members?
  return (← tag? manner tags (← ms.required? name), ms)

/-- The one member of an object that names a shape and holds its content. -/
def variant? : Json → Option (String × Json)
  | .object [(name, content)] => some (name, content)
  | _ => none

/-- The name of a shape without content: a string, or the one member of an object, holding `null` or,
if it is read leniently, an empty object. -/
def unit? (manner : Manner) : Json → Option String
  | .string name => some name
  | .object [(name, .null)] => some name
  | .object [(name, .object [])] =>
    match manner with
    | .strict => none
    | .lenient => some name
  | _ => none

/-! ## Laws -/

@[simp] theorem tag?_string (manner : Manner) (tags : List String) (name : String) :
    tag? manner tags (.string name) = some name := rfl

@[simp] theorem unit?_string (manner : Manner) (name : String) :
    unit? manner (.string name) = some name := rfl

end ChainQuery.Json
