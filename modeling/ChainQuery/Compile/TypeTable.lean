import ChainQuery.Compile.Traced
/-!
# Numbered types

A session numbers the types that it meets, each when it is first met.  The table is the list of these
types; a type's number is its place in it.
-/

namespace ChainQuery

/-- The types met so far, in the order of their numbers. -/
structure TypeTable where
  types : List Ty := []
  deriving Repr

namespace TypeTable

/-- The table after meeting a type. -/
def register (table : TypeTable) (t : Ty) : TypeTable :=
  if t ∈ table.types then table else ⟨table.types ++ [t]⟩

/-- The table after meeting types, in order. -/
def registerAll (table : TypeTable) (ts : List Ty) : TypeTable := ts.foldl register table

/-- The number of a type that has been met. -/
def number? (table : TypeTable) (t : Ty) : Option Nat := table.types.idxOf? t

/-- The type of a number. -/
def type? (table : TypeTable) (n : Nat) : Option Ty := table.types[n]?

/-- Meets a type and gives its number. -/
def identify (table : TypeTable) (t : Ty) : Nat × TypeTable :=
  let table := table.register t
  ((table.number? t).getD 0, table)

/-- The text of a number. -/
def numberText (n : Nat) : String := "T" ++ Decimal.digitText n

/-- The text of a type's number. -/
def typeText (table : TypeTable) (t : Ty) : String := numberText ((table.number? t).getD 0)

/-- The text of a path of numbers that ends in a member. -/
def pathText (path : List Nat) (member : String) : String :=
  String.join (path.map fun n => numberText n ++ ".") ++ member

/-- A path of numbers that ends in a member, for a reader: the last type of the path and the member,
or the path itself if its last number is not known. -/
def describe (table : TypeTable) (path : List Nat) (member : String) : String :=
  match path.getLast?.bind table.type? with
  | some owner => owner.text ++ "." ++ member
  | none => pathText path member

/-- **Runs a computation in a session**: what it met is met, whether it succeeded or not. -/
def run {α : Type} (table : TypeTable) (x : Traced α) : Except Error α × TypeTable :=
  (x.outcome, table.registerAll x.met)

end TypeTable

end ChainQuery
