import ChainQuery.Sql.Basic
import ChainQuery.Decimal.Layout
/-!
# The text of statements

A statement is written as a sequence of pieces: text, and parameters (`Expr.pieces` and its kin).  A
buffer takes pieces at its end and counts the parameters; a parameter leaves a placeholder in the
text, numbered from zero in the order of writing, so that the placeholder `@n` always stands for
parameter number `n` (`Buffer.append`).
-/

namespace ChainQuery.Sql

/-! ## 1. Pieces -/

/-- A piece of a statement. -/
inductive Piece where
  | text (text : String)
  | param (value : Param)

/-- The name of a function. -/
def Function.text : Function → String
  | sum => "Sum"
  | min => "Min"
  | max => "Max"
  | avg => "Avg"
  | upper => "Upper"
  | lower => "Lower"
  | substring => "Substring"

/-- What a pattern begins with. -/
def Wildcards.before : Wildcards → String
  | leading | both => "'%' + "
  | trailing => ""

/-- What a pattern ends in. -/
def Wildcards.after : Wildcards → String
  | trailing | both => " + '%'"
  | leading => ""

/-- The name that a table goes by. -/
def TableRef.text : TableRef → String
  | table name => name
  | aliased name => name

/-- A column, after its table if it has one. -/
def ColumnRef.text : ColumnRef → String
  | qualified table name => table.text ++ "." ++ name
  | bare name => name

/-- What follows a key by which rows are ordered. -/
def Direction.pieces : Direction → List Piece
  | asc => []
  | desc => [.text " Desc"]

/-- What follows a table with an alias. -/
def aliasPieces : Option String → List Piece
  | none => []
  | some label => [.text " AS ", .text label]

/-- Whether an expression is the absence of a filter. -/
def Expr.isAlways : Expr → Bool
  | .bool true => true
  | _ => false

/-- The pieces of a filter, from those of its predicate: the absence of a filter is not written. -/
def Expr.wherePieces (filter : Expr) (predicate : List Piece) : List Piece :=
  if filter.isAlways then [] else .text " WHERE " :: predicate

mutual
/-- The pieces of an expression.  Everything that another operator could take apart is
bracketed. -/
def Expr.pieces : Expr → List Piece
  | .and left right => .text "(" :: left.pieces ++ .text " AND " :: right.pieces ++ [.text ")"]
  | .or left right => .text "(" :: left.pieces ++ .text " OR " :: right.pieces ++ [.text ")"]
  | .not operand => .text "NOT (" :: operand.pieces ++ [.text ")"]
  | .negate operand => .text "-(" :: operand.pieces ++ [.text ")"]
  | .op left token right =>
    .text "(" :: left.pieces ++ .text " " :: .text token :: .text " " :: right.pieces
      ++ [.text ")"]
  | .isNull operand => .text "(" :: operand.pieces ++ [.text " IS NULL", .text ")"]
  | .isNotNull operand => .text "(" :: operand.pieces ++ [.text " IS NOT NULL", .text ")"]
  | .call function args =>
    .text function.text :: .text "(" :: Expr.listPieces args ++ [.text ")"]
  | .like subject pattern wildcards =>
    subject.pieces ++ .text " LIKE (" :: .text wildcards.before :: pattern.pieces
      ++ [.text wildcards.after, .text ")"]
  | .case test ifTrue ifFalse =>
    .text "CASE WHEN " :: test.pieces ++ .text " THEN " :: ifTrue.pieces
      ++ .text " ELSE " :: ifFalse.pieces ++ [.text " END"]
  | .column ref => [.text ref.text]
  | .param value => [.param value]
  | .null => [.text "NULL"]
  | .bool value => [.text (if value then "TRUE" else "FALSE")]
  | .countAll => [.text "Count(*)"]
  | .subselect select => .text "(" :: select.pieces ++ [.text ")"]

/-- Expressions, divided by commas. -/
def Expr.listPieces : List Expr → List Piece
  | [] => []
  | [e] => e.pieces
  | e :: rest => e.pieces ++ .text ", " :: Expr.listPieces rest

/-- Expressions with their aliases, divided by commas. -/
def Expr.aliasedPieces : List (String × Expr) → List Piece
  | [] => []
  | [(label, e)] => e.pieces ++ [.text " AS ", .text label]
  | (label, e) :: rest =>
    e.pieces ++ .text " AS " :: .text label :: .text ", " :: Expr.aliasedPieces rest

/-- Keys with their directions, divided by commas. -/
def Expr.orderPieces : List (Expr × Direction) → List Piece
  | [] => []
  | [(e, direction)] => e.pieces ++ direction.pieces
  | (e, direction) :: rest =>
    e.pieces ++ direction.pieces ++ .text ", " :: Expr.orderPieces rest

/-- The pieces of a select list. -/
def SelectList.pieces : SelectList → List Piece
  | .plain items => Expr.listPieces items
  | .aliased items => Expr.aliasedPieces items

/-- The pieces of what is selected from. -/
def From.pieces : From → List Piece
  | .table ref label => .text " FROM " :: .text ref.text :: aliasPieces label
  | .derived select label =>
    .text " FROM (" :: select.pieces ++ .text ")" :: aliasPieces (some label)

/-- The pieces of a join. -/
def Join.pieces : Join → List Piece
  | .inner ref left right =>
    .text " INNER JOIN " :: .text ref.text :: .text " ON " :: left.pieces
      ++ .text " = " :: right.pieces
  | .cross select label =>
    .text " CROSS JOIN (" :: select.pieces ++ .text ")" :: aliasPieces (some label)

/-- The pieces of joins, one after the other. -/
def Join.listPieces : List Join → List Piece
  | [] => []
  | j :: rest => j.pieces ++ Join.listPieces rest

/-- **The pieces of a selection.** -/
def Select.pieces : Select → List Piece
  | ⟨list, source, joins, filter, orderBy⟩ =>
    .text "SELECT " :: list.pieces
      ++ (match source with
        | none => []
        | some f => f.pieces)
      ++ Join.listPieces joins
      ++ filter.wherePieces filter.pieces
      ++ (if orderBy.isEmpty then [] else .text " ORDER BY " :: Expr.orderPieces orderBy)
end

/-! ## 2. Buffers -/

/-- Text with placeholders, and the parameters that they stand for. -/
structure Buffer where
  text : String := ""
  params : List Param := []
  /-- The number of the next placeholder. -/
  index : Nat := 0

namespace Buffer

/-- Adds text. -/
def addText (b : Buffer) (text : String) : Buffer := { b with text := b.text ++ text }

/-- Adds a parameter, and a placeholder for it. -/
def addParam (b : Buffer) (value : Param) : Buffer where
  text := b.text ++ "@" ++ Decimal.digitText b.index
  params := b.params ++ [value]
  index := b.index + 1

/-- Adds a piece. -/
def add (b : Buffer) : Piece → Buffer
  | .text text => b.addText text
  | .param value => b.addParam value

/-- Adds pieces. -/
def append (b : Buffer) (pieces : List Piece) : Buffer := pieces.foldl add b

end Buffer

/-- **The text of a selection and its parameters.** -/
def Select.render (s : Select) : Buffer := Buffer.append {} s.pieces

end ChainQuery.Sql
