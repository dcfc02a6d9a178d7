/-!
# SQL statements

The statements that the compiler emits: selections from tables and from other selections, joined on
equal keys or crosswise, filtered and ordered.
-/

namespace ChainQuery.Sql

/-! ## 1. Parts without structure -/

/-- A value that is handed to the database beside the text. -/
inductive Param where
  | bool (value : Bool)
  | int (value : Int64)
  | float (value : Float)
  | string (value : String)

/-- A function of the database. -/
inductive Function where
  | sum | min | max | avg | upper | lower | substring
  deriving Repr, DecidableEq, Inhabited

/-- Where wildcards stand around a pattern. -/
inductive Wildcards where
  | trailing | leading | both
  deriving Repr, DecidableEq, Inhabited

/-- A table: by its name in the database, or by an alias that the statement gives. -/
inductive TableRef where
  | table (name : String)
  | aliased (name : String)
  deriving Repr, DecidableEq, Inhabited

/-- A column: of a table, or of the only table in scope. -/
inductive ColumnRef where
  | qualified (table : TableRef) (name : String)
  | bare (name : String)
  deriving Repr, DecidableEq, Inhabited

/-- Whether the smallest or the largest key comes first. -/
inductive Direction where
  | asc | desc
  deriving Repr, DecidableEq, Inhabited

/-! ## 2. Expressions and selections -/

mutual
/-- An expression. -/
inductive Expr where
  | and (left right : Expr)
  | or (left right : Expr)
  | not (operand : Expr)
  | negate (operand : Expr)
  /-- Two operands around the token of an operator. -/
  | op (left : Expr) (token : String) (right : Expr)
  | isNull (operand : Expr)
  | isNotNull (operand : Expr)
  | call (function : Function) (args : List Expr)
  /-- A match against a pattern with wildcards around it. -/
  | like (subject pattern : Expr) (wildcards : Wildcards)
  | case (test ifTrue ifFalse : Expr)
  | column (ref : ColumnRef)
  | param (value : Param)
  | null
  /-- A truth value in the text itself. -/
  | bool (value : Bool)
  /-- The number of rows. -/
  | countAll
  /-- A selection of a single value. -/
  | subselect (select : Select)

/-- What a selection selects. -/
inductive SelectList where
  | plain (items : List Expr)
  | aliased (items : List (String × Expr))

/-- What a selection selects from. -/
inductive From where
  | table (ref : TableRef) (label : Option String)
  | derived (select : Select) (label : String)

/-- What is joined to it. -/
inductive Join where
  /-- The rows of a table for which two keys are equal. -/
  | inner (ref : TableRef) (left right : Expr)
  | cross (select : Select) (label : String)

/-- A selection.  A filter that is the bare truth value is the absence of one. -/
structure Select where
  list : SelectList
  source : Option From
  joins : List Join
  filter : Expr
  orderBy : List (Expr × Direction)
end

instance : Inhabited Expr := ⟨.null⟩
instance : Inhabited SelectList := ⟨.plain []⟩
instance : Inhabited Select := ⟨⟨default, none, [], .bool true, []⟩⟩

/-! ## 3. Short forms -/

/-- The absence of a filter. -/
def Expr.always : Expr := .bool true

/-- A column of a table with an alias. -/
def Expr.aliasedColumn (label name : String) : Expr := .column (.qualified (.aliased label) name)

/-- A column of a table by its name in the database. -/
def Expr.tableColumn (table name : String) : Expr := .column (.qualified (.table table) name)

/-- A column of the only table in scope. -/
def Expr.bareColumn (name : String) : Expr := .column (.bare name)

/-- The alias of the table that a statement at some depth selects from. -/
def depthAlias (depth : Nat) : String := "t" ++ String.ofList (Nat.toDigits 10 depth)

/-- A selection of some expressions from a derived table. -/
def Select.fromDerived (items : List Expr) (inner : Select) (label : String) : Select where
  list := .plain items
  source := some (.derived inner label)
  joins := []
  filter := .always
  orderBy := []

end ChainQuery.Sql
