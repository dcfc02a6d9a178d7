import ChainQuery.Query.Basic
import ChainQuery.Sql.Basic
/-!
# Scalars

What an expression is before its columns are bound to tables.  A column is known by the types through
which it is reached from a parameter (`ColumnToken`), an aggregate over related rows by the query
that computes it (`Correlated`), and a row or record, which has no SQL of its own, by its text.
-/

namespace ChainQuery

/-- A member that is reached from a parameter through the types of a path.  The last of them is the
type that has the member. -/
structure ColumnToken where
  path : List Ty
  member : String
  deriving Repr, DecidableEq

namespace ColumnToken

/-- The type that has the member. -/
def owner? (c : ColumnToken) : Option Ty := c.path.getLast?

/-- A column for a reader: the type and the member. -/
def describe (c : ColumnToken) : String :=
  match c.owner? with
  | some owner => owner.text ++ "." ++ c.member
  | none => c.member

end ColumnToken

/-- An aggregate over the rows that refer to the current one. -/
structure Correlated where
  /-- The related rows, filtered by the reference and projected to what is aggregated. -/
  query : Query
  aggregate : Aggregate
  /-- Whether what is aggregated is an aggregate itself.  Then the query selects pairs of the
  reference and the inner aggregate. -/
  nested : Bool

instance : BEq Correlated :=
  ⟨fun c d => c.query == d.query && c.aggregate == d.aggregate && c.nested == d.nested⟩

/-- An expression whose columns are not yet bound to tables. -/
inductive Scalar where
  | column (token : ColumnToken)
  | value (value : Literal)
  | null
  | binary (op : BinaryOp) (left right : Scalar)
  | not (operand : Scalar)
  | negate (operand : Scalar)
  | function (function : Sql.Function) (args : List Scalar)
  | like (subject pattern : Scalar) (wildcards : Sql.Wildcards)
  | case (test ifTrue ifFalse : Scalar)
  | subquery (correlated : Correlated)
  /-- A row or a record, given by its text; only its members have SQL. -/
  | composite (text : String)

namespace Scalar

/-- Whether a scalar is the null value itself. -/
def isNull : Scalar → Bool
  | .null => true
  | _ => false

mutual
/-- Whether two scalars are equal. -/
def beq : Scalar → Scalar → Bool
  | .column c, .column d => c == d
  | .value v, .value w => v == w
  | .null, .null => true
  | .binary o l r, .binary p m s => o == p && l.beq m && r.beq s
  | .not x, .not y => x.beq y
  | .negate x, .negate y => x.beq y
  | .function f xs, .function g ys => f == g && beqList xs ys
  | .like x p w, .like y q v => x.beq y && p.beq q && w == v
  | .case a b c, .case d e f => a.beq d && b.beq e && c.beq f
  | .subquery c, .subquery d => c == d
  | .composite s, .composite t => s == t
  | _, _ => false

/-- Whether two lists of scalars are equal. -/
def beqList : List Scalar → List Scalar → Bool
  | [], [] => true
  | x :: xs, y :: ys => x.beq y && beqList xs ys
  | _, _ => false
end

instance : BEq Scalar := ⟨beq⟩

end Scalar

/-- The members of the records that an expression builds, by the type of the record and the name of
the member. -/
abbrev Aliases := List ((Ty × String) × Scalar)

end ChainQuery
