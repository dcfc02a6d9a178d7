import ChainQuery.Expr.Basic
/-!
# Building expressions

Short forms for the expressions that one writes most, with the types that a compiler would give them.
-/

namespace ChainQuery

/-- A member of a parameter. -/
def Parameter.member (p : Parameter) (name : String) (type : Ty) : Expr :=
  .member p.reference name type

namespace Expr

/-- A constant of the type that is inferred for it. -/
def ofLiteral (value : Literal) : Expr := .constant value value.type

/-- The null value of a type. -/
def nullOf (type : Ty) : Expr := .constant .null type

/-- A captured object. -/
def captured (members : List (String × Literal)) : Expr :=
  ofLiteral (.object (Assoc.ofEntries members))

/-- A record with the given members, and the type that has them as fields. -/
def record (name : String) (members : List (String × Expr)) : Expr :=
  .new (.record name (members.map fun (field, e) => (field, e.type))) members

/-- An aggregate of a collection, with an optional selector. -/
def aggregate (method : Aggregate) (source : Expr) (selector : Option Lambda) (type : Ty) : Expr :=
  .call (.aggregate method) none (source :: (selector.map Lambda.toExpr).toList) type

/-- The type of what a method of strings returns. -/
def stringMethodType : StringMethod → Ty
  | .startsWith | .endsWith | .contains => .boolean
  | .substring | .toUpper | .toLower => .scalar .string

/-- A method of strings, called on a receiver. -/
def callString (receiver : Expr) (method : StringMethod) (args : List Expr) : Expr :=
  .call (.string method) (some receiver) args (stringMethodType method)

end Expr

end ChainQuery
