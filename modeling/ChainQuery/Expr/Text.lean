import ChainQuery.Expr.Basic
/-!
# The text of expressions

How expressions are written in messages.  Record members are assignments, lambdas are arrows, and a
single parameter needs no brackets.
-/

namespace ChainQuery

/-- The parameters of a lambda before its arrow. -/
def Parameter.listText : List Parameter → String
  | [p] => p.name
  | ps => "(" ++ String.intercalate ", " (ps.map Parameter.name) ++ ")"

namespace Expr

mutual
/-- **The text of an expression.** -/
def text : Expr → String
  | .binary op left right => "(" ++ left.text ++ " " ++ op.symbol ++ " " ++ right.text ++ ")"
  | .unary .not operand => "Not(" ++ operand.text ++ ")"
  | .unary .negate operand => "-" ++ operand.text
  | .unary (.convert target) operand => "Convert(" ++ operand.text ++ ", " ++ target.text ++ ")"
  | .member object name _ => object.text ++ "." ++ name
  | .constant value _ => value.text
  | .parameter name _ => name
  | .new t members =>
    "new " ++ t.text ++ "(" ++ String.intercalate ", " (assignments members) ++ ")"
  | .call m receiver args _ =>
    (match receiver with
      | some r => r.text ++ "."
      | none => "") ++ m.text ++ "(" ++ String.intercalate ", " (texts args) ++ ")"
  | .conditional test ifTrue ifFalse =>
    "IIF(" ++ test.text ++ ", " ++ ifTrue.text ++ ", " ++ ifFalse.text ++ ")"
  | .lambda params body => Parameter.listText params ++ " => " ++ body.text
  | .memberInit t bindings =>
    "new " ++ t.text ++ "() \x7b" ++ String.intercalate ", " (assignments bindings) ++ "\x7d"
  | .listInit t elements =>
    "new " ++ t.text ++ "() \x7b" ++ String.intercalate ", " (texts elements) ++ "\x7d"
  | .newArray _ elements => "new [] \x7b" ++ String.intercalate ", " (texts elements) ++ "\x7d"
  | .invoke target args _ =>
    "Invoke(" ++ String.intercalate ", " (target.text :: texts args) ++ ")"
  | .typeIs operand target => "(" ++ operand.text ++ " Is " ++ target.text ++ ")"

/-- The texts of expressions. -/
def texts : List Expr → List String
  | [] => []
  | e :: rest => e.text :: texts rest

/-- The texts of members, as assignments. -/
def assignments : List (String × Expr) → List String
  | [] => []
  | (name, e) :: rest => (name ++ " = " ++ e.text) :: assignments rest
end

end Expr

/-- The text of a lambda. -/
def Lambda.text (l : Lambda) : String := l.toExpr.text

end ChainQuery
