import ChainQuery.Decimal.Layout
import ChainQuery.Expr.Operator
/-!
# What can go wrong

The reasons why an expression has no value (`Failure`) and why a query has no SQL (`Error`), each
with the message that names the offending part.
-/

namespace ChainQuery

/-! ## 1. Evaluation -/

/-- Why an expression has no value.  Kinds of literals are given by their words. -/
inductive Failure where
  | missingMember (member : String)
  | noMembers (kind member : String)
  | testNotBoolean (kind : String)
  | dependsOnParameter (name : String)
  | lambdaHasNoValue
  | cannotInvoke
  | lengthTooLarge
  | cannotApply (op : BinaryOp) (left right : String)
  | overflow (op : BinaryOp) (left right : Int64)
  | negationOverflow (value : Int64)
  | notFinite (op : BinaryOp) (left right : Float)
  | divisionByZero
  | cannotNegate (kind : String)
  | noNegative (kind : String)
  | nullConversion (target : Ty)
  | doesNotFit (value : Float) (target : Ty)
  | needsReceiver (method : String)
  | calledOn (method kind : String)
  | selectorNotLocal (method : String)
  | methodNotLocal (declaringType method : String)
  | invalidArguments (method : String)
  | negativeLength (length : Int64)
  | lengthOutOfRange (length : Int64)
  | indexOutOfRange (position : Int)
  | noElements
  | cannotCompare (left right : String)

/-- The message of a failure. -/
def Failure.message : Failure → String
  | missingMember member => "the captured object has no member '" ++ member ++ "'"
  | noMembers kind member => "a " ++ kind ++ " has no member '" ++ member ++ "'"
  | testNotBoolean kind => "the test is a " ++ kind ++ ", not a boolean"
  | dependsOnParameter name => "it depends on the parameter '" ++ name ++ "'"
  | lambdaHasNoValue => "lambdas have no value of their own"
  | cannotInvoke => "delegates cannot be invoked locally"
  | lengthTooLarge => "the length does not fit in an integer"
  | cannotApply op left right =>
    "cannot apply '" ++ op.symbol ++ "' to a " ++ left ++ " and a " ++ right
  | overflow op left right =>
    "arithmetic overflow in " ++ Decimal.integerText left.toInt ++ " " ++ op.symbol ++ " "
      ++ Decimal.integerText right.toInt
  | negationOverflow value => "arithmetic overflow in -" ++ Decimal.integerText value.toInt
  | notFinite op left right =>
    Decimal.plain left ++ " " ++ op.symbol ++ " " ++ Decimal.plain right
      ++ " is not a finite number"
  | divisionByZero => "division by zero"
  | cannotNegate kind => "cannot negate a " ++ kind
  | noNegative kind => "cannot take the negative of a " ++ kind
  | nullConversion target => "cannot convert null to " ++ target.text
  | doesNotFit value target => Decimal.plain value ++ " does not fit in " ++ target.text
  | needsReceiver method => method ++ " needs a receiver"
  | calledOn method kind => method ++ " called on a " ++ kind
  | selectorNotLocal method => method ++ " with a selector cannot be evaluated locally"
  | methodNotLocal declaringType method =>
    declaringType ++ "." ++ method ++ " cannot be called locally"
  | invalidArguments method => "invalid arguments to " ++ method
  | negativeLength length => "negative substring length " ++ Decimal.integerText length.toInt
  | lengthOutOfRange length =>
    "substring length " ++ Decimal.integerText length.toInt ++ " is out of range"
  | indexOutOfRange position => "index " ++ Decimal.integerText position ++ " is out of range"
  | noElements => "the sequence contains no elements"
  | cannotCompare left right => "cannot compare a " ++ left ++ " and a " ++ right

/-! ## 2. Compilation -/

/-- The clauses that a statement has at most once. -/
inductive Clause where
  | select | filter | join
  deriving Repr, DecidableEq

/-- A clause as SQL names it. -/
def Clause.text : Clause → String
  | select => "SELECT"
  | filter => "WHERE"
  | join => "JOIN"

/-- Why a query has no SQL.  Parts of the query are given by their texts. -/
inductive Error where
  | unsupportedNode (expression : String)
  | unsupportedConversion (expression target : String)
  | unsupportedMethod (method : String)
  | unresolvableProjection (source : String)
  | missingMetadata (what : String)
  | invalidLocalEvaluation (expression : String) (reason : Failure)
  | duplicateClause (clause : Clause) (expression : String)
  | invalidArgument (problem : String)
  | unresolvedColumn (column : String)

/-- The message of an error. -/
def Error.message : Error → String
  | unsupportedNode expression =>
    "Expressions of the form '" ++ expression ++ "' cannot be translated to SQL."
  | unsupportedConversion expression target =>
    "Cannot convert '" ++ expression ++ "' to '" ++ target ++ "': only scalar types are supported."
  | unsupportedMethod method => "The method '" ++ method ++ "' is not supported."
  | unresolvableProjection source =>
    "Cannot determine which columns to select for '" ++ source ++ "'."
  | missingMetadata what => "Missing metadata: " ++ what ++ "."
  | invalidLocalEvaluation expression reason =>
    "Could not evaluate '" ++ expression ++ "' locally: " ++ reason.message ++ "."
  | duplicateClause clause expression =>
    "This query already has a " ++ clause.text ++ " clause, cannot add '" ++ expression ++ "'."
  | invalidArgument problem => "Invalid argument: " ++ problem ++ "."
  | unresolvedColumn column => "The column '" ++ column ++ "' is not in scope."

end ChainQuery
