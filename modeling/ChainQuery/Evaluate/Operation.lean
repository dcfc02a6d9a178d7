import ChainQuery.Literal.Basic
import ChainQuery.Error
import ChainQuery.Text.Case
/-!
# Operations on literals

What operators and methods make of literals, or why they refuse them.  Integer arithmetic is exact
or refused; arithmetic with a double in it is done in doubles and must stay finite; text is counted
and cut in characters.
-/

namespace ChainQuery

namespace Literal

/-! ## 1. Numbers and comparisons -/

/-- A number as a double. -/
def float? : Literal → Option Float
  | .int i => some i.toFloat
  | .float x => some x
  | _ => none

/-- Equality in an expression: an integer and a double are compared as doubles, everything else as
literals. -/
def equals (left right : Literal) : Bool :=
  match left, right with
  | .int i, .float x => i.toFloat == x
  | .float x, .int i => x == i.toFloat
  | left, right => left == right

/-- The order of two doubles, unless one is NaN. -/
def compareFloats? (x y : Float) : Option Ordering :=
  if x < y then some .lt else if x == y then some .eq else if y < x then some .gt else none

/-- The order of two literals: integers and strings among themselves, numbers as doubles. -/
def compare? (left right : Literal) : Option Ordering :=
  match left, right with
  | .int i, .int j => some (compare i j)
  | .string s, .string t => some (compare s t)
  | left, right => do compareFloats? (← left.float?) (← right.float?)

/-- What a literal adds to a text that it is joined to. -/
def joinText : Literal → String
  | .string s => s
  | .null => ""
  | other => other.text

/-- A length as an integer. -/
def ofLength (n : Nat) : Except Failure Literal :=
  if n < Int64.size / 2 then .ok (.int (Int64.ofNat n)) else .error .lengthTooLarge

end Literal

/-! ## 2. Binary operators -/

/-- An integer of 64 bits, if the value is one. -/
def checked (i : Int) : Option Int64 :=
  if Int64.minValue.toInt ≤ i ∧ i ≤ Int64.maxValue.toInt then some (Int64.ofInt i) else none

namespace BinaryOp

/-- Arithmetic on integers, exact or nothing.  Quotients are truncated toward zero, and a remainder
exists only where the quotient does. -/
def integral? (op : BinaryOp) (l r : Int64) : Option Int64 :=
  match op with
  | add => checked (l.toInt + r.toInt)
  | subtract => checked (l.toInt - r.toInt)
  | multiply => checked (l.toInt * r.toInt)
  | divide => checked (l.toInt.tdiv r.toInt)
  | modulo => do
    let _ ← checked (l.toInt.tdiv r.toInt)
    checked (l.toInt.tmod r.toInt)
  | _ => none

/-- Arithmetic on doubles. -/
def floating (op : BinaryOp) (l r : Float) : Float :=
  match op with
  | add => l + r
  | subtract => l - r
  | multiply => l * r
  | divide => l / r
  | _ => Decimal.remainder l r

/-- The refusal of two operands by their kinds. -/
def refusal (op : BinaryOp) (left right : Literal) : Failure :=
  .cannotApply op left.kind right.kind

/-- Arithmetic on literals. -/
def arithmetic (op : BinaryOp) (left right : Literal) : Except Failure Literal :=
  match left, right with
  | .int l, .int r =>
    match op.integral? l r with
    | some value => .ok (.int value)
    | none => .error (.overflow op l r)
  | left, right =>
    match left.float?, right.float? with
    | some l, some r =>
      let value := op.floating l r
      if value.isFinite then .ok (.float value) else .error (.notFinite op l r)
    | _, _ => .error (op.refusal left right)

/-- Whether an order satisfies a comparison. -/
def holds (op : BinaryOp) (o : Ordering) : Bool :=
  match op with
  | lessThan => o.isLT
  | lessThanOrEqual => o.isLE
  | greaterThan => o.isGT
  | _ => o.isGE

/-- **The value of a binary operator on two literals.** -/
def apply (op : BinaryOp) (left right : Literal) : Except Failure Literal :=
  match op with
  | and =>
    match left, right with
    | .bool l, .bool r => .ok (.bool (l && r))
    | _, _ => .error (op.refusal left right)
  | or =>
    match left, right with
    | .bool l, .bool r => .ok (.bool (l || r))
    | _, _ => .error (op.refusal left right)
  | equal => .ok (.bool (left.equals right))
  | notEqual => .ok (.bool (!left.equals right))
  | lessThan | lessThanOrEqual | greaterThan | greaterThanOrEqual =>
    match left.compare? right with
    | some o => .ok (.bool (op.holds o))
    | none => .error (op.refusal left right)
  | add =>
    match left, right with
    | .string _, _ => .ok (.string (left.joinText ++ right.joinText))
    | _, .string _ => .ok (.string (left.joinText ++ right.joinText))
    | _, _ => op.arithmetic left right
  | subtract | multiply => op.arithmetic left right
  | divide | modulo =>
    match left, right with
    | .int _, .int r => if r == 0 then .error .divisionByZero else op.arithmetic left right
    | _, _ => op.arithmetic left right

end BinaryOp

/-! ## 3. Unary operators and types -/

/-- A double without its fraction. -/
def truncate (x : Float) : Int := (Decimal.Dyadic.ofFloat x).whole

/-- The double nearest to the largest integer of 64 bits: the next integer. -/
def integerBound : Int := 9223372036854775808

/-- The value of a literal converted to a type.  Only null, numbers with a fraction that become whole
and whole numbers that become others are touched. -/
def Literal.convert (value : Literal) (target : Ty) : Except Failure Literal :=
  match value with
  | .null =>
    match target with
    | .nullable _ => .ok .null
    | _ => .error (.nullConversion target)
  | .float x =>
    if (target.scalar?.map ScalarType.isIntegral).getD false then
      if x.isFinite && -integerBound ≤ truncate x && truncate x ≤ integerBound then
        .ok (.int (Int64.ofIntClamp (truncate x)))
      else .error (.doesNotFit x target)
    else .ok (.float x)
  | .int i =>
    if (target.scalar?.map ScalarType.isFractional).getD false then .ok (.float i.toFloat)
    else .ok (.int i)
  | value => .ok value

/-- **The value of a unary operator on a literal.** -/
def UnaryOp.apply (op : UnaryOp) (operand : Literal) : Except Failure Literal :=
  match op with
  | not =>
    match operand with
    | .bool b => .ok (.bool !b)
    | _ => .error (.cannotNegate operand.kind)
  | negate =>
    match operand with
    | .int i =>
      match checked (-i.toInt) with
      | some value => .ok (.int value)
      | none => .error (.negationOverflow i)
    | .float x => .ok (.float (-x))
    | _ => .error (.noNegative operand.kind)
  | convert target => operand.convert target

/-- Whether a literal is a value of a type. -/
def Literal.hasType (value : Literal) : Ty → Bool
  | .nullable inner => value.hasType inner
  | .scalar s =>
    match value with
    | .bool _ => s == .boolean
    | .int _ => s.isIntegral
    | .float _ => s.isFractional
    | .string _ => s.isTextual
    | _ => false
  | .collection _ =>
    match value with
    | .list _ => true
    | _ => false
  | .record _ _ | .row _ =>
    match value with
    | .object _ => true
    | _ => false
  | .group _ _ => false

/-- The value of a member of a literal. -/
def Literal.member (value : Literal) (name : String) : Except Failure Literal :=
  match value with
  | .object members =>
    match members.lookup name with
    | some v => .ok v
    | none => .error (.missingMember name)
  | .string s => if name == "Length" then ofLength s.length else .error (.noMembers value.kind name)
  | .list items =>
    if name == "Count" || name == "Length" then ofLength items.length
    else .error (.noMembers value.kind name)
  | _ => .error (.noMembers value.kind name)

/-! ## 4. Methods -/

/-- Whether a pattern occurs in a text. -/
def occursIn (pattern : List Char) : List Char → Bool
  | [] => pattern.isEmpty
  | c :: rest => pattern.isPrefixOf (c :: rest) || occursIn pattern rest

/-- A position in a text of `length` characters. -/
def position? (position : Int) (length : Nat) : Except Failure Nat :=
  if 0 ≤ position ∧ position ≤ length then .ok position.toNat
  else .error (.indexOutOfRange position)

/-- The part of a text from a position on. -/
def substringFrom (chars : List Char) (start : Int64) : Except Failure Literal := do
  let start ← position? start.toInt chars.length
  return .string (String.ofList (chars.drop start))

/-- The part of a text of a given length from a position on. -/
def substring (chars : List Char) (start length : Int64) : Except Failure Literal := do
  let start ← position? start.toInt chars.length
  if length.toInt < 0 then throw (.negativeLength length)
  match checked (start + length.toInt) with
  | none => throw (.lengthOutOfRange length)
  | some stop =>
    let stop ← position? stop.toInt chars.length
    return .string (String.ofList ((chars.drop start).take (stop - start)))

/-- **The value of a method of strings.** -/
def StringMethod.apply (m : StringMethod) (receiver : String) (args : List Literal) :
    Except Failure Literal :=
  match m, args with
  | startsWith, [.string pattern] =>
    .ok (.bool (pattern.toList.isPrefixOf receiver.toList))
  | endsWith, [.string pattern] => .ok (.bool (pattern.toList.isSuffixOf receiver.toList))
  | contains, [.string pattern] => .ok (.bool (occursIn pattern.toList receiver.toList))
  | toUpper, [] => .ok (.string (Text.upper receiver))
  | toLower, [] => .ok (.string (Text.lower receiver))
  | .substring, [.int start] => substringFrom receiver.toList start
  | .substring, [.int start, .int length] => ChainQuery.substring receiver.toList start length
  | m, _ => .error (.invalidArguments m.text)

/-- The sum of a list, added up from the left with the `+` of expressions. -/
def sumOf (items : List Literal) : Except Failure Literal :=
  items.foldlM (fun total item => BinaryOp.add.apply total item) (.int 0)

/-- The element of a list that comes before (or after) all others; of equal ones the first. -/
def extremeOf (better : Ordering → Bool) : List Literal → Except Failure Literal
  | [] => .error .noElements
  | first :: rest =>
    rest.foldlM (fun best item =>
      match item.compare? best with
      | some o => .ok (if better o then item else best)
      | none => .error (.cannotCompare item.kind best.kind)) first

/-- **The value of an aggregate on a list.** -/
def Aggregate.apply (a : Aggregate) (items : List Literal) : Except Failure Literal :=
  match a with
  | count => Literal.ofLength items.length
  | sum => sumOf items
  | min => extremeOf Ordering.isLT items
  | max => extremeOf Ordering.isGT items
  | average =>
    if items.isEmpty then .error .noElements
    else do
      let total ← sumOf items
      let count ← Literal.ofLength items.length
      BinaryOp.divide.apply (.float (total.float?.getD (0.0 / 0.0))) count

end ChainQuery
