/-!
# Reading decimals

A number is read as a significand of 64 bits and a power of ten.  Digits are taken into the
significand as long as it holds them; digits of the whole part that do not fit raise the exponent,
digits of the fraction that do not fit are dropped.  The double is the significand multiplied or
divided by the power of ten.
-/

namespace ChainQuery.Decimal

/-- The value of a digit character. -/
def digitValue (c : Char) : Nat := c.toNat - '0'.toNat

/-- The natural number that digit characters write. -/
def digitsValue (cs : List Char) : Nat := cs.foldl (fun n c => n * 10 + digitValue c) 0

/-- The largest significand. -/
def significandMax : Nat := UInt64.size - 1

/-- Takes digits into a significand as long as they fit; the digits left over come back. -/
def takeDigits (significand : Nat) : List Char → Nat × List Char
  | [] => (significand, [])
  | c :: cs =>
    let next := significand * 10 + digitValue c
    if next ≤ significandMax then takeDigits next cs else (significand, c :: cs)

/-- The powers of ten that are doubles. -/
def pow10 (n : Nat) : Float := Float.ofScientific 1 false n

/-- `significand * 10 ^ exponent` as a double, or nothing if it is too large.  `steps` bounds how
often an exponent below every power of ten is raised. -/
def scaled? (value : Float) (exponent : Int) : Nat → Option Float
  | 0 => some 0.0
  | steps + 1 =>
    if exponent.natAbs ≤ 308 then
      if 0 ≤ exponent then
        let scaled := value * pow10 exponent.natAbs
        if scaled.isInf then none else some scaled
      else some (value / pow10 exponent.natAbs)
    else if value == 0 then some value
    else if 0 ≤ exponent then none
    else scaled? (value / 1e308) (exponent + 308) steps

/-- **The double that a decimal text denotes**, or nothing if it is too large: the digits before and
after the point, and the power of ten. -/
def read? (whole fraction : List Char) (exponent : Int) : Option Float :=
  let (significand, overflow) := takeDigits 0 whole
  let (significand, dropped) := takeDigits significand fraction
  let exponent := exponent + overflow.length - ((fraction.length - dropped.length : Nat) : Int)
  -- five steps of 308 pass every exponent at which a significand is not zero
  scaled? (UInt64.ofNat significand).toFloat exponent 5

end ChainQuery.Decimal
