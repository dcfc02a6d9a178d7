import ChainQuery.Decimal.Shortest
/-!
# Laying out decimals as text

Two texts of a double are written: the plain one, which never has an exponent and drops a fraction
of zero (`plain`), and the one of JSON, which always shows that the number is not an integer
(`json`).  Both start from the shortest digits that read back.
-/

namespace ChainQuery.Decimal

/-! ## 1. Digits and a point -/

/-- The decimal digits of a natural number. -/
def digitText (n : Nat) : String := String.ofList (Nat.toDigits 10 n)

/-- `count` zeros. -/
def zeros (count : Nat) : String := String.ofList (List.replicate count '0')

/-- The text of an integer: a minus sign for the negative ones, then the digits. -/
def integerText (i : Int) : String :=
  if i < 0 then "-" ++ digitText i.natAbs else digitText i.natAbs

/-- Positional text.  `fraction` is what an integral value ends in. -/
def Digits.positional (d : Digits) (fraction : String) : String :=
  let text := digitText d.digits
  if 0 ≤ d.exp then text ++ zeros d.exp.toNat ++ fraction
  else
    let places := (-d.exp).toNat
    if text.length ≤ places then "0." ++ zeros (places - text.length) ++ text
    else
      let whole := text.toList.take (text.length - places)
      let rest := text.toList.drop (text.length - places)
      String.ofList whole ++ "." ++ String.ofList rest

/-- The exponent of the first digit. -/
def Digits.scale (d : Digits) : Int := d.exp + ((digitText d.digits).length : Int) - 1

/-- Scientific text: one digit, the others after a point, and a signed exponent. -/
def Digits.scientific (d : Digits) : String :=
  let mantissa := match (digitText d.digits).toList with
    | [] => "0"
    | [first] => String.ofList [first]
    | first :: rest => String.ofList [first] ++ "." ++ String.ofList rest
  let sign := if d.scale < 0 then "-" else "+"
  mantissa ++ "e" ++ sign ++ digitText d.scale.natAbs

/-! ## 2. The two texts of a double -/

/-- The sign of a text. -/
def signed (negative : Bool) (text : String) : String := if negative then "-" ++ text else text

/-- **The plain text of a double**: the shortest digits that read back, never an exponent, no
fraction if it is zero. -/
def plain (x : Float) : String :=
  if x.isNaN then "NaN"
  else if x.isInf then (if x < 0 then "-inf" else "inf")
  else
    let d := Dyadic.ofFloat x
    signed d.negative ((d.shortest .away).positional "")

/-- **The JSON text of a double**: positional with at least one place from `10 ^ -5` up to `10 ^ 16`
and for zero, scientific elsewhere.  JSON has no text for an infinity or a NaN, so `null` stands
for them. -/
def json (x : Float) : String :=
  if x.isNaN || x.isInf then "null"
  else
    let d := Dyadic.ofFloat x
    let digits := d.shortest .toEven
    let positional := digits.digits == 0 || (-5 ≤ digits.scale && digits.scale < 16)
    signed d.negative (if positional then digits.positional ".0" else digits.scientific)

end ChainQuery.Decimal
