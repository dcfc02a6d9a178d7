/-
# Doubles as exact dyadic numbers

A finite double is `± mant * 2 ^ exp` for a natural `mant` and an integer `exp`.  This file reads
that form off the bits (`Dyadic.ofFloat`), puts it back (`Dyadic.toFloat`), and uses it for two
operations that are exact: the integer that is left of a double without its fraction
(`Dyadic.whole`), and the remainder of a division truncated toward zero (`remainder`).
-/

namespace ChainQuery.Decimal

/-! ## 1. The form -/

/-- The magnitude `mant * 2 ^ exp` of a finite double, with its sign.  `narrow` says that the next
double below the magnitude is half as far away as the next one above: the magnitude is a power of
two and not the smallest of its kind. -/
structure Dyadic where
  negative : Bool
  mant : Nat
  exp : Int
  narrow : Bool
  deriving Repr, DecidableEq

/-- The number of bits of a double that hold the fraction. -/
def fractionBits : Nat := 52

/-- The exact value of a finite double, read off its bits.  An infinity or a NaN gives a meaningless
magnitude; callers ask `Float.isFinite` first. -/
def Dyadic.ofFloat (x : Float) : Dyadic :=
  let bits := x.toBits.toNat
  let fraction : Nat := bits % Nat.pow 2 fractionBits
  let biased : Nat := bits / Nat.pow 2 fractionBits % Nat.pow 2 11
  let negative := bits / Nat.pow 2 63 == 1
  if biased == 0 then
    { negative, mant := fraction, exp := -1074, narrow := false }
  else
    { negative
      mant := fraction + Nat.pow 2 fractionBits
      exp := (biased : Int) - 1075
      narrow := fraction == 0 && biased != 1 }

/-- The double with this value.  It is exact whenever the value is a double. -/
def Dyadic.toFloat (d : Dyadic) : Float :=
  let magnitude := Float.scaleB (Float.ofNat d.mant) d.exp
  if d.negative then -magnitude else magnitude

/-- The magnitude in units of `2 ^ unit`, for a `unit` that is at most the exponent. -/
def Dyadic.inUnits (d : Dyadic) (unit : Int) : Nat := d.mant * Nat.pow 2 (d.exp - unit).toNat

/-! ## 2. Whole parts -/

/-- **The value without its fraction.** -/
def Dyadic.whole (d : Dyadic) : Int :=
  let magnitude : Nat := d.mant * Nat.pow 2 d.exp.toNat / Nat.pow 2 (-d.exp).toNat
  if d.negative then -magnitude else magnitude

/-! ## 3. Remainders -/

/-- **The remainder of `x / y`, the quotient being truncated toward zero.**  It has the sign of
`x`, is smaller than `y` in magnitude, and is exact.  There is none if `y` is zero, `x` is infinite
or either is NaN; an infinite `y` leaves `x` as it is. -/
def remainder (x y : Float) : Float :=
  if x.isNaN || y.isNaN || x.isInf || y == 0 then 0.0 / 0.0
  else if y.isInf then x
  else
    let a := Dyadic.ofFloat x
    let b := Dyadic.ofFloat y
    let unit := min a.exp b.exp
    Dyadic.toFloat { a with mant := a.inUnits unit % b.inUnits unit, exp := unit }

end ChainQuery.Decimal
