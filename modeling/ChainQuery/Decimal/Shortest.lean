import ChainQuery.Decimal.Dyadic
/-!
# The fewest digits that read back

Reading a decimal rounds it to the nearest double, so every double is read from a whole interval of
decimals.  `Dyadic.shortest` picks from that interval the decimal `digits * 10 ^ exp` with the
fewest digits, and of several the one nearest the double.  Everything is exact arithmetic on
natural numbers: the value and the ends of its interval are multiples of a quarter unit in the last
place, and a point of a decimal grid is compared with them by cross multiplication.
-/

namespace ChainQuery.Decimal

/-- The decimal `digits * 10 ^ exp`. -/
structure Digits where
  digits : Nat
  exp : Int
  deriving Repr, DecidableEq

/-- Which of two equally near decimals is written. -/
inductive Tie where
  /-- The one of larger magnitude. -/
  | away
  /-- The one whose last digit is even. -/
  | toEven
  deriving Repr, DecidableEq

/-! ## 1. One grid -/

/-- The positive part of an integer as an exponent, for writing `b ^ e` without fractions. -/
def powPos (base : Nat) (e : Int) : Nat := base.pow e.toNat

/-- The value, measured against the multiples of `10 ^ k`.  In a common unit the value is `value`,
the interval that reads back as it runs from `low` to `high`, and a grid step is `step`. -/
structure Grid where
  value : Nat
  low : Nat
  high : Nat
  step : Nat
  /-- Whether the ends of the interval read back as the value too. -/
  closed : Bool

/-- The grid of the multiples of `10 ^ k` around a magnitude. -/
def Dyadic.grid (d : Dyadic) (k : Int) : Grid :=
  let quarter := powPos 2 (d.exp - 2) * powPos 10 (-k)
  { value := 4 * d.mant * quarter
    low := (4 * d.mant - if d.narrow then 1 else 2) * quarter
    high := (4 * d.mant + 2) * quarter
    step := powPos 10 k * powPos 2 (2 - d.exp)
    closed := d.mant % 2 == 0 }

/-- Whether the `n`th point of the grid reads back as the value. -/
def Grid.hits (g : Grid) (n : Nat) : Bool :=
  if g.closed then g.low ≤ n * g.step && n * g.step ≤ g.high
  else g.low < n * g.step && n * g.step < g.high

/-- The point of the grid that reads back as the value: of its two neighbours the one that does,
and if both do the nearer. -/
def Grid.pick? (g : Grid) (tie : Tie) : Option Nat :=
  let below := g.value / g.step
  match g.hits below, g.hits (below + 1) with
  | false, false => none
  | true, false => some below
  | false, true => some (below + 1)
  | true, true =>
    let down := g.value - below * g.step
    let up := (below + 1) * g.step - g.value
    if down < up then some below
    else if up < down then some (below + 1)
    else match tie with
      | .away => some (below + 1)
      | .toEven => some (if below % 2 == 0 then below else below + 1)

/-! ## 2. The coarsest grid with a hit -/

/-- Tries the grids `10 ^ k`, `10 ^ (k - 1)`, … in turn; seventeen digits always suffice. -/
def Dyadic.search (d : Dyadic) (tie : Tie) : Nat → Int → Digits
  | 0, k => { digits := (d.grid k).value / (d.grid k).step, exp := k }
  | steps + 1, k =>
    match (d.grid k).pick? tie with
    | some digits => { digits, exp := k }
    | none => d.search tie steps (k - 1)

/-- An exponent of ten just above the magnitude. -/
def Dyadic.decimalExponent (d : Dyadic) : Int :=
  ((Nat.log2 d.mant : Int) + d.exp + 1) * 30103 / 100000 + 1

/-- **The shortest decimal that reads back as the magnitude.**  Zero is `0 * 10 ^ 0`. -/
def Dyadic.shortest (d : Dyadic) (tie : Tie) : Digits :=
  if d.mant == 0 then { digits := 0, exp := 0 }
  else d.search tie 22 d.decimalExponent

end ChainQuery.Decimal
