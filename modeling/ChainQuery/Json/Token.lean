import ChainQuery.Json.Basic
import ChainQuery.Decimal.Read
/-!
# The tokens of a JSON text

A text is cut into tokens in one pass over its characters (`tokens?`).  The pass is in one of three
modes: between tokens, inside a string, or inside a bare word, which is a number or one of the three
keywords and ends where a blank, a bracket, a comma, a colon or a quote follows.
-/

namespace ChainQuery.Json

/-- A token of a JSON text. -/
inductive Token where
  | openArray | closeArray | openObject | closeObject | comma | colon
  | null
  | bool (value : Bool)
  | number (value : Number)
  | string (value : String)
  deriving Repr

/-! ## 1. Numbers -/

/-- The digits at the front of a text, and the rest of it. -/
def spanDigits (cs : List Char) : List Char × List Char :=
  (cs.takeWhile Char.isDigit, cs.dropWhile Char.isDigit)

/-- Whether digits may be the whole part of a number: there is one, and no zero leads others. -/
def isWhole : List Char → Bool
  | [] => false
  | '0' :: rest => rest.isEmpty
  | _ => true

/-- The fraction at the front of a text: `none` if there is a point without digits. -/
def fraction? : List Char → Option (List Char × List Char)
  | '.' :: cs =>
    let (digits, rest) := spanDigits cs
    if digits.isEmpty then none else some (digits, rest)
  | cs => some ([], cs)

/-- The exponent that makes up a whole text: `none` if the text is no exponent. -/
def exponent? : List Char → Option Int
  | [] => some 0
  | mark :: cs =>
    if mark != 'e' && mark != 'E' then none
    else
      let (negative, cs) := match cs with
        | '-' :: rest => (true, rest)
        | '+' :: rest => (false, rest)
        | _ => (false, cs)
      if cs.isEmpty || !cs.all Char.isDigit then none
      else
        let value : Int := Decimal.digitsValue cs
        some (if negative then -value else value)

/-- The double of a sign, digits and an exponent; an infinity if it is too large. -/
def floatOf (negative : Bool) (whole fraction : List Char) (exponent : Int) : Number :=
  let magnitude := (Decimal.read? whole fraction exponent).getD (1.0 / 0.0)
  .float (if negative then -magnitude else magnitude)

/-- The number written by a sign and digits alone.  Minus zero is a double, and so is every value
outside the integers. -/
def integerOf (negative : Bool) (whole : List Char) : Number :=
  let magnitude := Decimal.digitsValue whole
  if negative then
    if magnitude == 0 || Int64.size / 2 < magnitude then floatOf true whole [] 0 else .int (-magnitude)
  else if magnitude ≤ Decimal.significandMax then .int magnitude
  else floatOf false whole [] 0

/-- The number that a text writes. -/
def number? (cs : List Char) : Option Number :=
  let (negative, cs) := match cs with
    | '-' :: rest => (true, rest)
    | _ => (false, cs)
  let (whole, rest) := spanDigits cs
  if !isWhole whole then none
  else if rest.isEmpty then some (integerOf negative whole)
  else do
    let (fraction, rest) ← fraction? rest
    let exponent ← exponent? rest
    return floatOf negative whole fraction exponent

/-- The token of a bare word. -/
def bare? (cs : List Char) : Option Token :=
  match String.ofList cs with
  | "null" => some .null
  | "true" => some (.bool true)
  | "false" => some (.bool false)
  | _ => (number? cs).map .number

/-! ## 2. Strings -/

/-- The value of a hexadecimal digit. -/
def hexDigit? (c : Char) : Option Nat :=
  if c.isDigit then some (c.toNat - '0'.toNat)
  else if 'a' ≤ c && c ≤ 'f' then some (c.toNat - 'a'.toNat + 10)
  else if 'A' ≤ c && c ≤ 'F' then some (c.toNat - 'A'.toNat + 10)
  else none

/-- The value of four hexadecimal digits. -/
def hex4? (a b c d : Char) : Option Nat := do
  return (((← hexDigit? a) * 16 + (← hexDigit? b)) * 16 + (← hexDigit? c)) * 16 + (← hexDigit? d)

/-- The first half of a character that takes two escapes. -/
def isHighHalf (n : Nat) : Bool := 0xD800 ≤ n && n < 0xDC00

/-- The second half of a character that takes two escapes. -/
def isLowHalf (n : Nat) : Bool := 0xDC00 ≤ n && n < 0xE000

/-- The character of two halves. -/
def joinHalves (high low : Nat) : Char :=
  Char.ofNat (0x10000 + (high - 0xD800) * 0x400 + (low - 0xDC00))

/-- The character of an escape by one letter. -/
def escaped? : Char → Option Char
  | '"' => some '"'
  | '\\' => some '\\'
  | '/' => some '/'
  | 'b' => some '\x08'
  | 'f' => some '\x0c'
  | 'n' => some '\n'
  | 'r' => some '\r'
  | 't' => some '\t'
  | _ => none

/-! ## 3. The pass -/

/-- Where the pass stands.  Characters already read are kept in reverse. -/
inductive Mode where
  | between
  | string (chars : List Char)
  | bare (chars : List Char)

/-- Blanks between tokens. -/
def isBlank (c : Char) : Bool := c == ' ' || c == '\t' || c == '\n' || c == '\r'

/-- The tokens of one character. -/
def mark? : Char → Option Token
  | '[' => some .openArray
  | ']' => some .closeArray
  | '\x7b' => some .openObject
  | '\x7d' => some .closeObject
  | ',' => some .comma
  | ':' => some .colon
  | _ => none

/-- Whether a bare word ends before this character. -/
def endsBare (c : Char) : Bool := isBlank c || c == '"' || (mark? c).isSome

/-- The pass over the characters; `found` holds the tokens so far, in reverse. -/
def scan : Mode → List Token → List Char → Option (List Token)
  | .between, found, [] => some found.reverse
  | .between, found, c :: cs =>
    if isBlank c then scan .between found cs
    else if c == '"' then scan (.string []) found cs
    else match mark? c with
      | some token => scan .between (token :: found) cs
      | none =>
        if (cs.head?.map endsBare).getD true then
          match bare? [c] with
          | some token => scan .between (token :: found) cs
          | none => none
        else scan (.bare [c]) found cs
  | .bare _, _, [] => none
  | .bare chars, found, c :: cs =>
    if (cs.head?.map endsBare).getD true then
      match bare? (c :: chars).reverse with
      | some token => scan .between (token :: found) cs
      | none => none
    else scan (.bare (c :: chars)) found cs
  | .string _, _, [] => none
  | .string chars, found, '"' :: cs =>
    scan .between (.string (String.ofList chars.reverse) :: found) cs
  | .string chars, found, '\\' :: 'u' :: a :: b :: c :: d :: cs =>
    match hex4? a b c d with
    | none => none
    | some code =>
      if isHighHalf code then
        match cs with
        | '\\' :: 'u' :: e :: f :: g :: h :: rest =>
          match hex4? e f g h with
          | none => none
          | some low =>
            if isLowHalf low then scan (.string (joinHalves code low :: chars)) found rest
            else none
        | _ => none
      else if isLowHalf code then none
      else scan (.string (Char.ofNat code :: chars)) found cs
  | .string chars, found, '\\' :: c :: cs =>
    match escaped? c with
    | some plain => scan (.string (plain :: chars)) found cs
    | none => none
  | .string chars, found, c :: cs =>
    if c == '\\' || c.toNat < 0x20 then none else scan (.string (c :: chars)) found cs

/-- **The tokens of a text**, or nothing if some part of it is no token. -/
def tokens? (text : String) : Option (List Token) := scan .between [] text.toList

end ChainQuery.Json
