import ChainQuery.Text.CaseTable
/-!
# Upper and lower case

The full mappings of Unicode, which may change the number of characters, and its one rule that looks
at the neighbours: a capital sigma at the end of a word becomes the final form of the small one.
-/

namespace ChainQuery.Text

/-- Whether a character lies in one of some ranges. -/
def inRanges (ranges : List (Nat × Nat)) (c : Char) : Bool :=
  ranges.any fun (first, last) => first ≤ c.toNat && c.toNat ≤ last

/-- The characters that take the place of one. -/
def mapChar (sequences : List (Nat × List Nat)) (runs : List CaseRun) (c : Char) : List Char :=
  match sequences.lookup c.toNat with
  | some codes => codes.map Char.ofNat
  | none =>
    match runs.findSome? (fun r => r.apply? c.toNat) with
    | some code => [Char.ofNat code]
    | none => [c]

/-- The upper case of a character. -/
def upperChar (c : Char) : List Char := mapChar upperSequences upperRuns c

/-- The lower case of a character by itself. -/
def lowerChar (c : Char) : List Char := mapChar lowerSequences lowerRuns c

/-- Whether the first character that is not passed over has a case. -/
def nextIsCased (cs : List Char) : Bool :=
  ((cs.dropWhile (inRanges caseIgnorableRanges)).head?.map (inRanges casedRanges)).getD false

/-- The lower case of the characters of a text; `before` holds those already passed, in reverse. -/
def lowerChars (before : List Char) : List Char → List Char
  | [] => []
  | c :: rest =>
    let mapped :=
      if c == 'Σ' && nextIsCased before && !nextIsCased rest then ['ς'] else lowerChar c
    mapped ++ lowerChars (c :: before) rest

/-- **The upper case of a text.** -/
def upper (s : String) : String := String.ofList (s.toList.flatMap upperChar)

/-- **The lower case of a text.** -/
def lower (s : String) : String := String.ofList (lowerChars [] s.toList)

end ChainQuery.Text
