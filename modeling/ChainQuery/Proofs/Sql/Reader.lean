import ChainQuery.Proofs.Sql.Placeholders
import Mathlib.Order.Filter.AtTopBot.Basic
/-!
# Reading statements back

A reader for the text of statements, as a database would have it.  It reads glyphs, the characters
and parameters of a statement in the order of writing (`glyphs`); that the text and the parameters
determine the glyphs is `Glyph.eq_of_writtenFrom`.

The reader descends by the first glyph or word of what it reads (`opening`).  Most expressions are
bracketed, or open with a word of their own; a match is neither, for its subject stands first.  So an
expression is read as an operand and then as many matches as follow it (`readLikes`).  A reader of a
list or clause looks at what comes next and decides by one glyph or word whether there is more.

Nothing in a text that is no statement says how long a reader runs on it, so a reader takes the number
of steps that it may descend.  What it reads is what it reads when that is large enough (`Reads`).
-/

namespace ChainQuery.Sql

/-! ## 1. Glyphs -/

/-- A character of a statement, or a parameter. -/
inductive Glyph where
  | char (c : Char)
  | param (value : Param)

/-- The glyphs of a text. -/
def spell (text : String) : List Glyph := text.toList.map Glyph.char

/-- The glyphs of pieces. -/
def glyphs : List Piece → List Glyph
  | [] => []
  | .text text :: rest => spell text ++ glyphs rest
  | .param value :: rest => .param value :: glyphs rest

@[simp] theorem glyphs_nil : glyphs [] = [] := rfl

@[simp] theorem glyphs_text (text : String) (ps : List Piece) :
    glyphs (.text text :: ps) = spell text ++ glyphs ps := rfl

@[simp] theorem glyphs_param (value : Param) (ps : List Piece) :
    glyphs (.param value :: ps) = .param value :: glyphs ps := rfl

@[simp] theorem glyphs_append (ps qs : List Piece) : glyphs (ps ++ qs) = glyphs ps ++ glyphs qs := by
  induction ps with
  | nil => rfl
  | cons p ps ih => cases p <;> simp [ih]

/-- The text that glyphs write when the next placeholder has a given number. -/
def Glyph.writtenFrom : Nat → List Glyph → List Char
  | _, [] => []
  | n, .char c :: gs => c :: writtenFrom n gs
  | n, .param _ :: gs => (placeholder n).toList ++ writtenFrom (n + 1) gs

/-- The parameter of a glyph. -/
def Glyph.param? : Glyph → Option Param
  | char _ => none
  | param value => some value

theorem Glyph.writtenFrom_spell (n : Nat) (text : String) (gs : List Glyph) :
    writtenFrom n (spell text ++ gs) = text.toList ++ writtenFrom n gs := by
  rw [spell]
  induction text.toList with
  | nil => rfl
  | cons c rest ih => simp [writtenFrom, ih]

theorem toList_written (n : Nat) (ps : List Piece) :
    (written n ps).toList = Glyph.writtenFrom n (glyphs ps) := by
  induction ps generalizing n with
  | nil => rfl
  | cons p ps ih => cases p <;> simp [written, ih, Glyph.writtenFrom, Glyph.writtenFrom_spell]

theorem filterMap_param?_glyphs (ps : List Piece) :
    (glyphs ps).filterMap Glyph.param? = ps.filterMap Piece.param? := by
  induction ps with
  | nil => rfl
  | cons p ps ih =>
    cases p with
    | param value => simp [Glyph.param?, Piece.param?, ih]
    | text text =>
      have hnone : (spell text).filterMap Glyph.param? = [] := by
        simp [spell, List.filterMap_map, Function.comp_def, Glyph.param?]
      simp [List.filterMap_cons, Piece.param?, ih, hnone]

/-- **A text and its parameters have the glyphs that wrote them**, and no others without an `@` of
their own: the numbers of the placeholders are known in advance, so that each is taken whole. -/
theorem Glyph.eq_of_writtenFrom (n : Nat) {gs hs : List Glyph}
    (hg : Glyph.char '@' ∉ gs) (hh : Glyph.char '@' ∉ hs)
    (htext : writtenFrom n gs = writtenFrom n hs)
    (hparams : gs.filterMap Glyph.param? = hs.filterMap Glyph.param?) : gs = hs := by
  have hat : ∀ n : Nat, (placeholder n).toList = '@' :: (Decimal.digitText n).toList :=
    fun n => by simp [placeholder]
  induction gs generalizing hs n with
  | nil =>
    cases hs with
    | nil => rfl
    | cons h hs => cases h <;> simp [writtenFrom, hat] at htext
  | cons g gs ih =>
    have hg' : Glyph.char '@' ∉ gs := fun h => hg (List.mem_cons_of_mem _ h)
    cases hs with
    | nil => cases g <;> simp [writtenFrom, hat] at htext
    | cons h hs =>
      have hh' : Glyph.char '@' ∉ hs := fun h => hh (List.mem_cons_of_mem _ h)
      cases g with
      | char c =>
        cases h with
        | char d =>
          simp only [writtenFrom, List.cons.injEq] at htext
          rw [htext.1, ih n hg' hh' htext.2 (by simpa [List.filterMap_cons, Glyph.param?] using hparams)]
        | param v =>
          -- the character would be the `@` of the placeholder
          simp only [writtenFrom, hat, List.cons_append, List.cons.injEq] at htext
          exact absurd (htext.1 ▸ List.mem_cons_self) hg
      | param v =>
        cases h with
        | char d =>
          simp only [writtenFrom, hat, List.cons_append, List.cons.injEq] at htext
          exact absurd (htext.1 ▸ List.mem_cons_self) hh
        | param w =>
          simp only [writtenFrom, List.append_cancel_left_eq] at htext
          simp only [List.filterMap_cons, Glyph.param?, List.cons.injEq] at hparams
          rw [hparams.1, ih (n + 1) hg' hh' htext hparams.2]

/-! ## 2. Words -/

/-- Whether a character may stand in a name.  A character outside ASCII counts as a letter. -/
def isWordChar (c : Char) : Bool := c.isAlphanum || c == '_' || 128 ≤ c.toNat

/-- Takes a text off the front. -/
def stripChars : List Char → List Glyph → Option (List Glyph)
  | [], gs => some gs
  | c :: cs, .char d :: gs => if c = d then stripChars cs gs else none
  | _ :: _, _ => none

/-- Takes a text off the front. -/
def strip (text : String) (gs : List Glyph) : Option (List Glyph) := stripChars text.toList gs

/-- Takes a text off the front if it stands there. -/
def skip (text : String) (gs : List Glyph) : Bool × List Glyph :=
  match strip text gs with
  | some rest => (true, rest)
  | none => (false, gs)

/-- The longest run of accepted characters at the front, and what follows it. -/
def takeChars (accept : Char → Bool) : List Glyph → List Char × List Glyph
  | .char c :: gs =>
    if accept c then (c :: (takeChars accept gs).1, (takeChars accept gs).2)
    else ([], .char c :: gs)
  | gs => ([], gs)

/-- The word at the front, and what follows it. -/
def readWord (gs : List Glyph) : String × List Glyph :=
  (String.ofList (takeChars isWordChar gs).1, (takeChars isWordChar gs).2)

/-- The token between two blanks at the front, and what follows the second. -/
def readToken (gs : List Glyph) : Option (String × List Glyph) := do
  let gs ← strip " " gs
  let gs' ← strip " " (takeChars (· != ' ') gs).2
  return (String.ofList (takeChars (· != ' ') gs).1, gs')

/-- The alias at the front, if there is one, and what follows it. -/
def readLabel (gs : List Glyph) : Option String × List Glyph :=
  match strip " AS " gs with
  | some gs => (some (readWord gs).1, (readWord gs).2)
  | none => (none, gs)

/-- The direction of a key, and what follows it. -/
def readDirection (gs : List Glyph) : Direction × List Glyph :=
  match strip " Desc" gs with
  | some gs => (.desc, gs)
  | none => (.asc, gs)

/-- What an expression opens with. -/
inductive Opening where
  | param (value : Param)
  /-- The bracket of a selection, and its first word. -/
  | selection
  | bracket
  | minus
  | word (text : String)

/-- What an expression at the front opens with, and what follows that. -/
def opening : List Glyph → Opening × List Glyph
  | [] => (.word "", [])
  | .param value :: gs => (.param value, gs)
  | .char c :: gs =>
    if c = '(' then
      if (readWord gs).1 = "SELECT" then (.selection, (readWord gs).2) else (.bracket, gs)
    else if c = '-' then (.minus, gs)
    else (.word (readWord (.char c :: gs)).1, (readWord (.char c :: gs)).2)

/-! ## 3. What is read without descending -/

/-- The function of a name. -/
def Function.ofText? (text : String) : Option Function :=
  [sum, min, max, avg, upper, lower, substring].find? fun f => f.text == text

/-- The wildcards of a pattern, by whether there is one before it and one after it. -/
def Wildcards.ofEnds : Bool → Bool → Wildcards
  | true, false => leading
  | true, true => both
  | false, _ => trailing

/-- Two operands around a word or token. -/
def Expr.joined (left : Expr) (token : String) (right : Expr) : Expr :=
  if token = "AND" then .and left right
  else if token = "OR" then .or left right
  else .op left token right

/-- A column by its first word: the word alone, or the table of another word after a dot. -/
def readColumn (word : String) (gs : List Glyph) : Expr × List Glyph :=
  match strip "." gs with
  | some gs => (.column (.qualified (.table word) (readWord gs).1), (readWord gs).2)
  | none => (.column (.bare word), gs)

/-- A constant of the language, or a column. -/
def readAtom (word : String) (gs : List Glyph) : Option (Expr × List Glyph) :=
  if word = "NULL" then some (.null, gs)
  else if word = "TRUE" then some (.bool true, gs)
  else if word = "FALSE" then some (.bool false, gs)
  else if word = "Count" then (strip "(*)" gs).map (.countAll, ·)
  else some (readColumn word gs)

/-- A select list from its items: it has aliases if the first item has one. -/
def SelectList.ofItems (items : List (Option String × Expr)) : SelectList :=
  match items with
  | (some _, _) :: _ => .aliased (items.filterMap fun item => item.1.map (·, item.2))
  | _ => .plain (items.map Prod.snd)

/-! ## 4. Readers -/

mutual
/-- **Reads an expression**: an operand, and the matches that it is the subject of. -/
def readExpr : Nat → List Glyph → Option (Expr × List Glyph)
  | 0, _ => none
  | n + 1, gs => do
    let (e, gs) ← readOperand n gs
    readLikes n e gs

/-- Reads the matches that follow a subject. -/
def readLikes : Nat → Expr → List Glyph → Option (Expr × List Glyph)
  | 0, _, _ => none
  | n + 1, subject, gs =>
    match strip " LIKE (" gs with
    | none => some (subject, gs)
    | some gs => do
      let (leading, gs) := skip "'%' + " gs
      let (pattern, gs) ← readExpr n gs
      let (trailing, gs) := skip " + '%'" gs
      let gs ← strip ")" gs
      readLikes n (.like subject pattern (.ofEnds leading trailing)) gs

/-- Reads an expression that is no match. -/
def readOperand : Nat → List Glyph → Option (Expr × List Glyph)
  | 0, _ => none
  | n + 1, gs =>
    match opening gs with
    | (.param value, gs) => some (.param value, gs)
    | (.selection, gs) => do
      let (select, gs) ← readSelect n gs
      let gs ← strip ")" gs
      return (.subselect select, gs)
    | (.bracket, gs) => do
      let (left, gs) ← readExpr n gs
      let (token, gs) ← readToken gs
      if token = "IS" then
        match strip "NULL)" gs with
        | some gs => return (.isNull left, gs)
        | none => return (.isNotNull left, ← strip "NOT NULL)" gs)
      else
        let (right, gs) ← readExpr n gs
        let gs ← strip ")" gs
        return (left.joined token right, gs)
    | (.minus, gs) => do
      let gs ← strip "(" gs
      let (operand, gs) ← readExpr n gs
      let gs ← strip ")" gs
      return (.negate operand, gs)
    | (.word word, gs) =>
      if word = "NOT" then do
        let gs ← strip " (" gs
        let (operand, gs) ← readExpr n gs
        let gs ← strip ")" gs
        return (.not operand, gs)
      else if word = "CASE" then do
        let gs ← strip " WHEN " gs
        let (test, gs) ← readExpr n gs
        let gs ← strip " THEN " gs
        let (ifTrue, gs) ← readExpr n gs
        let gs ← strip " ELSE " gs
        let (ifFalse, gs) ← readExpr n gs
        let gs ← strip " END" gs
        return (.case test ifTrue ifFalse, gs)
      else
        match Function.ofText? word with
        | some f => do
          let gs ← strip "(" gs
          let (args, gs) ← readArgs n gs
          return (.call f args, gs)
        | none => readAtom word gs

/-- Reads the arguments of a function and the bracket after them. -/
def readArgs : Nat → List Glyph → Option (List Expr × List Glyph)
  | 0, _ => none
  | n + 1, gs =>
    match strip ")" gs with
    | some gs => some ([], gs)
    | none => do
      let (items, gs) ← readItems n gs
      let gs ← strip ")" gs
      return (items.map Prod.snd, gs)

/-- Reads expressions, each with its alias if it has one. -/
def readItems : Nat → List Glyph → Option (List (Option String × Expr) × List Glyph)
  | 0, _ => none
  | n + 1, gs => do
    let (e, gs) ← readExpr n gs
    let (label, gs) := readLabel gs
    match strip ", " gs with
    | some gs => do
      let (items, gs) ← readItems n gs
      return ((label, e) :: items, gs)
    | none => return ([(label, e)], gs)

/-- Reads keys, each with its direction. -/
def readKeys : Nat → List Glyph → Option (List (Expr × Direction) × List Glyph)
  | 0, _ => none
  | n + 1, gs => do
    let (e, gs) ← readExpr n gs
    let (direction, gs) := readDirection gs
    match strip ", " gs with
    | some gs => do
      let (keys, gs) ← readKeys n gs
      return ((e, direction) :: keys, gs)
    | none => return ([(e, direction)], gs)

/-- Reads what is selected from. -/
def readSource : Nat → List Glyph → Option (Option From × List Glyph)
  | 0, _ => none
  | n + 1, gs =>
    match strip " FROM " gs with
    | none => some (none, gs)
    | some gs =>
      match strip "(SELECT" gs with
      | some gs => do
        let (select, gs) ← readSelect n gs
        let gs ← strip ") AS " gs
        return (some (.derived select (readWord gs).1), (readWord gs).2)
      | none =>
        let (name, gs) := readWord gs
        let (label, gs) := readLabel gs
        some (some (.table (.table name) label), gs)

/-- Reads joins, one after the other. -/
def readJoins : Nat → List Glyph → Option (List Join × List Glyph)
  | 0, _ => none
  | n + 1, gs =>
    match strip " INNER JOIN " gs with
    | some gs => do
      let (name, gs) := readWord gs
      let gs ← strip " ON " gs
      let (left, gs) ← readExpr n gs
      let gs ← strip " = " gs
      let (right, gs) ← readExpr n gs
      let (joins, gs) ← readJoins n gs
      return (.inner (.table name) left right :: joins, gs)
    | none =>
      match strip " CROSS JOIN (SELECT" gs with
      | some gs => do
        let (select, gs) ← readSelect n gs
        let gs ← strip ") AS " gs
        let (label, gs) := readWord gs
        let (joins, gs) ← readJoins n gs
        return (.cross select label :: joins, gs)
      | none => some ([], gs)

/-- Reads a filter; there is always one. -/
def readFilter : Nat → List Glyph → Option (Expr × List Glyph)
  | 0, _ => none
  | n + 1, gs =>
    match strip " WHERE " gs with
    | some gs => readExpr n gs
    | none => some (.always, gs)

/-- Reads the keys that a selection orders by. -/
def readOrder : Nat → List Glyph → Option (List (Expr × Direction) × List Glyph)
  | 0, _ => none
  | n + 1, gs =>
    match strip " ORDER BY " gs with
    | some gs => readKeys n gs
    | none => some ([], gs)

/-- **Reads a selection** after its first word. -/
def readSelect : Nat → List Glyph → Option (Select × List Glyph)
  | 0, _ => none
  | n + 1, gs => do
    let gs ← strip " " gs
    let (items, gs) ← readItems n gs
    let (source, gs) ← readSource n gs
    let (joins, gs) ← readJoins n gs
    let (filter, gs) ← readFilter n gs
    let (orderBy, gs) ← readOrder n gs
    return (⟨.ofItems items, source, joins, filter, orderBy⟩, gs)
end

/-! ## 5. What is read -/

open Filter in
/-- **What a reader reads** when it may descend far enough. -/
def Reads {α : Type} (read : Nat → Option α) (x : α) : Prop := ∀ᶠ n in atTop, read n = some x

namespace Reads

variable {α : Type} {read : Nat → Option α} {x y : α}

theorem succ (h : Reads (fun n => read (n + 1)) x) : Reads read x := by
  obtain ⟨start, h⟩ := Filter.eventually_atTop.mp h
  refine Filter.eventually_atTop.mpr ⟨start + 1, fun n hn => ?_⟩
  obtain ⟨m, rfl⟩ := Nat.exists_eq_succ_of_ne_zero (Nat.ne_zero_of_lt hn)
  exact h m (Nat.le_of_succ_le_succ hn)

theorem of_succ (h : ∀ n, read (n + 1) = some x) : Reads read x := succ (.of_forall h)

theorem unique (hx : Reads read x) (hy : Reads read y) : x = y := by
  obtain ⟨n, hx, hy⟩ := (hx.and hy).exists
  exact Option.some.inj (hx.symm.trans hy)

end Reads

end ChainQuery.Sql
