import ChainQuery.Proofs.Sql.Readable
/-!
# Reading back what was written

The parts of a readable statement are read back from their glyphs by the reader of statements, with
tables by name, whatever follows that cannot belong to them.  What may follow is said by three tests.  A
word ends before a bracket, a comma or a blank (`stops`).  An expression ends there too, unless the
blank is that of `LIKE`, for then it is the subject of a match (`ends`).  The clauses of a selection
are all optional and differ in the letter after their blank, so for them the test names the letters
that may come next (`opensWith`).

Each part has a predicate that says it is read back, and a rule for each of its forms that asks the
same of its parts.  What can go wrong is that one form is taken for another, and each rule shows why it
is not: an operand in brackets is no selection because no expression begins with `SELECT`, a function
with arguments is not one without because no expression begins with a bracket that closes
(`begins`).
-/

namespace ChainQuery.Sql

/-! ## 1. Texts and words at the front -/

@[simp] theorem strip_spell (text : String) (gs : List Glyph) :
    strip text (spell text ++ gs) = some gs := by
  rw [strip, spell]
  induction text.toList with
  | nil => rfl
  | cons c rest ih => simp [stripChars, ih]

@[simp] theorem skip_spell (text : String) (gs : List Glyph) :
    skip text (spell text ++ gs) = (true, gs) := by
  simp [skip]

theorem skip_of_strip {text : String} {gs : List Glyph} (h : strip text gs = none) :
    skip text gs = (false, gs) := by
  simp [skip, h]

/-- Whether a word ends before some glyphs. -/
def stops : List Glyph → Bool
  | [] => true
  | .char c :: _ => c == ' ' || c == ')' || c == ','
  | .param _ :: _ => false

theorem takeChars_spell {accept : Char → Bool} {text : String}
    (htext : ∀ c ∈ text.toList, accept c = true) {gs : List Glyph}
    (hgs : takeChars accept gs = ([], gs)) :
    takeChars accept (spell text ++ gs) = (text.toList, gs) := by
  rw [spell]
  generalize text.toList = cs at htext
  induction cs with
  | nil => exact hgs
  | cons c rest ih =>
    have hrest := ih fun d hd => htext d (List.mem_cons_of_mem _ hd)
    simp [takeChars, htext c List.mem_cons_self, hrest]

theorem readWord_spell {word : String} (hword : word.toList.all isWordChar = true) {gs : List Glyph}
    (hgs : takeChars isWordChar gs = ([], gs)) : readWord (spell word ++ gs) = (word, gs) := by
  simp [readWord, takeChars_spell (List.all_eq_true.mp hword) hgs]

/-- A token that holds no blank is read up to the next one. -/
theorem readToken_spell (token : String) (htoken : ' ' ∉ token.toList) (gs : List Glyph) :
    readToken (spell " " ++ (spell token ++ (spell " " ++ gs))) = some (token, gs) := by
  have hall : ∀ c ∈ token.toList, (c != ' ') = true := fun c hc => by
    simpa using fun h : c = ' ' => htoken (h ▸ hc)
  have htake : takeChars (· != ' ') (spell token ++ (spell " " ++ gs))
      = (token.toList, spell " " ++ gs) := takeChars_spell hall rfl
  simp [readToken, htake]

theorem takeChars_of_stops {gs : List Glyph} (h : stops gs = true) :
    takeChars isWordChar gs = ([], gs) := by
  cases gs with
  | nil => rfl
  | cons g gs =>
    cases g with
    | param v => simp [stops] at h
    | char c =>
      have hc : isWordChar c = false := by
        simp only [stops, Bool.or_eq_true, beq_iff_eq] at h
        rcases h with (rfl | rfl) | rfl <;> decide
      simp [takeChars, hc]

section Identifiers

variable {name : String} (h : isIdentifier name = true)
include h

/-- An identifier is read up to where a word ends. -/
theorem readWord_identifier {gs : List Glyph} (hgs : stops gs = true) :
    readWord (spell name ++ gs) = (name, gs) :=
  readWord_spell (all_isWordChar_of_isIdentifier h) (takeChars_of_stops hgs)

/-- A text that does not begin like a name does not stand before one. -/
theorem strip_identifier {text : String} {c : Char} {rest : List Char}
    (htext : text.toList = c :: rest) (hc : isWordChar c = false) (gs : List Glyph) :
    strip text (spell name ++ gs) = none := by
  obtain ⟨d, cs, hd⟩ := List.exists_cons_of_ne_nil (toList_ne_nil_of_isIdentifier h)
  have hword : isWordChar d = true :=
    List.all_eq_true.mp (all_isWordChar_of_isIdentifier h) d (hd ▸ List.mem_cons_self)
  have hne : c ≠ d := by
    rintro rfl
    simp [hc] at hword
  simp [strip, spell, hd, htext, stripChars, hne]

end Identifiers

/-- What opens with a word. -/
theorem opening_word {word : String} (hne : word.toList ≠ [])
    (hword : word.toList.all isWordChar = true) {gs : List Glyph}
    (hgs : takeChars isWordChar gs = ([], gs)) : opening (spell word ++ gs) = (.word word, gs) := by
  have hread := readWord_spell hword hgs
  obtain ⟨c, cs, hc⟩ := List.exists_cons_of_ne_nil hne
  have hcword : isWordChar c = true := List.all_eq_true.mp hword c (hc ▸ List.mem_cons_self)
  have hspell : spell word ++ gs = .char c :: (cs.map Glyph.char ++ gs) := by simp [spell, hc]
  have hbracket : c ≠ '(' := by
    rintro rfl
    exact absurd hcword (by decide)
  have hminus : c ≠ '-' := by
    rintro rfl
    exact absurd hcword (by decide)
  rw [hspell] at hread ⊢
  simp [opening, hbracket, hminus, hread]

/-! ## 2. What expressions begin with and where they end -/

/-- Whether glyphs begin like an expression: with a parameter, a bracket, a minus, or a word that does
not open a selection. -/
def begins : List Glyph → Bool
  | [] => false
  | .param _ :: _ => true
  | .char c :: gs =>
    c == '(' || c == '-' || (isWordChar c && (readWord (.char c :: gs)).1 != "SELECT")

theorem begins_word (word : String) (hne : word.toList ≠ [])
    (hword : word.toList.all isWordChar = true) (hselect : word ≠ "SELECT") {gs : List Glyph}
    (hgs : takeChars isWordChar gs = ([], gs)) : begins (spell word ++ gs) = true := by
  have hread := readWord_spell hword hgs
  obtain ⟨c, cs, hc⟩ := List.exists_cons_of_ne_nil hne
  have hcword : isWordChar c = true := List.all_eq_true.mp hword c (hc ▸ List.mem_cons_self)
  have hspell : spell word ++ gs = .char c :: (cs.map Glyph.char ++ gs) := by simp [spell, hc]
  rw [hspell] at hread ⊢
  simp [begins, hcword, hread, hselect]

/-- A bracket before an expression is not that of a selection. -/
theorem opening_bracket {gs : List Glyph} (h : begins gs = true) :
    opening (spell "(" ++ gs) = (.bracket, gs) := by
  have hselect : (readWord gs).1 ≠ "SELECT" := by
    cases gs with
    | nil => simp [begins] at h
    | cons g gs =>
      cases g with
      | param v => simp [readWord, takeChars]
      | char c =>
        by_cases hc : isWordChar c = true
        · have hbracket : c ≠ '(' := by
            rintro rfl
            exact absurd hc (by decide)
          have hminus : c ≠ '-' := by
            rintro rfl
            exact absurd hc (by decide)
          simpa [begins, hbracket, hminus, hc] using h
        · simp [readWord, takeChars, hc]
  have hspell : spell "(" ++ gs = .char '(' :: gs := rfl
  simp [hspell, opening, hselect]

/-- An expression begins neither with a closing bracket nor with a quote. -/
theorem strip_of_begins {gs : List Glyph} (h : begins gs = true) {text : String} {c : Char}
    {rest : List Char} (htext : text.toList = c :: rest) (hc : c = ')' ∨ c = '\'') :
    strip text gs = none := by
  cases gs with
  | nil => simp [begins] at h
  | cons g gs =>
    cases g with
    | param v => simp [strip, htext, stripChars]
    | char d =>
      have hne : c ≠ d := by
        rintro rfl
        have hclose : isWordChar ')' = false := by decide
        have hquote : isWordChar '\'' = false := by decide
        rcases hc with rfl | rfl <;> simp [begins, hclose, hquote] at h
      simp [strip, htext, stripChars, hne]

/-- Whether an expression ends before some glyphs. -/
def ends (gs : List Glyph) : Bool := stops gs && (strip " LIKE (" gs).isNone

theorem stops_of_ends {gs : List Glyph} (h : ends gs = true) : stops gs = true := by
  simp only [ends, Bool.and_eq_true] at h
  exact h.1

theorem readLikes_of_ends {gs : List Glyph} (h : ends gs = true) (subject : Expr) :
    Reads (readLikes · subject gs) (subject, gs) := by
  simp only [ends, Bool.and_eq_true, Option.isNone_iff_eq_none] at h
  exact .of_succ fun n => by rw [readLikes, h.2]

/-- Whether a selection ends before some glyphs, or goes on with a clause whose first letter is one of
those given. -/
def opensWith (letters : List Char) : List Glyph → Bool
  | [] => true
  | .char ' ' :: .char c :: _ => letters.contains c
  | .char c :: _ => c == ')'
  | .param _ :: _ => false

theorem opensWith_cases {letters : List Char} {gs : List Glyph} (h : opensWith letters gs = true) :
    gs = [] ∨ (∃ rest, gs = .char ')' :: rest) ∨
      ∃ c rest, gs = .char ' ' :: .char c :: rest ∧ c ∈ letters := by
  unfold opensWith at h
  split at h
  · exact .inl rfl
  · exact .inr (.inr ⟨_, _, rfl, by simpa using h⟩)
  · obtain rfl := eq_of_beq h
    exact .inr (.inl ⟨_, rfl⟩)
  · cases h

theorem opensWith_mono {letters more : List Char} (hsub : letters ⊆ more) {gs : List Glyph}
    (h : opensWith letters gs = true) : opensWith more gs = true := by
  obtain rfl | ⟨rest, rfl⟩ | ⟨c, rest, rfl, hc⟩ := opensWith_cases h
  · rfl
  · rfl
  · simpa [opensWith] using hsub hc

/-- A clause that cannot come next is not there. -/
theorem strip_of_opensWith {letters : List Char} {gs : List Glyph}
    (h : opensWith letters gs = true) {text : String} {c : Char} {rest : List Char}
    (htext : text.toList = ' ' :: c :: rest) (hc : c ∉ letters) : strip text gs = none := by
  obtain rfl | ⟨more, rfl⟩ | ⟨d, more, rfl, hd⟩ := opensWith_cases h
  · simp [strip, htext, stripChars]
  · simp [strip, htext, stripChars]
  · have hne : c ≠ d := by
      rintro rfl
      exact hc hd
    simp [strip, htext, stripChars, hne]

theorem strip_comma_of_opensWith {letters : List Char} {gs : List Glyph}
    (h : opensWith letters gs = true) : strip ", " gs = none := by
  obtain rfl | ⟨more, rfl⟩ | ⟨d, more, rfl, hd⟩ := opensWith_cases h <;> rfl

theorem ends_of_opensWith {letters : List Char} (hlike : 'L' ∉ letters) {gs : List Glyph}
    (h : opensWith letters gs = true) : ends gs = true := by
  have hnone : strip " LIKE (" gs = none := strip_of_opensWith h rfl hlike
  obtain rfl | ⟨more, rfl⟩ | ⟨d, more, rfl, hd⟩ := opensWith_cases h
  · rfl
  · rfl
  · simp [ends, stops, hnone]

/-- An expression ends before a blank and a token or word that is not `LIKE`. -/
theorem ends_token (token : String) (h : (token.toList.head?.any (· != 'L')) = true)
    (gs : List Glyph) : ends (spell " " ++ (spell token ++ gs)) = true := by
  cases htoken : token.toList with
  | nil => simp [htoken] at h
  | cons c rest =>
    have hc : 'L' ≠ c := fun hc => by simp [htoken, ← hc] at h
    simp [ends, stops, spell, htoken, strip, stripChars, hc]

/-- Whether a word opens an expression that is read without descending. -/
def isAtomic (word : String) : Bool :=
  !word.toList.isEmpty && word.toList.all isWordChar && !(["SELECT", "NOT", "CASE"].contains word)
    && (Function.ofText? word).isNone

theorem isAtomic_of_isIdentifier {name : String} (h : isIdentifier name = true) :
    isAtomic name = true := by
  have hne : ∀ word ∈ keywords, name ≠ word := fun word hword =>
    ne_keyword_of_isIdentifier h (List.contains_iff_mem.mpr hword)
  have hfunction : Function.ofText? name = none := by
    have htexts : ∀ f : Function, f.text ∈ keywords := fun f => by cases f <;> decide
    rw [Function.ofText?, List.find?_eq_none]
    intro f _
    simpa using (hne f.text (htexts f)).symm
  have hselect : ¬name = "SELECT" := hne _ (by decide)
  have hnot : ¬name = "NOT" := hne _ (by decide)
  have hcase : ¬name = "CASE" := hne _ (by decide)
  have hall := all_isWordChar_of_isIdentifier h
  have hnil := toList_ne_nil_of_isIdentifier h
  simp only [isAtomic, hall, hfunction]
  simp [hselect, hnot, hcase]
  simpa using hnil

/-- A word that is an identifier is a column, or the table of one. -/
theorem readAtom_identifier {name : String} (h : isIdentifier name = true) (gs : List Glyph) :
    readAtom name gs = some (readColumn name gs) := by
  have hnull : ¬name = "NULL" := ne_keyword_of_isIdentifier h (by decide)
  have htrue : ¬name = "TRUE" := ne_keyword_of_isIdentifier h (by decide)
  have hfalse : ¬name = "FALSE" := ne_keyword_of_isIdentifier h (by decide)
  have hcount : ¬name = "Count" := ne_keyword_of_isIdentifier h (by decide)
  rw [readAtom, if_neg hnull, if_neg htrue, if_neg hfalse, if_neg hcount]

theorem strip_dot_of_stops {gs : List Glyph} (h : stops gs = true) : strip "." gs = none := by
  cases gs with
  | nil => rfl
  | cons g gs =>
    cases g with
    | param v => rfl
    | char c =>
      have hc : '.' ≠ c := by
        rintro rfl
        simp [stops] at h
      simp [strip, stripChars, hc]

theorem spell_empty : spell "" = [] := rfl

/-! ## 3. Expressions are read back -/

/-- **An expression is read back** from its glyphs before whatever ends a word, up to the matches that
it is the subject of; and it begins like an expression. -/
structure Expr.ReadsBack (e : Expr) : Prop where
  begins : ∀ gs, stops gs = true → Sql.begins (glyphs e.pieces ++ gs) = true
  read : ∀ gs, stops gs = true → ∀ r, Reads (readLikes · e.byName gs) r →
    Reads (readExpr · (glyphs e.pieces ++ gs)) r

namespace Expr.ReadsBack

variable {e left right operand test ifTrue ifFalse : Expr}

/-- An expression alone is read back where it ends. -/
theorem alone (h : e.ReadsBack) {gs : List Glyph} (hgs : ends gs = true) :
    Reads (readExpr · (glyphs e.pieces ++ gs)) (e.byName, gs) :=
  h.read gs (stops_of_ends hgs) _ (readLikes_of_ends hgs _)

theorem inBrackets (h : e.ReadsBack) (gs : List Glyph) :
    Reads (readExpr · (glyphs e.pieces ++ (spell ")" ++ gs))) (e.byName, spell ")" ++ gs) :=
  h.alone rfl

/-- It is enough to read back an operand. -/
theorem ofOperand (hbegins : ∀ gs, stops gs = true → Sql.begins (glyphs e.pieces ++ gs) = true)
    (h : ∀ gs, stops gs = true → Reads (readOperand · (glyphs e.pieces ++ gs)) (e.byName, gs)) :
    e.ReadsBack := by
  refine ⟨hbegins, fun gs hgs r hr => .succ ?_⟩
  filter_upwards [h gs hgs, hr] with n hoperand hlikes
  rw [readExpr, hoperand]
  exact hlikes

/-- **Two operands around a token**, in brackets. -/
theorem joined (token : String) (hl : left.ReadsBack) (hr : right.ReadsBack)
    (hblank : ' ' ∉ token.toList) (hhead : (token.toList.head?.any (· != 'L')) = true)
    (his : token ≠ "IS")
    (hglyphs : ∀ gs, glyphs e.pieces ++ gs
      = spell "(" ++ (glyphs left.pieces ++ (spell " " ++ (spell token ++ (spell " "
        ++ (glyphs right.pieces ++ (spell ")" ++ gs)))))))
    (hname : e.byName = left.byName.joined token right.byName) : e.ReadsBack := by
  refine ofOperand (fun gs _ => ?_) fun gs _ => .succ ?_
  · rw [hglyphs]
    rfl
  · have hends := ends_token token hhead (spell " " ++ (glyphs right.pieces ++ (spell ")" ++ gs)))
    filter_upwards [hl.alone hends, hr.inBrackets gs] with n hleft hright
    rw [hglyphs, readOperand, opening_bracket (hl.begins _ (stops_of_ends hends))]
    simp [hleft, hright, readToken_spell token hblank, his, hname]

theorem and (hl : left.ReadsBack) (hr : right.ReadsBack) : (Expr.and left right).ReadsBack :=
  joined "AND" hl hr (by decide) (by decide) (by decide) (fun gs => by simp [Expr.pieces]; rfl) rfl

theorem or (hl : left.ReadsBack) (hr : right.ReadsBack) : (Expr.or left right).ReadsBack :=
  joined "OR" hl hr (by decide) (by decide) (by decide) (fun gs => by simp [Expr.pieces]; rfl) rfl

theorem op {token : String} (htoken : operators.contains token = true) (hl : left.ReadsBack)
    (hr : right.ReadsBack) : (Expr.op left token right).ReadsBack := by
  have htokens : ∀ token ∈ operators, ' ' ∉ token.toList ∧
      (token.toList.head?.any (· != 'L')) = true ∧ token ≠ "IS" ∧ token ≠ "AND" ∧ token ≠ "OR" := by
    decide
  obtain ⟨hblank, hhead, his, hand, hor⟩ := htokens token (List.contains_iff_mem.mp htoken)
  exact joined token hl hr hblank hhead his (fun gs => by simp [Expr.pieces])
    (by simp [Expr.byName, Expr.joined, hand, hor])

theorem isNull (h : operand.ReadsBack) : (Expr.isNull operand).ReadsBack := by
  have hglyphs : ∀ gs, glyphs (Expr.isNull operand).pieces ++ gs
      = spell "(" ++ (glyphs operand.pieces ++ (spell " " ++ (spell "IS" ++ (spell " "
        ++ (spell "NULL)" ++ gs))))) := fun gs => by simp [Expr.pieces]; rfl
  refine ofOperand (fun gs _ => by rw [hglyphs]; rfl) fun gs _ => .succ ?_
  have hends := ends_token "IS" (by decide) (spell " " ++ (spell "NULL)" ++ gs))
  have htoken := readToken_spell "IS" (by decide)
  filter_upwards [h.alone hends] with n hoperand
  rw [hglyphs, readOperand, opening_bracket (h.begins _ (stops_of_ends hends))]
  simp [hoperand, htoken, Expr.byName]

theorem isNotNull (h : operand.ReadsBack) : (Expr.isNotNull operand).ReadsBack := by
  have hglyphs : ∀ gs, glyphs (Expr.isNotNull operand).pieces ++ gs
      = spell "(" ++ (glyphs operand.pieces ++ (spell " " ++ (spell "IS" ++ (spell " "
        ++ (spell "NOT NULL)" ++ gs))))) := fun gs => by simp [Expr.pieces]; rfl
  refine ofOperand (fun gs _ => by rw [hglyphs]; rfl) fun gs _ => .succ ?_
  have hends := ends_token "IS" (by decide) (spell " " ++ (spell "NOT NULL)" ++ gs))
  have htoken := readToken_spell "IS" (by decide)
  have hnull : strip "NULL)" (spell "NOT NULL)" ++ gs) = none := rfl
  filter_upwards [h.alone hends] with n hoperand
  rw [hglyphs, readOperand, opening_bracket (h.begins _ (stops_of_ends hends))]
  simp [hoperand, htoken, hnull, Expr.byName]

theorem not (h : operand.ReadsBack) : (Expr.not operand).ReadsBack := by
  have hglyphs : ∀ gs, glyphs (Expr.not operand).pieces ++ gs
      = spell "NOT" ++ (spell " (" ++ (glyphs operand.pieces ++ (spell ")" ++ gs))) :=
    fun gs => by simp [Expr.pieces]; rfl
  refine ofOperand (fun gs _ => by rw [hglyphs]; rfl) fun gs _ => .succ ?_
  filter_upwards [h.inBrackets gs] with n hoperand
  rw [hglyphs, readOperand, opening_word (by decide) (by decide) rfl]
  simp [hoperand, Expr.byName]

theorem negate (h : operand.ReadsBack) : (Expr.negate operand).ReadsBack := by
  have hglyphs : ∀ gs, glyphs (Expr.negate operand).pieces ++ gs
      = spell "-" ++ (spell "(" ++ (glyphs operand.pieces ++ (spell ")" ++ gs))) :=
    fun gs => by simp [Expr.pieces]; rfl
  refine ofOperand (fun gs _ => by rw [hglyphs]; rfl) fun gs _ => .succ ?_
  have hopen : ∀ gs, opening (spell "-" ++ gs) = (.minus, gs) := fun _ => rfl
  filter_upwards [h.inBrackets gs] with n hoperand
  rw [hglyphs, readOperand, hopen]
  simp [hoperand, Expr.byName]

theorem case (ht : test.ReadsBack) (ha : ifTrue.ReadsBack) (hb : ifFalse.ReadsBack) :
    (Expr.case test ifTrue ifFalse).ReadsBack := by
  have hglyphs : ∀ gs, glyphs (Expr.case test ifTrue ifFalse).pieces ++ gs
      = spell "CASE" ++ (spell " WHEN " ++ (glyphs test.pieces ++ (spell " THEN "
        ++ (glyphs ifTrue.pieces ++ (spell " ELSE " ++ (glyphs ifFalse.pieces
        ++ (spell " END" ++ gs))))))) := fun gs => by simp [Expr.pieces]; rfl
  refine ofOperand (fun gs _ => by rw [hglyphs]; rfl) fun gs _ => .succ ?_
  let afterTrue := spell " ELSE " ++ (glyphs ifFalse.pieces ++ (spell " END" ++ gs))
  have hthen : ends (spell " THEN " ++ (glyphs ifTrue.pieces ++ afterTrue)) = true := rfl
  have helse : ends afterTrue = true := rfl
  have hend : ends (spell " END" ++ gs) = true := rfl
  filter_upwards [ht.alone hthen, ha.alone helse, hb.alone hend] with n ht ha hb
  rw [hglyphs, readOperand, opening_word (by decide) (by decide) rfl]
  simp [ht, ha, hb, afterTrue, Expr.byName]

/-- A parameter. -/
theorem param (value : Param) : (Expr.param value).ReadsBack :=
  ofOperand (fun _ _ => rfl) fun gs _ => .of_succ fun n => by rw [readOperand]; rfl

/-- **An expression that opens with a word of its own** and is read without descending. -/
theorem atom {word : String} {rest : List Glyph} (hword : isAtomic word = true)
    (hglyphs : glyphs e.pieces = spell word ++ rest)
    (hrest : ∀ gs, stops gs = true → takeChars isWordChar (rest ++ gs) = ([], rest ++ gs))
    (hread : ∀ gs, stops gs = true → readAtom word (rest ++ gs) = some (e.byName, gs)) :
    e.ReadsBack := by
  simp only [isAtomic, Bool.and_eq_true, Bool.not_eq_true', List.isEmpty_eq_false_iff,
    Option.isNone_iff_eq_none, List.contains_eq_mem, List.mem_cons, List.not_mem_nil, or_false,
    decide_eq_false_iff_not, not_or] at hword
  obtain ⟨⟨⟨hne, hchars⟩, hselect, hnot, hcase⟩, hfunction⟩ := hword
  refine ofOperand (fun gs hgs => ?_) fun gs hgs => .of_succ fun n => ?_
  · rw [hglyphs, List.append_assoc]
    exact begins_word word hne hchars hselect (hrest gs hgs)
  · rw [hglyphs, List.append_assoc, readOperand, opening_word hne hchars (hrest gs hgs)]
    simp [hnot, hcase, hfunction, hread gs hgs]

theorem null : Expr.null.ReadsBack := by
  have hword : isAtomic "NULL" = true := by decide
  exact atom hword rfl (fun _ hgs => takeChars_of_stops hgs) fun _ _ => rfl

theorem bool (value : Bool) : (Expr.bool value).ReadsBack := by
  have htrue : isAtomic "TRUE" = true := by decide
  have hfalse : isAtomic "FALSE" = true := by decide
  cases value with
  | true => exact atom htrue rfl (fun _ hgs => takeChars_of_stops hgs) fun _ _ => rfl
  | false => exact atom hfalse rfl (fun _ hgs => takeChars_of_stops hgs) fun _ _ => rfl

theorem countAll : Expr.countAll.ReadsBack := by
  have hword : isAtomic "Count" = true := by decide
  have hglyphs : glyphs Expr.countAll.pieces = spell "Count" ++ spell "(*)" := rfl
  exact atom hword hglyphs (fun _ _ => rfl) fun _ _ => rfl

/-- **A column**, of a table or alone. -/
theorem column {ref : ColumnRef} (h : ref.isReadable = true) : (Expr.column ref).ReadsBack := by
  cases ref with
  | bare name =>
    have hglyphs : glyphs (Expr.column (.bare name)).pieces = spell name ++ [] := rfl
    refine atom (isAtomic_of_isIdentifier h) hglyphs (fun _ hgs => takeChars_of_stops hgs)
      fun gs hgs => ?_
    simp [readAtom_identifier h, readColumn, strip_dot_of_stops hgs, Expr.byName, ColumnRef.byName]
  | qualified table name =>
    simp only [ColumnRef.isReadable, TableRef.isReadable, Bool.and_eq_true] at h
    have hglyphs : glyphs (Expr.column (.qualified table name)).pieces
        = spell table.text ++ (spell "." ++ spell name) := by
      simp [Expr.pieces, ColumnRef.text, spell]
    refine atom (isAtomic_of_isIdentifier h.1) hglyphs (fun _ _ => rfl) fun gs hgs => ?_
    simp [readAtom_identifier h.1, readColumn, readWord_identifier h.2 hgs, Expr.byName,
      ColumnRef.byName, TableRef.byName]

/-- **A match**, after which others may follow. -/
theorem like {subject pattern : Expr} (hs : subject.ReadsBack) (hp : pattern.ReadsBack)
    (w : Wildcards) : (Expr.like subject pattern w).ReadsBack := by
  have hglyphs : ∀ gs, glyphs (Expr.like subject pattern w).pieces ++ gs
      = glyphs subject.pieces ++ (spell " LIKE (" ++ (spell w.before ++ (glyphs pattern.pieces
        ++ (spell w.after ++ (spell ")" ++ gs))))) := fun gs => by simp [Expr.pieces]
  refine ⟨fun gs _ => ?_, fun gs _ r hr => ?_⟩
  · rw [hglyphs]
    exact hs.begins _ rfl
  · have hmore : ends (spell " + '%'" ++ (spell ")" ++ gs)) = true := rfl
    have hnoMore : skip " + '%'" (spell ")" ++ gs) = (false, spell ")" ++ gs) := rfl
    have hnone : ∀ gs, stops gs = true →
        skip "'%' + " (glyphs pattern.pieces ++ gs) = (false, glyphs pattern.pieces ++ gs) :=
      fun gs hgs => skip_of_strip (strip_of_begins (hp.begins gs hgs) rfl (.inr rfl))
    rw [hglyphs]
    refine hs.read _ rfl r (.succ ?_)
    cases w with
    | trailing =>
      have hnone := hnone (spell " + '%'" ++ (spell ")" ++ gs)) rfl
      filter_upwards [hp.alone hmore, hr] with n hpattern hlikes
      rw [readLikes, strip_spell]
      simpa [Wildcards.before, Wildcards.after, spell_empty, hnone, hpattern, Wildcards.ofEnds,
        Expr.byName] using hlikes
    | leading =>
      filter_upwards [hp.inBrackets gs, hr] with n hpattern hlikes
      rw [readLikes, strip_spell]
      simpa [Wildcards.before, Wildcards.after, spell_empty, hpattern, hnoMore, Wildcards.ofEnds,
        Expr.byName] using hlikes
    | both =>
      filter_upwards [hp.alone hmore, hr] with n hpattern hlikes
      rw [readLikes, strip_spell]
      simpa [Wildcards.before, Wildcards.after, hpattern, Wildcards.ofEnds, Expr.byName]
        using hlikes

end Expr.ReadsBack

/-- **A selection is read back** from what follows its first word, before a bracket or at the end. -/
def Select.ReadsBack (s : Select) : Prop :=
  ∀ gs, opensWith [] gs = true → ∃ body, glyphs s.pieces ++ gs = spell "SELECT " ++ body ∧
    Reads (readSelect · (spell " " ++ body)) (s.byName, gs)

theorem Expr.ReadsBack.subselect {s : Select} (h : s.ReadsBack) : (Expr.subselect s).ReadsBack := by
  have hglyphs : ∀ gs, glyphs (Expr.subselect s).pieces ++ gs
      = spell "(" ++ (glyphs s.pieces ++ (spell ")" ++ gs)) := fun gs => by simp [Expr.pieces]
  refine ofOperand (fun gs _ => by rw [hglyphs]; rfl) fun gs _ => .succ ?_
  obtain ⟨body, hbody, hread⟩ := h (spell ")" ++ gs) rfl
  have hopen : opening (spell "(" ++ (spell "SELECT " ++ body)) = (.selection, spell " " ++ body) := rfl
  filter_upwards [hread] with n hread
  rw [hglyphs, hbody, readOperand, hopen]
  simp [hread, Expr.byName]

/-! ## 4. Lists are read back -/

/-- The letters that the clauses after a select list begin with. -/
def clauseLetters : List Char := ['F', 'I', 'C', 'W', 'O']

/-- An alias is read back, and so is its absence. -/
theorem readLabel_alias {label : Option String} (hlabel : label.all isIdentifier = true)
    {gs : List Glyph} (hstops : stops gs = true) (has : strip " AS " gs = none) :
    readLabel (glyphs (aliasPieces label) ++ gs) = (label, gs) := by
  cases label with
  | none => simp [aliasPieces, readLabel, has]
  | some name => simp [aliasPieces, readLabel, readWord_identifier hlabel hstops]

theorem ends_alias (label : Option String) {gs : List Glyph} (h : ends gs = true) :
    ends (glyphs (aliasPieces label) ++ gs) = true := by
  cases label with
  | none => exact h
  | some name => rfl

/-- **The items of a list are read back**, each with its alias if it has one. -/
structure ItemsReadBack (ps : List Piece) (items : List (Option String × Expr)) : Prop where
  begins : ∀ gs, opensWith clauseLetters gs = true → Sql.begins (glyphs ps ++ gs) = true
  read : ∀ gs, opensWith clauseLetters gs = true → Reads (readItems · (glyphs ps ++ gs)) (items, gs)

namespace ItemsReadBack

variable {e : Expr} {ps : List Piece} {items : List (Option String × Expr)}

theorem last (label : Option String) (h : e.ReadsBack) (hlabel : label.all isIdentifier = true) :
    ItemsReadBack (e.pieces ++ aliasPieces label) [(label, e.byName)] := by
  have hends : ∀ gs, opensWith clauseLetters gs = true →
      ends (glyphs (aliasPieces label) ++ gs) = true :=
    fun gs hgs => ends_alias label (ends_of_opensWith (by decide) hgs)
  refine ⟨fun gs hgs => ?_, fun gs hgs => .succ ?_⟩
  · rw [glyphs_append, List.append_assoc]
    exact h.begins _ (stops_of_ends (hends gs hgs))
  · have hstops := stops_of_ends (ends_of_opensWith (by decide) hgs)
    have has : strip " AS " gs = none := strip_of_opensWith hgs rfl (by decide)
    filter_upwards [h.alone (hends gs hgs)] with n hread
    rw [glyphs_append, List.append_assoc, readItems, hread]
    simp [readLabel_alias hlabel hstops has, strip_comma_of_opensWith hgs]

theorem cons (label : Option String) (h : e.ReadsBack) (hlabel : label.all isIdentifier = true)
    (hrest : ItemsReadBack ps items) :
    ItemsReadBack (e.pieces ++ (aliasPieces label ++ .text ", " :: ps))
      ((label, e.byName) :: items) := by
  have hends : ∀ gs, ends (glyphs (aliasPieces label) ++ (spell ", " ++ gs)) = true :=
    fun gs => ends_alias label rfl
  have hglyphs : ∀ gs, glyphs (e.pieces ++ (aliasPieces label ++ .text ", " :: ps)) ++ gs
      = glyphs e.pieces ++ (glyphs (aliasPieces label) ++ (spell ", " ++ (glyphs ps ++ gs))) :=
    fun gs => by simp
  refine ⟨fun gs _ => ?_, fun gs hgs => .succ ?_⟩
  · rw [hglyphs]
    exact h.begins _ (stops_of_ends (hends _))
  · have hstops : stops (spell ", " ++ (glyphs ps ++ gs)) = true := rfl
    have has : strip " AS " (spell ", " ++ (glyphs ps ++ gs)) = none := rfl
    filter_upwards [h.alone (hends (glyphs ps ++ gs)), hrest.read gs hgs] with n hread hrest
    rw [hglyphs, readItems, hread]
    simp [readLabel_alias hlabel hstops has, hrest]

end ItemsReadBack

/-- **A function of arguments.** -/
theorem Expr.ReadsBack.call (f : Function) {args : List Expr}
    (h : args ≠ [] → ItemsReadBack (Expr.listPieces args) ((Expr.listByName args).map (none, ·))) :
    (Expr.call f args).ReadsBack := by
  have hglyphs : ∀ gs, glyphs (Expr.call f args).pieces ++ gs
      = spell f.text ++ (spell "(" ++ (glyphs (Expr.listPieces args) ++ (spell ")" ++ gs))) :=
    fun gs => by simp [Expr.pieces]
  have hargs : ∀ gs, Reads (readArgs · (glyphs (Expr.listPieces args) ++ (spell ")" ++ gs)))
      (Expr.listByName args, gs) := by
    intro gs
    cases args with
    | nil => exact .of_succ fun n => by simp [Expr.listPieces, Expr.listByName, readArgs]
    | cons e rest =>
      have h := h (List.cons_ne_nil _ _)
      have hnone : strip ")" (glyphs (Expr.listPieces (e :: rest)) ++ (spell ")" ++ gs)) = none :=
        strip_of_begins (h.begins (spell ")" ++ gs) rfl) rfl (.inl rfl)
      refine .succ ?_
      filter_upwards [h.read (spell ")" ++ gs) rfl] with n hitems
      rw [readArgs, hnone]
      simp [hitems, Function.comp_def]
  refine ofOperand (fun gs _ => ?_) fun gs _ => .succ ?_
  · rw [hglyphs]
    cases f <;> rfl
  · have hword : f.text.toList ≠ [] ∧ f.text.toList.all isWordChar = true ∧ f.text ≠ "NOT" ∧
        f.text ≠ "CASE" := by
      cases f <;> decide
    have hfunction : Function.ofText? f.text = some f := by cases f <;> rfl
    filter_upwards [hargs gs] with n hargs
    rw [hglyphs, readOperand, opening_word hword.1 hword.2.1 rfl]
    simp [hword.2.2.1, hword.2.2.2, hfunction, hargs, Expr.byName]

/-- **Keys are read back**, each with its direction. -/
def KeysReadBack (ps : List Piece) (keys : List (Expr × Direction)) : Prop :=
  ∀ gs, opensWith [] gs = true → Reads (readKeys · (glyphs ps ++ gs)) (keys, gs)

theorem readDirection_pieces (direction : Direction) {gs : List Glyph}
    (h : strip " Desc" gs = none) :
    readDirection (glyphs direction.pieces ++ gs) = (direction, gs) := by
  cases direction with
  | asc => simp [Direction.pieces, readDirection, h]
  | desc => simp [Direction.pieces, readDirection]

theorem ends_direction (direction : Direction) {gs : List Glyph} (h : ends gs = true) :
    ends (glyphs direction.pieces ++ gs) = true := by
  cases direction with
  | asc => exact h
  | desc => rfl

theorem KeysReadBack.last {e : Expr} (h : e.ReadsBack) (direction : Direction) :
    KeysReadBack (e.pieces ++ direction.pieces) [(e.byName, direction)] := by
  intro gs hgs
  have hends := ends_direction direction (ends_of_opensWith (by decide) hgs)
  have hdesc : strip " Desc" gs = none := strip_of_opensWith hgs rfl (by decide)
  refine .succ ?_
  filter_upwards [h.alone hends] with n hread
  rw [glyphs_append, List.append_assoc, readKeys, hread]
  simp [readDirection_pieces direction hdesc, strip_comma_of_opensWith hgs]

theorem KeysReadBack.cons {e : Expr} {ps : List Piece} {keys : List (Expr × Direction)}
    (h : e.ReadsBack) (direction : Direction) (hrest : KeysReadBack ps keys) :
    KeysReadBack (e.pieces ++ direction.pieces ++ .text ", " :: ps) ((e.byName, direction) :: keys) := by
  intro gs hgs
  have hends : ends (spell ", " ++ (glyphs ps ++ gs)) = true := rfl
  have hdesc : strip " Desc" (spell ", " ++ (glyphs ps ++ gs)) = none := rfl
  have hglyphs : glyphs (e.pieces ++ direction.pieces ++ .text ", " :: ps) ++ gs
      = glyphs e.pieces ++ (glyphs direction.pieces ++ (spell ", " ++ (glyphs ps ++ gs))) := by simp
  refine .succ ?_
  filter_upwards [h.alone (ends_direction direction hends), hrest gs hgs] with n hread hrest
  rw [hglyphs, readKeys, hread]
  simp [readDirection_pieces direction hdesc, hrest]

/-! ## 5. Clauses are read back -/

/-- What is selected from is read back. -/
def From.ReadsBack (f : From) : Prop :=
  ∀ gs, opensWith ['I', 'C', 'W', 'O'] gs = true →
    Reads (readSource · (glyphs f.pieces ++ gs)) (some f.byName, gs)

theorem From.ReadsBack.table {ref : TableRef} (href : ref.isReadable = true) {label : Option String}
    (hlabel : label.all isIdentifier = true) : (From.table ref label).ReadsBack := by
  intro gs hgs
  have hends := ends_of_opensWith (by decide) hgs
  have has : strip " AS " gs = none := strip_of_opensWith hgs rfl (by decide)
  have hstops := stops_of_ends (ends_alias label hends)
  have hname := readWord_identifier href hstops
  have hselect : ∀ gs, strip "(SELECT" (spell ref.text ++ gs) = none :=
    strip_identifier href rfl (by decide)
  refine .of_succ fun n => ?_
  simp only [From.pieces, glyphs_text, List.append_assoc]
  rw [readSource, strip_spell]
  simp [hselect, hname, readLabel_alias hlabel (stops_of_ends hends) has, From.byName,
    TableRef.byName]

theorem From.ReadsBack.derived {s : Select} (h : s.ReadsBack) {label : String}
    (hlabel : isIdentifier label = true) : (From.derived s label).ReadsBack := by
  intro gs hgs
  have hstops := stops_of_ends (ends_of_opensWith (by decide) hgs)
  obtain ⟨body, hbody, hread⟩ := h (spell ")" ++ (spell " AS " ++ (spell label ++ gs))) rfl
  have hglyphs : glyphs (From.derived s label).pieces ++ gs
      = spell " FROM " ++ (spell "(" ++ (spell "SELECT " ++ body)) := by
    rw [← hbody]
    simp [From.pieces, aliasPieces]
    rfl
  have hselect : strip "(SELECT" (spell "(" ++ (spell "SELECT " ++ body)) = some (spell " " ++ body) :=
    rfl
  have has : strip ") AS " (spell ")" ++ (spell " AS " ++ (spell label ++ gs)))
      = some (spell label ++ gs) := rfl
  refine .succ ?_
  filter_upwards [hread] with n hread
  rw [hglyphs, readSource, strip_spell]
  simp [hselect, hread, has, readWord_identifier hlabel hstops, From.byName]

/-- Joins are read back. -/
def JoinsReadBack (joins : List Join) : Prop :=
  ∀ gs, opensWith ['W', 'O'] gs = true →
    Reads (readJoins · (glyphs (Join.listPieces joins) ++ gs)) (Join.listByName joins, gs)

theorem opensWith_joins (joins : List Join) {gs : List Glyph} (h : opensWith ['W', 'O'] gs = true) :
    opensWith ['I', 'C', 'W', 'O'] (glyphs (Join.listPieces joins) ++ gs) = true := by
  cases joins with
  | nil => exact opensWith_mono (by decide) h
  | cons j rest => cases j <;> rfl

namespace JoinsReadBack

variable {rest : List Join}

theorem nil : JoinsReadBack [] := by
  intro gs hgs
  have hinner : strip " INNER JOIN " gs = none := strip_of_opensWith hgs rfl (by decide)
  have hcross : strip " CROSS JOIN (SELECT" gs = none := strip_of_opensWith hgs rfl (by decide)
  refine .of_succ fun n => ?_
  simp only [Join.listPieces, glyphs_nil, List.nil_append]
  rw [readJoins, hinner]
  simp [hcross, Join.listByName]

theorem inner {ref : TableRef} {left right : Expr} (href : ref.isReadable = true)
    (hl : left.ReadsBack) (hr : right.ReadsBack) (hrest : JoinsReadBack rest) :
    JoinsReadBack (.inner ref left right :: rest) := by
  intro gs hgs
  have hon : ∀ gs, readWord (spell ref.text ++ (spell " ON " ++ gs)) = (ref.text, spell " ON " ++ gs) :=
    fun gs => readWord_identifier href rfl
  have hequal : ends (spell " = " ++ (glyphs right.pieces ++ (glyphs (Join.listPieces rest) ++ gs)))
      = true := rfl
  have hends : ends (glyphs (Join.listPieces rest) ++ gs) = true :=
    ends_of_opensWith (by decide) (opensWith_joins rest hgs)
  refine .succ ?_
  filter_upwards [hl.alone hequal, hr.alone hends, hrest gs hgs] with n hleft hright hrest
  simp only [Join.listPieces, Join.pieces, glyphs_append, glyphs_text, List.cons_append,
    List.append_assoc]
  rw [readJoins, strip_spell]
  simp [hon, hleft, hright, hrest, Join.listByName, Join.byName, TableRef.byName]

theorem cross {s : Select} {label : String} (h : s.ReadsBack) (hlabel : isIdentifier label = true)
    (hrest : JoinsReadBack rest) : JoinsReadBack (.cross s label :: rest) := by
  intro gs hgs
  let after := glyphs (Join.listPieces rest) ++ gs
  have hstops : stops after = true :=
    stops_of_ends (ends_of_opensWith (by decide) (opensWith_joins rest hgs))
  obtain ⟨body, hbody, hread⟩ := h (spell ")" ++ (spell " AS " ++ (spell label ++ after))) rfl
  have hglyphs : glyphs (Join.listPieces (.cross s label :: rest)) ++ gs
      = spell " CROSS JOIN (" ++ (spell "SELECT " ++ body) := by
    rw [← hbody]
    simp [Join.listPieces, Join.pieces, aliasPieces, after]
  have hinner : strip " INNER JOIN " (spell " CROSS JOIN (" ++ (spell "SELECT " ++ body)) = none := rfl
  have hcross : strip " CROSS JOIN (SELECT" (spell " CROSS JOIN (" ++ (spell "SELECT " ++ body))
      = some (spell " " ++ body) := rfl
  have has : strip ") AS " (spell ")" ++ (spell " AS " ++ (spell label ++ after)))
      = some (spell label ++ after) := rfl
  refine .succ ?_
  filter_upwards [hread, hrest gs hgs] with n hread hrest
  rw [hglyphs, readJoins, hinner]
  simp [hcross, hread, has, readWord_identifier hlabel hstops, hrest, after, Join.listByName,
    Join.byName]

end JoinsReadBack

/-- The glyphs of a filter, if it is written. -/
theorem readFilter_pieces {filter : Expr} (h : filter.ReadsBack) {gs : List Glyph}
    (hgs : opensWith ['O'] gs = true) :
    Reads (readFilter · (glyphs (filter.wherePieces filter.pieces) ++ gs)) (filter.byName, gs) := by
  unfold Expr.wherePieces
  split
  · rename_i halways
    have hwhere : strip " WHERE " gs = none := strip_of_opensWith hgs rfl (by decide)
    obtain rfl : filter = .always := by
      unfold Expr.isAlways at halways
      split at halways
      · rfl
      · cases halways
    refine .of_succ fun n => ?_
    rw [glyphs_nil, List.nil_append, readFilter, hwhere]
    rfl
  · refine .succ ?_
    filter_upwards [h.alone (ends_of_opensWith (by decide) hgs)] with n hread
    rw [glyphs_text, List.append_assoc, readFilter, strip_spell]
    exact hread

theorem readOrder_pieces {keys : List (Expr × Direction)}
    (h : keys ≠ [] → KeysReadBack (Expr.orderPieces keys) (Expr.orderByName keys)) {gs : List Glyph}
    (hgs : opensWith [] gs = true) :
    Reads (readOrder ·
        (glyphs (if keys.isEmpty then [] else .text " ORDER BY " :: Expr.orderPieces keys) ++ gs))
      (Expr.orderByName keys, gs) := by
  cases keys with
  | nil =>
    have horder : strip " ORDER BY " gs = none := strip_of_opensWith hgs rfl (by decide)
    refine .of_succ fun n => ?_
    simp only [List.isEmpty_nil, if_true, glyphs_nil, List.nil_append]
    rw [readOrder, horder]
    rfl
  | cons key rest =>
    refine .succ ?_
    filter_upwards [h (List.cons_ne_nil _ _) gs hgs] with n hread
    simp only [List.isEmpty_cons, Bool.false_eq_true, if_false, glyphs_text, List.append_assoc]
    rw [readOrder, strip_spell]
    exact hread

/-- A select list is read back from its items. -/
def SelectList.ReadsBack (list : SelectList) : Prop :=
  ∃ items, ItemsReadBack list.pieces items ∧ SelectList.ofItems items = list.byName

/-- **A selection is read back clause by clause.**  Every clause but the select list may be absent, and
the letter after the blank says which comes next. -/
theorem Select.ReadsBack.ofClauses {list : SelectList} {source : Option From} {joins : List Join}
    {filter : Expr} {orderBy : List (Expr × Direction)} (hlist : list.ReadsBack)
    (hsource : ∀ f, source = some f → f.ReadsBack) (hjoins : JoinsReadBack joins)
    (hfilter : filter.ReadsBack)
    (horder : orderBy ≠ [] → KeysReadBack (Expr.orderPieces orderBy) (Expr.orderByName orderBy)) :
    Select.ReadsBack ⟨list, source, joins, filter, orderBy⟩ := by
  intro gs hgs
  obtain ⟨items, hitems, hlist⟩ := hlist
  let afterFilter :=
    glyphs (if orderBy.isEmpty then [] else .text " ORDER BY " :: Expr.orderPieces orderBy) ++ gs
  let afterJoins := glyphs (filter.wherePieces filter.pieces) ++ afterFilter
  let afterSource := glyphs (Join.listPieces joins) ++ afterJoins
  have hfilterLetter : opensWith ['O'] afterFilter = true := by
    cases orderBy with
    | nil => exact opensWith_mono (by decide) hgs
    | cons key rest => rfl
  have hjoinsLetter : opensWith ['W', 'O'] afterJoins = true := by
    by_cases halways : filter.isAlways = true
    · simp only [afterJoins, Expr.wherePieces, halways, if_true, glyphs_nil, List.nil_append]
      exact opensWith_mono (by decide) hfilterLetter
    · simp only [afterJoins, Expr.wherePieces, halways]
      rfl
  have hsourceLetter : opensWith ['I', 'C', 'W', 'O'] afterSource = true :=
    opensWith_joins joins hjoinsLetter
  have hjoinsRead : Reads (readJoins · afterSource) (Join.listByName joins, afterJoins) :=
    hjoins afterJoins hjoinsLetter
  have hfilterRead : Reads (readFilter · afterJoins) (filter.byName, afterFilter) :=
    readFilter_pieces hfilter hfilterLetter
  have horderRead : Reads (readOrder · afterFilter) (Expr.orderByName orderBy, gs) :=
    readOrder_pieces horder hgs
  cases source with
  | none =>
    have hsourceRead : Reads (readSource · afterSource) (none, afterSource) := by
      have hfrom : strip " FROM " afterSource = none := strip_of_opensWith hsourceLetter rfl (by decide)
      exact .of_succ fun n => by rw [readSource, hfrom]
    have hitemsRead := hitems.read afterSource (opensWith_mono (by decide) hsourceLetter)
    refine ⟨glyphs list.pieces ++ afterSource, ?_, ?_⟩
    · simp only [Select.pieces, glyphs_append, glyphs_text, List.cons_append, List.append_assoc,
        List.nil_append, afterSource, afterJoins, afterFilter]
    · refine .succ ?_
      filter_upwards [hitemsRead, hsourceRead, hjoinsRead, hfilterRead, horderRead]
        with n hitemsRead hsourceRead hjoinsRead hfilterRead horderRead
      rw [readSelect, strip_spell]
      simp only [Option.bind_eq_bind, Option.bind_some, hitemsRead, hsourceRead, hjoinsRead,
        hfilterRead, horderRead, hlist]
      rfl
  | some f =>
    have hsourceRead := hsource f rfl afterSource hsourceLetter
    have hopens : opensWith clauseLetters (glyphs f.pieces ++ afterSource) = true := by
      cases f <;> rfl
    have hitemsRead := hitems.read _ hopens
    refine ⟨glyphs list.pieces ++ (glyphs f.pieces ++ afterSource), ?_, ?_⟩
    · simp only [Select.pieces, glyphs_append, glyphs_text, List.cons_append, List.append_assoc,
        afterSource, afterJoins, afterFilter]
    · refine .succ ?_
      filter_upwards [hitemsRead, hsourceRead, hjoinsRead, hfilterRead, horderRead]
        with n hitemsRead hsourceRead hjoinsRead hfilterRead horderRead
      rw [readSelect, strip_spell]
      simp only [Option.bind_eq_bind, Option.bind_some, hitemsRead, hsourceRead, hjoinsRead,
        hfilterRead, horderRead, hlist]
      rfl

end ChainQuery.Sql
