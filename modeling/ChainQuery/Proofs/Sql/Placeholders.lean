import ChainQuery.Sql.Text
/-!
# Placeholders and parameters are aligned

A statement is handed to the database as a text with placeholders and a list of parameters, and
placeholder `@n` must stand for parameter number `n`.  `Buffer.append_aligned` says so of every
statement and every buffer whose counter is right: writing appends text and parameters and keeps the
counter right; the parameters are those of the statement in the order of writing; and a reader who
scans the appended text for `@` and takes all digits after each finds the numbers of the appended
parameters, in order, and nothing else.

The last point is lexical.  It fails if a name contains `@`, which is therefore excluded, and it
would fail if a digit could follow a placeholder: `@1` before `2` reads as `@12`.  So the proof
keeps track of the first character of what is written next (`firstChar?`), and shows of every
expression that no parameter in it is followed by a digit (`Separated`).
-/

namespace ChainQuery.Sql

/-! ## 1. The parameters and the names of a statement -/

/-- What a statement holds of its own at its leaves: names, which go into the text as they are (of
tables, columns and aliases, and the tokens of operators), and parameters. -/
inductive Leaf where
  | name (text : String)
  | param (value : Param)

/-- A leaf that is a name. -/
def Leaf.name? : Leaf → Option String
  | name text => some text
  | param _ => none

/-- A leaf that is a parameter. -/
def Leaf.param? : Leaf → Option Param
  | name _ => none
  | param value => some value

/-- The name of a table. -/
def TableRef.leaves : TableRef → List Leaf
  | table name => [.name name]
  | aliased name => [.name name]

/-- The names of a column. -/
def ColumnRef.leaves : ColumnRef → List Leaf
  | qualified table name => table.leaves ++ [.name name]
  | bare name => [.name name]

mutual
/-- The leaves of an expression, in the order of writing. -/
def Expr.leaves : Expr → List Leaf
  | .and left right => left.leaves ++ right.leaves
  | .or left right => left.leaves ++ right.leaves
  | .not operand => operand.leaves
  | .negate operand => operand.leaves
  | .op left token right => left.leaves ++ .name token :: right.leaves
  | .isNull operand => operand.leaves
  | .isNotNull operand => operand.leaves
  | .call _ args => Expr.listLeaves args
  | .like subject pattern _ => subject.leaves ++ pattern.leaves
  | .case test ifTrue ifFalse => test.leaves ++ ifTrue.leaves ++ ifFalse.leaves
  | .column ref => ref.leaves
  | .param value => [.param value]
  | .null => []
  | .bool _ => []
  | .countAll => []
  | .subselect select => select.leaves

/-- The leaves of expressions. -/
def Expr.listLeaves : List Expr → List Leaf
  | [] => []
  | e :: rest => e.leaves ++ Expr.listLeaves rest

/-- The leaves of expressions with their aliases. -/
def Expr.aliasedLeaves : List (String × Expr) → List Leaf
  | [] => []
  | (label, e) :: rest => e.leaves ++ .name label :: Expr.aliasedLeaves rest

/-- The leaves of keys. -/
def Expr.orderLeaves : List (Expr × Direction) → List Leaf
  | [] => []
  | (e, _) :: rest => e.leaves ++ Expr.orderLeaves rest

/-- The leaves of a select list. -/
def SelectList.leaves : SelectList → List Leaf
  | .plain items => Expr.listLeaves items
  | .aliased items => Expr.aliasedLeaves items

/-- The leaves of what is selected from. -/
def From.leaves : From → List Leaf
  | .table ref label => ref.leaves ++ label.toList.map Leaf.name
  | .derived select label => select.leaves ++ [.name label]

/-- The leaves of a join. -/
def Join.leaves : Join → List Leaf
  | .inner ref left right => ref.leaves ++ left.leaves ++ right.leaves
  | .cross select label => select.leaves ++ [.name label]

/-- The leaves of joins. -/
def Join.listLeaves : List Join → List Leaf
  | [] => []
  | j :: rest => j.leaves ++ Join.listLeaves rest

/-- The leaves of a selection: the select list, what is selected from, the joins, the filter and the
keys. -/
def Select.leaves : Select → List Leaf
  | ⟨list, source, joins, filter, orderBy⟩ =>
    list.leaves
      ++ (match source with
        | none => []
        | some f => f.leaves)
      ++ Join.listLeaves joins ++ filter.leaves ++ Expr.orderLeaves orderBy
end

/-- **The parameters of a selection**, in the order of writing. -/
def Select.params (s : Select) : List Param := s.leaves.filterMap Leaf.param?

/-- The names in a selection. -/
def Select.names (s : Select) : List String := s.leaves.filterMap Leaf.name?

/-! ## 2. Reading placeholders -/

/-- **The placeholders in a text**: each `@` with all digits that follow it. -/
def placeholders : List Char → List String
  | [] => []
  | c :: rest =>
    if c = '@' then String.ofList ('@' :: rest.takeWhile Char.isDigit) :: placeholders rest
    else placeholders rest

/-- The placeholder of a number. -/
def placeholder (n : Nat) : String := "@" ++ Decimal.digitText n

theorem toList_digitText (n : Nat) : (Decimal.digitText n).toList = Nat.toDigits 10 n :=
  String.toList_ofList

theorem isDigit_of_mem_digitText {n : Nat} {c : Char} (h : c ∈ (Decimal.digitText n).toList) :
    c.isDigit = true := by
  rw [toList_digitText] at h
  exact Nat.isDigit_of_mem_toDigits (by decide) (by decide) h

/-- Text without `@` holds no placeholder. -/
theorem placeholders_append_of_not_mem {text : List Char} (h : '@' ∉ text) (rest : List Char) :
    placeholders (text ++ rest) = placeholders rest := by
  induction text with
  | nil => rfl
  | cons c text ih =>
    have hc : c ≠ '@' := fun e => h (e ▸ List.mem_cons_self)
    have htext : '@' ∉ text := fun hm => h (List.mem_cons_of_mem _ hm)
    rw [List.cons_append, placeholders, if_neg hc, ih htext]

/-- **A written placeholder is read back**, unless a digit follows it. -/
theorem placeholders_placeholder (n : Nat) {rest : List Char}
    (h : ∀ c ∈ rest.head?, c.isDigit = false) :
    placeholders ((placeholder n).toList ++ rest) = placeholder n :: placeholders rest := by
  have hdigits : ∀ c ∈ (Decimal.digitText n).toList, c.isDigit = true :=
    fun c hc => isDigit_of_mem_digitText hc
  have hrest : rest.takeWhile Char.isDigit = [] := by
    cases rest with
    | nil => rfl
    | cons c rest => simp [h c rfl]
  have hat : '@' ∉ (Decimal.digitText n).toList := fun hm => absurd (hdigits '@' hm) (by decide)
  have htoken : (placeholder n).toList = '@' :: (Decimal.digitText n).toList := by
    simp [placeholder]
  rw [htoken, List.cons_append, placeholders, if_pos rfl, List.takeWhile_append_of_pos hdigits,
    hrest, List.append_nil, ← htoken, String.ofList_toList, placeholders_append_of_not_mem hat]

/-! ## 3. What pieces write -/

/-- The parameters among pieces. -/
def Piece.param? : Piece → Option Param
  | text _ => none
  | param value => some value

/-- The text that pieces write when the next placeholder has a given number. -/
def written : Nat → List Piece → String
  | _, [] => ""
  | n, .text text :: rest => text ++ written n rest
  | n, .param _ :: rest => placeholder n ++ written (n + 1) rest

/-- **Appending only appends**: text, parameters, and one to the counter for each parameter. -/
theorem Buffer.append_eq (b : Buffer) (ps : List Piece) :
    b.append ps =
      { text := b.text ++ written b.index ps
        params := b.params ++ ps.filterMap Piece.param?
        index := b.index + (ps.filterMap Piece.param?).length } := by
  induction ps generalizing b with
  | nil => simp [append, written]
  | cons piece rest ih =>
    have hstep : b.append (piece :: rest) = (b.add piece).append rest := rfl
    rw [hstep, ih]
    cases piece with
    | text text =>
      simp [add, addText, written, List.filterMap_cons, Piece.param?, String.append_assoc]
    | param value =>
      simp [add, addParam, written, placeholder, Piece.param?, String.append_assoc, Nat.add_assoc,
        Nat.add_comm 1]

/-- The first character that pieces write.  A parameter writes `@` first. -/
def firstChar? : List Piece → Option Char
  | [] => none
  | .text text :: rest => text.toList.head?.or (firstChar? rest)
  | .param _ :: _ => some '@'

theorem head?_written (n : Nat) (ps : List Piece) :
    (written n ps).toList.head? = firstChar? ps := by
  induction ps with
  | nil => rfl
  | cons piece rest ih =>
    cases piece with
    | text text => simp [written, firstChar?, List.head?_append, ih]
    | param value => simp [written, firstChar?, placeholder]

/-- What pieces write does not begin with a digit. -/
def NoDigitFirst (ps : List Piece) : Prop := ∀ c ∈ firstChar? ps, c.isDigit = false

/-- No parameter among the pieces is followed by a digit. -/
def Separated : List Piece → Prop
  | [] => True
  | .text _ :: rest => Separated rest
  | .param _ :: rest => NoDigitFirst rest ∧ Separated rest

/-- **The placeholders of separated pieces** are those of their parameters, numbered in order. -/
theorem placeholders_written (n : Nat) {ps : List Piece} (hsep : Separated ps)
    (hclean : ∀ text, .text text ∈ ps → '@' ∉ text.toList) :
    placeholders (written n ps).toList =
      (List.range' n (ps.filterMap Piece.param?).length).map placeholder := by
  induction ps generalizing n with
  | nil => rfl
  | cons piece rest ih =>
    have hrest : ∀ text, .text text ∈ rest → '@' ∉ text.toList :=
      fun text hm => hclean text (List.mem_cons_of_mem _ hm)
    cases piece with
    | text text =>
      have htext : '@' ∉ text.toList := hclean text List.mem_cons_self
      rw [written, String.toList_append, placeholders_append_of_not_mem htext, ih n hsep hrest]
      rfl
    | param value =>
      obtain ⟨hdigit, hsep⟩ := hsep
      have hnext : ∀ c ∈ (written (n + 1) rest).toList.head?, c.isDigit = false := by
        rw [head?_written]
        exact hdigit
      rw [written, String.toList_append, placeholders_placeholder n hnext, ih (n + 1) hsep hrest]
      simp [Piece.param?, List.range'_succ]

/-! ## 4. Pieces of a statement -/

theorem firstChar?_append (xs ys : List Piece) :
    firstChar? (xs ++ ys) = (firstChar? xs).or (firstChar? ys) := by
  induction xs with
  | nil => rfl
  | cons piece rest ih =>
    cases piece with
    | text text => simp [firstChar?, ih, Option.or_assoc]
    | param value => rfl

theorem NoDigitFirst.nil : NoDigitFirst [] := by simp [NoDigitFirst, firstChar?]

/-- A text that begins with anything but a digit. -/
theorem NoDigitFirst.text {t : String} {ps : List Piece}
    (ht : (t.toList.head?.any fun c => !c.isDigit) = true) : NoDigitFirst (.text t :: ps) := by
  intro c hc
  cases hd : t.toList.head? with
  | none => simp [hd] at ht
  | some d =>
    have hcd : d = c := by simpa [firstChar?, hd] using hc
    subst hcd
    simpa [hd] using ht

theorem NoDigitFirst.append {xs ys : List Piece} (hx : NoDigitFirst xs) (hy : NoDigitFirst ys) :
    NoDigitFirst (xs ++ ys) := by
  intro c hc
  rw [firstChar?_append, Option.mem_def, Option.or_eq_some_iff] at hc
  rcases hc with hc | ⟨-, hc⟩
  · exact hx c hc
  · exact hy c hc

theorem Separated.append {xs ys : List Piece} (hx : Separated xs) (hy : Separated ys)
    (hdigit : NoDigitFirst ys) : Separated (xs ++ ys) := by
  induction xs with
  | nil => exact hy
  | cons piece rest ih =>
    cases piece with
    | text text => exact ih hx
    | param value => exact ⟨hx.1.append hdigit, ih hx.2⟩

/-- **Pieces spell leaves**: the parameters are those of the leaves, none is followed by a digit,
and an `@` in the text comes from a name. -/
structure Spells (ps : List Piece) (leaves : List Leaf) : Prop where
  params_eq : ps.filterMap Piece.param? = leaves.filterMap Leaf.param?
  separated : Separated ps
  clean : (∀ name, .name name ∈ leaves → '@' ∉ name.toList) →
    ∀ text, .text text ∈ ps → '@' ∉ text.toList

namespace Spells

variable {ps qs : List Piece} {leaves more : List Leaf}

theorem nil : Spells [] [] := ⟨rfl, trivial, by simp⟩

/-- Text that is not part of the statement's own leaves. -/
theorem text {t : String} (ht : '@' ∉ t.toList) (h : Spells ps leaves) :
    Spells (.text t :: ps) leaves where
  params_eq := by rw [List.filterMap_cons_none rfl, h.params_eq]
  separated := h.separated
  clean := by
    intro hnames text hm
    rcases List.mem_cons.mp hm with heq | hm
    · cases heq
      exact ht
    · exact h.clean hnames text hm

/-- A name. -/
theorem name {t : String} (h : Spells ps leaves) : Spells (.text t :: ps) (.name t :: leaves) where
  params_eq := by rw [List.filterMap_cons_none rfl, List.filterMap_cons_none rfl, h.params_eq]
  separated := h.separated
  clean := by
    intro hnames text hm
    rcases List.mem_cons.mp hm with heq | hm
    · cases heq
      exact hnames t List.mem_cons_self
    · exact h.clean (fun name hn => hnames name (List.mem_cons_of_mem _ hn)) text hm

/-- A parameter, which must not be followed by a digit. -/
theorem param {value : Param} (h : Spells ps leaves) (hdigit : NoDigitFirst ps) :
    Spells (.param value :: ps) (.param value :: leaves) where
  params_eq := by simp [Piece.param?, Leaf.param?, h.params_eq]
  separated := ⟨hdigit, h.separated⟩
  clean := by
    intro hnames text hm
    rcases List.mem_cons.mp hm with heq | hm
    · cases heq
    · exact h.clean (fun name hn => hnames name (List.mem_cons_of_mem _ hn)) text hm

/-- Pieces after pieces.  The first may end in a parameter. -/
theorem append (h : Spells ps leaves) (h' : Spells qs more) (hdigit : NoDigitFirst qs) :
    Spells (ps ++ qs) (leaves ++ more) where
  params_eq := by rw [List.filterMap_append, List.filterMap_append, h.params_eq, h'.params_eq]
  separated := h.separated.append h'.separated hdigit
  clean := by
    intro hnames text hm
    rcases List.mem_append.mp hm with hm | hm
    · exact h.clean (fun name hn => hnames name (List.mem_append_left _ hn)) text hm
    · exact h'.clean (fun name hn => hnames name (List.mem_append_right _ hn)) text hm

/-- Pieces before text that is not part of the statement's own leaves. -/
theorem followed (h : Spells ps leaves) (h' : Spells qs []) (hdigit : NoDigitFirst qs) :
    Spells (ps ++ qs) leaves := by
  simpa using h.append h' hdigit

/-- Pieces in front of a bracket, a comma or a keyword, and what comes after that. -/
theorem between (h : Spells ps leaves) {t : String} (hat : '@' ∉ t.toList)
    (hdigit : (t.toList.head?.any fun c => !c.isDigit) = true) (h' : Spells qs more) :
    Spells (ps ++ .text t :: qs) (leaves ++ more) :=
  h.append (text hat h') (.text hdigit)

/-- Pieces in front of a closing bracket. -/
theorem closed (h : Spells ps leaves) : Spells (ps ++ [.text ")"]) leaves :=
  h.followed (text (by decide) nil) (.text (by decide))

theorem table (ref : TableRef) (h : Spells ps leaves) :
    Spells (.text ref.text :: ps) (ref.leaves ++ leaves) := by
  cases ref with
  | table name => exact h.name
  | aliased name => exact h.name

theorem column (ref : ColumnRef) : Spells [.text ref.text] ref.leaves := by
  cases ref with
  | bare name => exact nil.name
  | qualified ref name =>
    have href : Spells [.text ref.text] ref.leaves := by simpa using nil.table ref
    refine ⟨?_, trivial, ?_⟩
    · cases ref <;> rfl
    · intro hnames text hm
      have htable : '@' ∉ ref.text.toList :=
        href.clean (fun n hn => hnames n (List.mem_append_left _ hn)) _ List.mem_cons_self
      have hname : '@' ∉ name.toList :=
        hnames name (List.mem_append_right _ List.mem_cons_self)
      cases List.mem_singleton.mp hm
      simp [ColumnRef.text, htable, hname]

/-- An alias after a table. -/
theorem label (label : Option String) :
    Spells (aliasPieces label) (label.toList.map Leaf.name) := by
  cases label with
  | none => exact nil
  | some label => exact text (by decide) nil.name

/-- A key with its direction. -/
theorem direction (h : Spells ps leaves) (direction : Direction) :
    Spells (ps ++ direction.pieces) leaves := by
  cases direction with
  | asc => simpa [Direction.pieces] using h
  | desc => exact h.followed (text (by decide) nil) (.text (by decide))

end Spells

theorem not_mem_function_text (f : Function) : '@' ∉ f.text.toList := by cases f <;> decide

theorem Expr.leaves_of_isAlways {e : Expr} (h : e.isAlways = true) : e.leaves = [] := by
  unfold isAlways at h
  split at h
  · rfl
  · cases h

theorem noDigitFirst_from (f : From) : NoDigitFirst f.pieces := by
  cases f <;> exact .text (by decide)

theorem noDigitFirst_joins (joins : List Join) : NoDigitFirst (Join.listPieces joins) := by
  cases joins with
  | nil => exact .nil
  | cons j rest => cases j <;> exact .text (by decide)

/-- The clauses of a selection, from the spellings of its parts.  Every clause but the select list
is absent or opens with a blank, so each may follow a parameter at the end of the one before. -/
theorem Spells.select {list source : List Piece} {listLeaves sourceLeaves : List Leaf}
    {joins : List Join} {filter : Expr} {orderBy : List (Expr × Direction)}
    (hlist : Spells list listLeaves) (hsource : Spells source sourceLeaves)
    (hfrom : NoDigitFirst source)
    (hjoins : Spells (Join.listPieces joins) (Join.listLeaves joins))
    (hfilter : Spells filter.pieces filter.leaves)
    (horder : Spells (Expr.orderPieces orderBy) (Expr.orderLeaves orderBy)) :
    Spells
      (.text "SELECT " :: list ++ source ++ Join.listPieces joins
        ++ filter.wherePieces filter.pieces
        ++ (if orderBy.isEmpty then [] else .text " ORDER BY " :: Expr.orderPieces orderBy))
      (listLeaves ++ sourceLeaves ++ Join.listLeaves joins ++ filter.leaves
        ++ Expr.orderLeaves orderBy) := by
  have hwhere : Spells (filter.wherePieces filter.pieces) filter.leaves := by
    unfold Expr.wherePieces
    split
    · rename_i hnone
      rw [Expr.leaves_of_isAlways hnone]
      exact .nil
    · exact hfilter.text (by decide)
  have hwhereDigit : NoDigitFirst (filter.wherePieces filter.pieces) := by
    unfold Expr.wherePieces
    split
    · exact .nil
    · exact .text (by decide)
  have hkeys : Spells
      (if orderBy.isEmpty then [] else .text " ORDER BY " :: Expr.orderPieces orderBy)
      (Expr.orderLeaves orderBy) := by
    cases orderBy with
    | nil => exact .nil
    | cons k rest => exact horder.text (by decide)
  have hkeysDigit : NoDigitFirst
      (if orderBy.isEmpty then [] else .text " ORDER BY " :: Expr.orderPieces orderBy) := by
    split
    · exact .nil
    · exact .text (by decide)
  simp only [List.cons_append]
  exact ((((hlist.append hsource hfrom).append hjoins (noDigitFirst_joins joins)).append hwhere
    hwhereDigit).append hkeys hkeysDigit).text (by decide)

mutual
/-- **The pieces of an expression spell its leaves.** -/
theorem Expr.spells : ∀ e : Expr, Spells e.pieces e.leaves
  | .and left right => by
    simp only [Expr.pieces, Expr.leaves, List.cons_append, List.append_assoc]
    exact (left.spells.between (by decide) (by decide) right.spells.closed).text (by decide)
  | .or left right => by
    simp only [Expr.pieces, Expr.leaves, List.cons_append, List.append_assoc]
    exact (left.spells.between (by decide) (by decide) right.spells.closed).text (by decide)
  | .not operand => by
    simp only [Expr.pieces, Expr.leaves, List.cons_append]
    exact operand.spells.closed.text (by decide)
  | .negate operand => by
    simp only [Expr.pieces, Expr.leaves, List.cons_append]
    exact operand.spells.closed.text (by decide)
  | .op left token right => by
    simp only [Expr.pieces, Expr.leaves, List.cons_append, List.append_assoc]
    have hright : Spells (.text token :: .text " " :: (right.pieces ++ [.text ")"]))
        (.name token :: right.leaves) := (right.spells.closed.text (by decide)).name
    exact (left.spells.between (by decide) (by decide) hright).text (by decide)
  | .isNull operand => by
    simp only [Expr.pieces, Expr.leaves, List.cons_append]
    exact (operand.spells.followed (.text (by decide) (.text (by decide) .nil))
      (.text (by decide))).text (by decide)
  | .isNotNull operand => by
    simp only [Expr.pieces, Expr.leaves, List.cons_append]
    exact (operand.spells.followed (.text (by decide) (.text (by decide) .nil))
      (.text (by decide))).text (by decide)
  | .call function args => by
    simp only [Expr.pieces, Expr.leaves, List.cons_append]
    exact ((Expr.listSpells args).closed.text (by decide)).text (not_mem_function_text function)
  | .like subject pattern wildcards => by
    simp only [Expr.pieces, Expr.leaves, List.cons_append, List.append_assoc]
    have hbefore : '@' ∉ wildcards.before.toList := by cases wildcards <;> decide
    have hafter : '@' ∉ wildcards.after.toList := by cases wildcards <;> decide
    have hend : NoDigitFirst [.text wildcards.after, .text ")"] := by
      cases wildcards <;> simp [NoDigitFirst, firstChar?, Wildcards.after]
    have hpattern : Spells (pattern.pieces ++ [.text wildcards.after, .text ")"]) pattern.leaves :=
      pattern.spells.followed (.text hafter (.text (by decide) .nil)) hend
    exact subject.spells.between (by decide) (by decide) (hpattern.text hbefore)
  | .case test ifTrue ifFalse => by
    simp only [Expr.pieces, Expr.leaves, List.cons_append, List.append_assoc]
    have hfalse : Spells (ifFalse.pieces ++ [.text " END"]) ifFalse.leaves :=
      ifFalse.spells.followed (.text (by decide) .nil) (.text (by decide))
    exact (test.spells.between (by decide) (by decide)
      (ifTrue.spells.between (by decide) (by decide) hfalse)).text (by decide)
  | .column ref => .column ref
  | .param _ => Spells.nil.param .nil
  | .null => .text (by decide) .nil
  | .bool value => .text (by cases value <;> decide) .nil
  | .countAll => .text (by decide) .nil
  | .subselect select => by
    simp only [Expr.pieces, Expr.leaves, List.cons_append]
    exact select.spells.closed.text (by decide)

theorem Expr.listSpells : ∀ es : List Expr, Spells (Expr.listPieces es) (Expr.listLeaves es)
  | [] => .nil
  | [e] => by simpa only [Expr.listPieces, Expr.listLeaves, List.append_nil] using e.spells
  | e :: f :: rest => by
    rw [Expr.listPieces, Expr.listLeaves]
    · exact e.spells.between (by decide) (by decide) (Expr.listSpells (f :: rest))
    · simp

theorem Expr.aliasedSpells :
    ∀ es : List (String × Expr), Spells (Expr.aliasedPieces es) (Expr.aliasedLeaves es)
  | [] => .nil
  | [(label, e)] => e.spells.between (by decide) (by decide) Spells.nil.name
  | (label, e) :: f :: rest => by
    rw [Expr.aliasedPieces, Expr.aliasedLeaves]
    · exact e.spells.between (by decide) (by decide)
        ((Expr.aliasedSpells (f :: rest)).text (by decide)).name
    · simp

theorem Expr.orderSpells :
    ∀ es : List (Expr × Direction), Spells (Expr.orderPieces es) (Expr.orderLeaves es)
  | [] => .nil
  | [(e, direction)] => by
    simp only [Expr.orderPieces, Expr.orderLeaves, List.append_nil]
    exact e.spells.direction direction
  | (e, direction) :: f :: rest => by
    rw [Expr.orderPieces, Expr.orderLeaves]
    · exact (e.spells.direction direction).between (by decide) (by decide)
        (Expr.orderSpells (f :: rest))
    · simp

theorem SelectList.spells : ∀ list : SelectList, Spells list.pieces list.leaves
  | .plain items => Expr.listSpells items
  | .aliased items => Expr.aliasedSpells items

theorem From.spells : ∀ f : From, Spells f.pieces f.leaves
  | .table ref label => ((Spells.label label).table ref).text (by decide)
  | .derived select label => by
    simp only [From.pieces, From.leaves, List.cons_append]
    exact (select.spells.between (by decide) (by decide) (.label (some label))).text (by decide)

theorem Join.spells : ∀ j : Join, Spells j.pieces j.leaves
  | .inner ref left right => by
    simp only [Join.pieces, Join.leaves, List.cons_append, List.append_assoc]
    exact (((left.spells.between (by decide) (by decide) right.spells).text (by decide)).table
      ref).text (by decide)
  | .cross select label => by
    simp only [Join.pieces, Join.leaves, List.cons_append]
    exact (select.spells.between (by decide) (by decide) (.label (some label))).text (by decide)

theorem Join.listSpells : ∀ js : List Join, Spells (Join.listPieces js) (Join.listLeaves js)
  | [] => .nil
  | j :: rest => j.spells.append (Join.listSpells rest) (noDigitFirst_joins rest)

theorem Select.spells : ∀ s : Select, Spells s.pieces s.leaves
  | ⟨list, none, joins, filter, orderBy⟩ =>
    .select list.spells .nil .nil (Join.listSpells joins) filter.spells (Expr.orderSpells orderBy)
  | ⟨list, some f, joins, filter, orderBy⟩ =>
    .select list.spells f.spells (noDigitFirst_from f) (Join.listSpells joins) filter.spells
      (Expr.orderSpells orderBy)
end

/-! ## 5. Alignment -/

/-- **Placeholders and parameters are aligned.**  Writing a selection to a buffer whose counter is
the number of its parameters appends text and the parameters of the selection in the order of
writing, and keeps the counter right.  If no name contains `@`, the placeholders in the appended
text, each `@` with all digits after it, are those of the appended parameters, in order. -/
theorem Buffer.append_aligned (b : Buffer) (hb : b.index = b.params.length) (s : Select) :
    ∃ text, (b.append s.pieces).text = b.text ++ text ∧
      (b.append s.pieces).params = b.params ++ s.params ∧
      (b.append s.pieces).index = (b.append s.pieces).params.length ∧
      ((∀ name ∈ s.names, '@' ∉ name.toList) →
        placeholders text.toList =
          (List.range' b.params.length s.params.length).map placeholder) := by
  have hparams : s.pieces.filterMap Piece.param? = s.params := s.spells.params_eq
  refine ⟨written b.index s.pieces, ?_, ?_, ?_, ?_⟩
  · rw [append_eq]
  · rw [append_eq, hparams]
  · rw [append_eq, hb, List.length_append]
  · intro hnames
    have hclean : ∀ name, .name name ∈ s.leaves → '@' ∉ name.toList :=
      fun name hn => hnames name (List.mem_filterMap.mpr ⟨_, hn, rfl⟩)
    rw [placeholders_written b.index s.spells.separated (s.spells.clean hclean), hparams, hb]

/-- The counter passes from one digit to two, a column named by a digit stands between the
parameters, and a parameter holds an `@` of its own. -/
theorem Buffer.append_aligned_sample :
    let b : Buffer := { text := "; ", params := List.replicate 9 (.bool true), index := 9 }
    let s : Select :=
      { list := .plain [.param (.int 1), .bareColumn "2"]
        source := some (.table (.table "Order") (some "t0"))
        joins := []
        filter := .op (.aliasedColumn "t0" "Name") "=" (.param (.string "@7"))
        orderBy := [] }
    b.index = b.params.length ∧ (∀ name ∈ s.names, '@' ∉ name.toList) ∧
      ∃ text, (b.append s.pieces).text = b.text ++ text ∧
        placeholders text.toList = ["@9", "@10"] := by
  intro b s
  have hnames : ∀ name ∈ s.names, '@' ∉ name.toList := by decide
  obtain ⟨text, htext, -, -, hplaceholders⟩ := append_aligned b rfl s
  have hnumbers : (List.range' 9 2).map placeholder = ["@9", "@10"] := by decide
  exact ⟨rfl, hnames, text, htext, (hplaceholders hnames).trans hnumbers⟩

end ChainQuery.Sql
