import ChainQuery.Proofs.Sql.Reader
/-!
# Readable statements

A statement is readable if its names can be told from everything else that is written: they are
identifiers, and none of the words that statements are made of; the tokens of its operators are those
of operators; and its select lists are not empty (`Select.isReadable`).

The text of a statement does not say whether a table is referred to by its name or by an alias of the
same spelling.  `Select.byName` forgets the difference.
-/

namespace ChainQuery.Sql

/-! ## 1. Readable statements -/

/-- The words that statements are made of. -/
def keywords : List String :=
  ["SELECT", "FROM", "AS", "INNER", "CROSS", "JOIN", "ON", "WHERE", "ORDER", "BY", "Desc", "AND", "OR",
    "NOT", "IS", "NULL", "LIKE", "CASE", "WHEN", "THEN", "ELSE", "END", "TRUE", "FALSE", "Count", "Sum",
    "Min", "Max", "Avg", "Upper", "Lower", "Substring"]

/-- The tokens of operators. -/
def operators : List String := ["=", "<>", "<", "<=", ">", ">=", "+", "-", "*", "/", "\\", "%"]

/-- Whether a name is a letter followed by letters, digits and underscores, and no keyword. -/
def isIdentifier (name : String) : Bool :=
  (name.toList.head?.any fun c => c.isAlpha || 128 ≤ c.toNat) && name.toList.all isWordChar
    && !keywords.contains name

/-- The name of a table. -/
def TableRef.isReadable (ref : TableRef) : Bool := isIdentifier ref.text

/-- The names of a column. -/
def ColumnRef.isReadable : ColumnRef → Bool
  | qualified table name => table.isReadable && isIdentifier name
  | bare name => isIdentifier name

mutual
/-- Whether the names of an expression are identifiers, its tokens those of operators, and its select
lists not empty. -/
def Expr.isReadable : Expr → Bool
  | .and left right => left.isReadable && right.isReadable
  | .or left right => left.isReadable && right.isReadable
  | .not operand => operand.isReadable
  | .negate operand => operand.isReadable
  | .op left token right => left.isReadable && operators.contains token && right.isReadable
  | .isNull operand => operand.isReadable
  | .isNotNull operand => operand.isReadable
  | .call _ args => Expr.listIsReadable args
  | .like subject pattern _ => subject.isReadable && pattern.isReadable
  | .case test ifTrue ifFalse => test.isReadable && ifTrue.isReadable && ifFalse.isReadable
  | .column ref => ref.isReadable
  | .param _ => true
  | .null => true
  | .bool _ => true
  | .countAll => true
  | .subselect select => select.isReadable

/-- Whether expressions are readable. -/
def Expr.listIsReadable : List Expr → Bool
  | [] => true
  | e :: rest => e.isReadable && Expr.listIsReadable rest

/-- Whether expressions and their aliases are readable. -/
def Expr.aliasedIsReadable : List (String × Expr) → Bool
  | [] => true
  | (label, e) :: rest => isIdentifier label && e.isReadable && Expr.aliasedIsReadable rest

/-- Whether keys are readable. -/
def Expr.orderIsReadable : List (Expr × Direction) → Bool
  | [] => true
  | (e, _) :: rest => e.isReadable && Expr.orderIsReadable rest

/-- Whether a select list is readable and has an item. -/
def SelectList.isReadable : SelectList → Bool
  | .plain items => !items.isEmpty && Expr.listIsReadable items
  | .aliased items => !items.isEmpty && Expr.aliasedIsReadable items

/-- Whether what is selected from is readable. -/
def From.isReadable : From → Bool
  | .table ref label => ref.isReadable && label.all isIdentifier
  | .derived select label => select.isReadable && isIdentifier label

/-- Whether a join is readable. -/
def Join.isReadable : Join → Bool
  | .inner ref left right => ref.isReadable && left.isReadable && right.isReadable
  | .cross select label => select.isReadable && isIdentifier label

/-- Whether joins are readable. -/
def Join.listIsReadable : List Join → Bool
  | [] => true
  | j :: rest => j.isReadable && Join.listIsReadable rest

/-- **Whether a selection is readable**: its names, in all its parts, are identifiers, its tokens
those of operators, and its select lists not empty. -/
def Select.isReadable : Select → Bool
  | ⟨list, source, joins, filter, orderBy⟩ =>
    list.isReadable
      && (match source with
        | none => true
        | some f => f.isReadable)
      && Join.listIsReadable joins && filter.isReadable && Expr.orderIsReadable orderBy
end

/-! ## 2. Tables by their names -/

/-- A table by the name that it goes by. -/
def TableRef.byName (ref : TableRef) : TableRef := .table ref.text

/-- A column, with its table by name. -/
def ColumnRef.byName : ColumnRef → ColumnRef
  | qualified table name => .qualified table.byName name
  | bare name => .bare name

mutual
/-- An expression, with all tables by name. -/
def Expr.byName : Expr → Expr
  | .and left right => .and left.byName right.byName
  | .or left right => .or left.byName right.byName
  | .not operand => .not operand.byName
  | .negate operand => .negate operand.byName
  | .op left token right => .op left.byName token right.byName
  | .isNull operand => .isNull operand.byName
  | .isNotNull operand => .isNotNull operand.byName
  | .call function args => .call function (Expr.listByName args)
  | .like subject pattern wildcards => .like subject.byName pattern.byName wildcards
  | .case test ifTrue ifFalse => .case test.byName ifTrue.byName ifFalse.byName
  | .column ref => .column ref.byName
  | .param value => .param value
  | .null => .null
  | .bool value => .bool value
  | .countAll => .countAll
  | .subselect select => .subselect select.byName

/-- Expressions, with all tables by name. -/
def Expr.listByName : List Expr → List Expr
  | [] => []
  | e :: rest => e.byName :: Expr.listByName rest

/-- Expressions with their aliases, with all tables by name. -/
def Expr.aliasedByName : List (String × Expr) → List (String × Expr)
  | [] => []
  | (label, e) :: rest => (label, e.byName) :: Expr.aliasedByName rest

/-- Keys, with all tables by name. -/
def Expr.orderByName : List (Expr × Direction) → List (Expr × Direction)
  | [] => []
  | (e, direction) :: rest => (e.byName, direction) :: Expr.orderByName rest

/-- A select list, with all tables by name. -/
def SelectList.byName : SelectList → SelectList
  | .plain items => .plain (Expr.listByName items)
  | .aliased items => .aliased (Expr.aliasedByName items)

/-- What is selected from, with all tables by name. -/
def From.byName : From → From
  | .table ref label => .table ref.byName label
  | .derived select label => .derived select.byName label

/-- A join, with all tables by name. -/
def Join.byName : Join → Join
  | .inner ref left right => .inner ref.byName left.byName right.byName
  | .cross select label => .cross select.byName label

/-- Joins, with all tables by name. -/
def Join.listByName : List Join → List Join
  | [] => []
  | j :: rest => j.byName :: Join.listByName rest

/-- **A selection, with all tables by name.** -/
def Select.byName : Select → Select
  | ⟨list, source, joins, filter, orderBy⟩ =>
    ⟨list.byName,
      match source with
      | none => none
      | some f => some f.byName,
      Join.listByName joins, filter.byName, Expr.orderByName orderBy⟩
end

/-! ## 3. Identifiers -/

section Identifiers

variable {name : String} (h : isIdentifier name = true)
include h

theorem all_isWordChar_of_isIdentifier : name.toList.all isWordChar = true := by
  simp only [isIdentifier, Bool.and_eq_true] at h
  exact h.1.2

theorem ne_keyword_of_isIdentifier {word : String} (hword : keywords.contains word = true) :
    name ≠ word := by
  rintro rfl
  simp only [isIdentifier, hword, Bool.and_eq_true] at h
  simp at h

theorem toList_ne_nil_of_isIdentifier : name.toList ≠ [] := by
  intro hnil
  simp [isIdentifier, hnil] at h

end Identifiers

/-! ## 4. No name holds the sign of a placeholder -/

/-- Whether a leaf is no name with an `@` in it. -/
def Leaf.isClean : Leaf → Bool
  | name text => !text.toList.contains '@'
  | param _ => true

theorem isClean_of_isIdentifier {name : String} (h : isIdentifier name = true) :
    (Leaf.name name).isClean = true := by
  have hall := List.all_eq_true.mp (all_isWordChar_of_isIdentifier h)
  have hat : '@' ∉ name.toList := fun hm => absurd (hall '@' hm) (by decide)
  simpa [Leaf.isClean] using hat

theorem isClean_of_mem_operators {token : String} (h : operators.contains token = true) :
    (Leaf.name token).isClean = true := by
  have hall : ∀ token ∈ operators, (Leaf.name token).isClean = true := by decide
  exact hall token (List.contains_iff_mem.mp h)

theorem TableRef.clean {ref : TableRef} (h : ref.isReadable = true) :
    ref.leaves.all Leaf.isClean = true := by
  have hname := isClean_of_isIdentifier h
  cases ref <;> simpa [TableRef.leaves, TableRef.text] using hname

theorem ColumnRef.clean {ref : ColumnRef} (h : ref.isReadable = true) :
    ref.leaves.all Leaf.isClean = true := by
  cases ref with
  | bare name => simpa [ColumnRef.leaves] using isClean_of_isIdentifier h
  | qualified table name =>
    simp only [ColumnRef.isReadable, Bool.and_eq_true] at h
    simp [ColumnRef.leaves, TableRef.clean h.1, isClean_of_isIdentifier h.2]

mutual
/-- **No name in a readable expression has an `@` in it.** -/
theorem Expr.clean : ∀ e : Expr, e.isReadable = true → e.leaves.all Leaf.isClean = true
  | .and left right, h => by
    simp only [Expr.isReadable, Bool.and_eq_true] at h
    simp [Expr.leaves, left.clean h.1, right.clean h.2]
  | .or left right, h => by
    simp only [Expr.isReadable, Bool.and_eq_true] at h
    simp [Expr.leaves, left.clean h.1, right.clean h.2]
  | .not operand, h => operand.clean h
  | .negate operand, h => operand.clean h
  | .op left token right, h => by
    simp only [Expr.isReadable, Bool.and_eq_true] at h
    simp [Expr.leaves, left.clean h.1.1, isClean_of_mem_operators h.1.2, right.clean h.2]
  | .isNull operand, h => operand.clean h
  | .isNotNull operand, h => operand.clean h
  | .call _ args, h => Expr.listClean args h
  | .like subject pattern _, h => by
    simp only [Expr.isReadable, Bool.and_eq_true] at h
    simp [Expr.leaves, subject.clean h.1, pattern.clean h.2]
  | .case test ifTrue ifFalse, h => by
    simp only [Expr.isReadable, Bool.and_eq_true] at h
    simp [Expr.leaves, test.clean h.1.1, ifTrue.clean h.1.2, ifFalse.clean h.2]
  | .column ref, h => ref.clean h
  | .param _, _ => rfl
  | .null, _ => rfl
  | .bool _, _ => rfl
  | .countAll, _ => rfl
  | .subselect select, h => select.clean h

theorem Expr.listClean : ∀ es : List Expr, Expr.listIsReadable es = true →
    (Expr.listLeaves es).all Leaf.isClean = true
  | [], _ => rfl
  | e :: rest, h => by
    simp only [Expr.listIsReadable, Bool.and_eq_true] at h
    simp [Expr.listLeaves, e.clean h.1, Expr.listClean rest h.2]

theorem Expr.aliasedClean : ∀ es : List (String × Expr), Expr.aliasedIsReadable es = true →
    (Expr.aliasedLeaves es).all Leaf.isClean = true
  | [], _ => rfl
  | (label, e) :: rest, h => by
    simp only [Expr.aliasedIsReadable, Bool.and_eq_true] at h
    simp [Expr.aliasedLeaves, isClean_of_isIdentifier h.1.1, e.clean h.1.2,
      Expr.aliasedClean rest h.2]

theorem Expr.orderClean : ∀ keys : List (Expr × Direction), Expr.orderIsReadable keys = true →
    (Expr.orderLeaves keys).all Leaf.isClean = true
  | [], _ => rfl
  | (e, _) :: rest, h => by
    simp only [Expr.orderIsReadable, Bool.and_eq_true] at h
    simp [Expr.orderLeaves, e.clean h.1, Expr.orderClean rest h.2]

theorem SelectList.clean : ∀ list : SelectList, list.isReadable = true →
    list.leaves.all Leaf.isClean = true
  | .plain items, h => by
    simp only [SelectList.isReadable, Bool.and_eq_true] at h
    exact Expr.listClean items h.2
  | .aliased items, h => by
    simp only [SelectList.isReadable, Bool.and_eq_true] at h
    exact Expr.aliasedClean items h.2

theorem From.clean : ∀ f : From, f.isReadable = true → f.leaves.all Leaf.isClean = true
  | .table ref none, h => by
    simp only [From.isReadable, Bool.and_eq_true] at h
    simp [From.leaves, ref.clean h.1]
  | .table ref (some label), h => by
    simp only [From.isReadable, Bool.and_eq_true, Option.all_some] at h
    simp [From.leaves, ref.clean h.1, isClean_of_isIdentifier h.2]
  | .derived select label, h => by
    simp only [From.isReadable, Bool.and_eq_true] at h
    simp [From.leaves, select.clean h.1, isClean_of_isIdentifier h.2]

theorem Join.clean : ∀ j : Join, j.isReadable = true → j.leaves.all Leaf.isClean = true
  | .inner ref left right, h => by
    simp only [Join.isReadable, Bool.and_eq_true] at h
    simp [Join.leaves, ref.clean h.1.1, left.clean h.1.2, right.clean h.2]
  | .cross select label, h => by
    simp only [Join.isReadable, Bool.and_eq_true] at h
    simp [Join.leaves, select.clean h.1, isClean_of_isIdentifier h.2]

theorem Join.listClean : ∀ joins : List Join, Join.listIsReadable joins = true →
    (Join.listLeaves joins).all Leaf.isClean = true
  | [], _ => rfl
  | j :: rest, h => by
    simp only [Join.listIsReadable, Bool.and_eq_true] at h
    simp [Join.listLeaves, j.clean h.1, Join.listClean rest h.2]

theorem Select.clean : ∀ s : Select, s.isReadable = true → s.leaves.all Leaf.isClean = true
  | ⟨list, none, joins, filter, orderBy⟩, h => by
    simp only [Select.isReadable, Bool.and_eq_true] at h
    simp [Select.leaves, list.clean h.1.1.1.1, Join.listClean joins h.1.1.2, filter.clean h.1.2,
      Expr.orderClean orderBy h.2]
  | ⟨list, some source, joins, filter, orderBy⟩, h => by
    simp only [Select.isReadable, Bool.and_eq_true] at h
    simp [Select.leaves, list.clean h.1.1.1.1, source.clean h.1.1.1.2, Join.listClean joins h.1.1.2,
      filter.clean h.1.2, Expr.orderClean orderBy h.2]
end

end ChainQuery.Sql
