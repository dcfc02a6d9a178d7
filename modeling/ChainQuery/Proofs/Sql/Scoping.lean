import ChainQuery.Proofs.Sql.Nesting
/-!
# The scoping of statements

Which tables a qualified column may name (`Select.WellScoped`).  A selection exposes the names of
its tables and the aliases of its derived tables to its own expressions, next to what it sees from
outside.  A selection inside an expression sees whatever the expression sees.  A derived table sees
only what the selection around it sees from outside: its siblings are out of reach.

Being well scoped is monotone in what is seen (`Select.wellScoped_mono`), which is what lets a
column of an enclosing statement be used further inside.
-/

namespace ChainQuery.Sql

/-! ## 1. Exposed names -/

/-- The name by which the columns of what is selected from are qualified. -/
def From.exposed : From → TableRef
  | .table ref none => ref
  | .table _ (some label) => .aliased label
  | .derived _ label => .aliased label

/-- The name by which the columns of what is joined are qualified. -/
def Join.exposed : Join → TableRef
  | .inner ref _ _ => ref
  | .cross _ label => .aliased label

/-- **The names that a selection exposes**: that of its source and those of its joins. -/
def exposed (source : Option From) (joins : List Join) : List TableRef :=
  source.toList.map From.exposed ++ joins.map Join.exposed

/-! ## 2. Well-scoped statements -/

/-- A column names a visible table.  An unqualified one names none. -/
def ColumnRef.WellScoped (visible : List TableRef) : ColumnRef → Prop
  | qualified table _ => table ∈ visible
  | bare _ => True

mutual
/-- Every qualified column of an expression names a visible table, or one that a selection between
exposes. -/
def Expr.WellScoped (visible : List TableRef) : Expr → Prop
  | .and left right => left.WellScoped visible ∧ right.WellScoped visible
  | .or left right => left.WellScoped visible ∧ right.WellScoped visible
  | .not operand => operand.WellScoped visible
  | .negate operand => operand.WellScoped visible
  | .op left _ right => left.WellScoped visible ∧ right.WellScoped visible
  | .isNull operand => operand.WellScoped visible
  | .isNotNull operand => operand.WellScoped visible
  | .call _ args => Expr.ListWellScoped visible args
  | .like subject pattern _ => subject.WellScoped visible ∧ pattern.WellScoped visible
  | .case test ifTrue ifFalse =>
    test.WellScoped visible ∧ ifTrue.WellScoped visible ∧ ifFalse.WellScoped visible
  | .column ref => ref.WellScoped visible
  | .param _ => True
  | .null => True
  | .bool _ => True
  | .countAll => True
  | .subselect select => select.WellScoped visible

/-- Expressions in one scope. -/
def Expr.ListWellScoped (visible : List TableRef) : List Expr → Prop
  | [] => True
  | e :: rest => e.WellScoped visible ∧ Expr.ListWellScoped visible rest

/-- Expressions with their aliases. -/
def Expr.AliasedWellScoped (visible : List TableRef) : List (String × Expr) → Prop
  | [] => True
  | (_, e) :: rest => e.WellScoped visible ∧ Expr.AliasedWellScoped visible rest

/-- Keys. -/
def Expr.OrderWellScoped (visible : List TableRef) : List (Expr × Direction) → Prop
  | [] => True
  | (e, _) :: rest => e.WellScoped visible ∧ Expr.OrderWellScoped visible rest

/-- A select list is not empty. -/
def SelectList.WellScoped (visible : List TableRef) : SelectList → Prop
  | .plain items => items ≠ [] ∧ Expr.ListWellScoped visible items
  | .aliased items => items ≠ [] ∧ Expr.AliasedWellScoped visible items

/-- A derived table sees what is outside. -/
def From.WellScoped (outside : List TableRef) : From → Prop
  | .table _ _ => True
  | .derived select _ => select.WellScoped outside

/-- The keys of a join see what the selection sees, a derived table what is outside. -/
def Join.WellScoped (visible outside : List TableRef) : Join → Prop
  | .inner _ left right => left.WellScoped visible ∧ right.WellScoped visible
  | .cross select _ => select.WellScoped outside

/-- Joins. -/
def Join.ListWellScoped (visible outside : List TableRef) : List Join → Prop
  | [] => True
  | j :: rest => j.WellScoped visible outside ∧ Join.ListWellScoped visible outside rest

/-- **A selection is well scoped**: it and all selections in it select something from somewhere, and
every qualified column names a table that is exposed where it stands. -/
def Select.WellScoped (outside : List TableRef) : Select → Prop
  | ⟨list, source, joins, filter, orderBy⟩ =>
    list.WellScoped (exposed source joins ++ outside)
      ∧ (match source with
        | none => False
        | some f => f.WellScoped outside)
      ∧ Join.ListWellScoped (exposed source joins ++ outside) outside joins
      ∧ filter.WellScoped (exposed source joins ++ outside)
      ∧ Expr.OrderWellScoped (exposed source joins ++ outside) orderBy
end

theorem Expr.listWellScoped_iff {visible : List TableRef} {items : List Expr} :
    Expr.ListWellScoped visible items ↔ ∀ e ∈ items, e.WellScoped visible := by
  induction items with
  | nil => simp [ListWellScoped]
  | cons e rest ih => simp [ListWellScoped, ih]

theorem Expr.aliasedWellScoped_iff {visible : List TableRef} {items : List (String × Expr)} :
    Expr.AliasedWellScoped visible items ↔ ∀ item ∈ items, item.2.WellScoped visible := by
  induction items with
  | nil => simp [AliasedWellScoped]
  | cons item rest ih => simp [AliasedWellScoped, ih]

theorem Expr.orderWellScoped_iff {visible : List TableRef} {keys : List (Expr × Direction)} :
    Expr.OrderWellScoped visible keys ↔ ∀ key ∈ keys, key.1.WellScoped visible := by
  induction keys with
  | nil => simp [OrderWellScoped]
  | cons key rest ih => simp [OrderWellScoped, ih]

theorem SelectList.wellScoped_iff {visible : List TableRef} {list : SelectList} :
    list.WellScoped visible ↔ list.exprs ≠ [] ∧ ∀ e ∈ list.exprs, e.WellScoped visible := by
  cases list with
  | plain items => exact and_congr_right fun _ => Expr.listWellScoped_iff
  | aliased items =>
    refine and_congr (not_congr List.map_eq_nil_iff.symm) ?_
    exact Expr.aliasedWellScoped_iff.trans List.forall_mem_map.symm

/-! ## 3. Seeing more -/

theorem ColumnRef.WellScoped.mono {visible wider : List TableRef} (hsub : visible ⊆ wider)
    {ref : ColumnRef} (h : ref.WellScoped visible) : ref.WellScoped wider := by
  cases ref with
  | qualified table name => exact hsub h
  | bare name => trivial

mutual
/-- **An expression that is well scoped stays so when more is visible.** -/
theorem Expr.wellScoped_mono {visible wider : List TableRef} (hsub : visible ⊆ wider) :
    ∀ e : Expr, e.WellScoped visible → e.WellScoped wider
  | .and left right, ⟨hl, hr⟩ => ⟨left.wellScoped_mono hsub hl, right.wellScoped_mono hsub hr⟩
  | .or left right, ⟨hl, hr⟩ => ⟨left.wellScoped_mono hsub hl, right.wellScoped_mono hsub hr⟩
  | .not operand, h => operand.wellScoped_mono hsub h
  | .negate operand, h => operand.wellScoped_mono hsub h
  | .op left _ right, ⟨hl, hr⟩ => ⟨left.wellScoped_mono hsub hl, right.wellScoped_mono hsub hr⟩
  | .isNull operand, h => operand.wellScoped_mono hsub h
  | .isNotNull operand, h => operand.wellScoped_mono hsub h
  | .call _ args, h => Expr.listWellScoped_mono hsub args h
  | .like subject pattern _, ⟨hs, hp⟩ =>
    ⟨subject.wellScoped_mono hsub hs, pattern.wellScoped_mono hsub hp⟩
  | .case test ifTrue ifFalse, ⟨ht, ha, hb⟩ =>
    ⟨test.wellScoped_mono hsub ht, ifTrue.wellScoped_mono hsub ha, ifFalse.wellScoped_mono hsub hb⟩
  | .column _, h => h.mono hsub
  | .param _, _ => trivial
  | .null, _ => trivial
  | .bool _, _ => trivial
  | .countAll, _ => trivial
  | .subselect select, h => select.wellScoped_mono hsub h

theorem Expr.listWellScoped_mono {visible wider : List TableRef} (hsub : visible ⊆ wider) :
    ∀ items : List Expr, Expr.ListWellScoped visible items → Expr.ListWellScoped wider items
  | [], _ => trivial
  | e :: rest, ⟨he, hrest⟩ => ⟨e.wellScoped_mono hsub he, Expr.listWellScoped_mono hsub rest hrest⟩

theorem Expr.aliasedWellScoped_mono {visible wider : List TableRef} (hsub : visible ⊆ wider) :
    ∀ items : List (String × Expr),
      Expr.AliasedWellScoped visible items → Expr.AliasedWellScoped wider items
  | [], _ => trivial
  | (_, e) :: rest, ⟨he, hrest⟩ =>
    ⟨e.wellScoped_mono hsub he, Expr.aliasedWellScoped_mono hsub rest hrest⟩

theorem Expr.orderWellScoped_mono {visible wider : List TableRef} (hsub : visible ⊆ wider) :
    ∀ keys : List (Expr × Direction),
      Expr.OrderWellScoped visible keys → Expr.OrderWellScoped wider keys
  | [], _ => trivial
  | (e, _) :: rest, ⟨he, hrest⟩ =>
    ⟨e.wellScoped_mono hsub he, Expr.orderWellScoped_mono hsub rest hrest⟩

theorem SelectList.wellScoped_mono {visible wider : List TableRef} (hsub : visible ⊆ wider) :
    ∀ list : SelectList, list.WellScoped visible → list.WellScoped wider
  | .plain items, ⟨hne, h⟩ => ⟨hne, Expr.listWellScoped_mono hsub items h⟩
  | .aliased items, ⟨hne, h⟩ => ⟨hne, Expr.aliasedWellScoped_mono hsub items h⟩

theorem From.wellScoped_mono {outside wider : List TableRef} (hsub : outside ⊆ wider) :
    ∀ f : From, f.WellScoped outside → f.WellScoped wider
  | .table _ _, _ => trivial
  | .derived select _, h => select.wellScoped_mono hsub h

theorem Join.wellScoped_mono {visible wider outside further : List TableRef}
    (hsub : visible ⊆ wider) (hout : outside ⊆ further) :
    ∀ j : Join, j.WellScoped visible outside → j.WellScoped wider further
  | .inner _ left right, ⟨hl, hr⟩ => ⟨left.wellScoped_mono hsub hl, right.wellScoped_mono hsub hr⟩
  | .cross select _, h => select.wellScoped_mono hout h

theorem Join.listWellScoped_mono {visible wider outside further : List TableRef}
    (hsub : visible ⊆ wider) (hout : outside ⊆ further) :
    ∀ joins : List Join,
      Join.ListWellScoped visible outside joins → Join.ListWellScoped wider further joins
  | [], _ => trivial
  | j :: rest, ⟨hj, hrest⟩ =>
    ⟨j.wellScoped_mono hsub hout hj, Join.listWellScoped_mono hsub hout rest hrest⟩

/-- **A selection that is well scoped stays so when more is visible.**  It exposes the same names as
before, in front of what is outside. -/
theorem Select.wellScoped_mono {outside wider : List TableRef} (hsub : outside ⊆ wider) :
    ∀ s : Select, s.WellScoped outside → s.WellScoped wider
  | ⟨_, none, _, _, _⟩, ⟨_, hsource, _⟩ => hsource.elim
  | ⟨list, some source, joins, filter, orderBy⟩, ⟨hlist, hsource, hjoins, hfilter, horder⟩ => by
    have hvisible : exposed (some source) joins ++ outside ⊆ exposed (some source) joins ++ wider :=
      List.append_subset.mpr
        ⟨List.subset_append_left _ _, List.Subset.trans hsub (List.subset_append_right _ _)⟩
    exact ⟨list.wellScoped_mono hvisible hlist, source.wellScoped_mono hsub hsource,
      Join.listWellScoped_mono hvisible hsub joins hjoins, filter.wellScoped_mono hvisible hfilter,
      Expr.orderWellScoped_mono hvisible orderBy horder⟩
end

end ChainQuery.Sql
