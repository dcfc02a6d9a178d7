import ChainQuery.Compile.Scope
import ChainQuery.Proofs.Outcome
/-!
# What a bound column or operator is

The inversions of binding.  A source has a column for each member of its rows, named by the schema or,
for the sides of a cross join, by what they export (`Source.column?_crossJoin_eq_some`).  A column that
no record has is a column of the source, or else what the scope around makes of it
(`Frame.bindToSource_eq_ok`).  Binding through a layer of records resolves
what the record's member was built from, in the layers below (`Frame.bindThrough_cons_eq_ok`).  An
operator is bound with both operands, or with one of them if the other is null
(`Scalar.resolve_binary_cases`).
-/

namespace ChainQuery

namespace Source

variable {schema : Schema} {owner : Ty} {member : String} {position : Position} {e : Sql.Expr}

/-- A column of a table is that of its member, qualified or not. -/
theorem column?_table_eq_some {rowType label : String}
    (h : (Source.table rowType label).column? schema owner member position = .ok (some e)) :
    ∃ name, owner = .row rowType ∧ schema.columnName rowType member = .ok name ∧
      (e = .bareColumn name ∨ e = .aliasedColumn label name) := by
  rw [Source.column?] at h
  split at h
  · rename_i howner
    obtain ⟨name, hname, h⟩ := Except.bind_eq_ok.mp h
    refine ⟨name, beq_iff_eq.mp howner, hname, ?_⟩
    cases position with
    | selectList =>
      cases h
      exact Or.inl rfl
    | predicate =>
      cases h
      exact Or.inr rfl
  · cases h

/-- A column of an equi-join is that of a member of one of its tables. -/
theorem column?_join_eq_some {left right : JoinedTable}
    (h : (Source.join left right).column? schema owner member position = .ok (some e)) :
    ∃ t : JoinedTable, ∃ name, owner = .row t.rowType ∧
      schema.columnName t.rowType member = .ok name ∧ e = .tableColumn t.table name := by
  have hside : ∀ t : JoinedTable, t.column? schema owner member = .ok (some e) →
      ∃ name, owner = .row t.rowType ∧ schema.columnName t.rowType member = .ok name ∧
        e = .tableColumn t.table name := by
    intro t ht
    unfold JoinedTable.column? at ht
    split at ht
    · rename_i howner
      obtain ⟨name, hname, ht⟩ := Except.bind_eq_ok.mp ht
      cases ht
      exact ⟨name, beq_iff_eq.mp howner, hname, rfl⟩
    · cases ht
  obtain ⟨found, hleft, h⟩ := Except.bind_eq_ok.mp h
  cases found with
  | some column =>
    cases h
    exact ⟨left, hside left hleft⟩
  | none => exact ⟨right, hside right h⟩

/-- **A column of a cross join** is taken from one of its sides, under the name that the side exports or
else under that of the member. -/
theorem column?_crossJoin_eq_some {left right : DerivedTable}
    (h : (Source.crossJoin left right).column? schema owner member position = .ok (some e)) :
    ∃ t, (t = left ∨ t = right) ∧ owner = t.row ∧
      e = .aliasedColumn t.label ((t.exports.lookup member).getD member) := by
  have hside : ∀ t : DerivedTable, t.column? owner member = some e →
      owner = t.row ∧ e = .aliasedColumn t.label ((t.exports.lookup member).getD member) := by
    intro t ht
    unfold DerivedTable.column? at ht
    split at ht
    · rename_i howner
      cases ht
      exact ⟨beq_iff_eq.mp howner, rfl⟩
    · cases ht
  have h : (left.column? owner member).or (right.column? owner member) = some e := Except.ok.inj h
  rcases Option.or_eq_some_iff.mp h with hleft | ⟨_, hright⟩
  · exact ⟨left, Or.inl rfl, hside left hleft⟩
  · exact ⟨right, Or.inr rfl, hside right hright⟩

end Source

namespace Frame

variable {env : Env} {frame : Frame}

/-- **A column that no record has** is a column of the source, or that of the scope around if the
source has no such row. -/
theorem bindToSource_eq_ok {token : ColumnToken} {position : Position} {e : Sql.Expr} :
    (frame.bindToSource env token position).outcome = .ok e ↔
      ∃ owner, token.owner? = some owner ∧
        (frame.source.column? env.schema owner token.member position = .ok (some e) ∨
          frame.source.column? env.schema owner token.member position = .ok none ∧
            ∃ outer, frame.outer = some outer ∧
              (outer.column token .predicate).outcome = .ok e) := by
  unfold bindToSource
  cases token.owner? with
  | none => simp
  | some owner =>
    simp only [Option.some.injEq, exists_eq_left']
    rw [Traced.bind_eq_ok]
    constructor
    · rintro ⟨found, hfound, h⟩
      cases found with
      | some column =>
        cases h
        exact Or.inl hfound
      | none =>
        refine Or.inr ⟨hfound, ?_⟩
        cases houter : frame.outer with
        | none => simp [houter] at h
        | some outer => exact ⟨outer, rfl, by simpa [houter] using h⟩
    · rintro (hfound | ⟨hfound, outer, houter, h⟩)
      · exact ⟨some e, hfound, rfl⟩
      · exact ⟨none, hfound, by simpa [houter] using h⟩

/-- **A column behind a layer of records** is what the layer builds its member from, or a column
behind the layers below. -/
theorem bindThrough_cons_eq_ok {subqueries : Subqueries} {layer : Aliases} {below : List Aliases}
    {token : ColumnToken} {position : Position} {e : Sql.Expr} :
    (frame.bindThrough env subqueries (layer :: below) token position).outcome = .ok e ↔
      (∃ owner target, token.owner? = some owner ∧
        layer.lookup (owner, token.member) = some target ∧
        (target.resolve env.dialect subqueries (frame.scope env subqueries below) position).outcome
          = .ok e) ∨
      ((∀ owner, token.owner? = some owner → layer.lookup (owner, token.member) = none) ∧
        (frame.bindThrough env subqueries below token position).outcome = .ok e) := by
  rw [bindThrough]
  cases howner : token.owner? with
  | none => simp
  | some owner =>
    cases hlookup : layer.lookup (owner, token.member) with
    | none =>
      simp only [Option.bind_some, hlookup, Option.some.injEq, exists_and_left, exists_eq_left',
        forall_eq', reduceCtorEq, false_and, exists_false, false_or, true_and]
    | some target =>
      simp only [Option.bind_some, hlookup, Option.some.injEq, exists_and_left, exists_eq_left',
        forall_eq', reduceCtorEq, false_and, or_false]
      rfl

/-- A layer of records that does not have a member leaves it to the layers below. -/
theorem bindThrough_cons_of_lookup_eq_none {subqueries : Subqueries} {layer : Aliases}
    {below : List Aliases} {token : ColumnToken} (position : Position)
    (h : ∀ owner, token.owner? = some owner → layer.lookup (owner, token.member) = none) :
    frame.bindThrough env subqueries (layer :: below) token position
      = frame.bindThrough env subqueries below token position := by
  rw [bindThrough]
  cases howner : token.owner? with
  | none => rfl
  | some owner => rw [Option.bind_some, h owner howner]

/-- A column that no layer of records has is bound to the source. -/
theorem bindThrough_of_lookup_eq_none {subqueries : Subqueries} {layers : List Aliases}
    {token : ColumnToken} (position : Position)
    (h : ∀ layer ∈ layers, ∀ owner, token.owner? = some owner →
      layer.lookup (owner, token.member) = none) :
    frame.bindThrough env subqueries layers token position
      = frame.bindToSource env token position := by
  induction layers with
  | nil => rfl
  | cons layer below ih =>
    obtain ⟨hlayer, hbelow⟩ := List.forall_mem_cons.mp h
    rw [bindThrough_cons_of_lookup_eq_none position hlayer, ih hbelow]

end Frame

/-- **How an operator is bound.**  A comparison with null tests the other side, from the left if
both are null; every other operator stands between both sides. -/
theorem Scalar.resolve_binary_cases {dialect : Dialect} {subqueries : Subqueries} {scope : Scope}
    {position : Position} {op : BinaryOp} {left right : Scalar} {e : Sql.Expr}
    (h : ((binary op left right).resolve dialect subqueries scope position).outcome = .ok e) :
    (∃ x, ((right.isNull = true ∧
          (left.resolve dialect subqueries scope position).outcome = .ok x) ∨
        (left.isNull = true ∧ (right.resolve dialect subqueries scope position).outcome = .ok x)) ∧
      ((op = .equal ∧ e = .isNull x) ∨ (op = .notEqual ∧ e = .isNotNull x))) ∨
    (∃ x y, (left.resolve dialect subqueries scope position).outcome = .ok x ∧
      (right.resolve dialect subqueries scope position).outcome = .ok y ∧
      ((op = .and ∧ e = .and x y) ∨ (op = .or ∧ e = .or x y) ∨
        (op.isLogical = false ∧ e = .op x (op.token dialect) y ∧
          ((op = .equal ∨ op = .notEqual) → left.isNull = false ∧ right.isNull = false)))) := by
  unfold resolve at h
  split at h
  · rename_i hnull
    obtain ⟨x, hx, h⟩ := Traced.bind_eq_ok.mp h
    cases h
    exact Or.inl ⟨x, Or.inl ⟨hnull, hx⟩, Or.inl ⟨rfl, rfl⟩⟩
  · rename_i hnull _
    obtain ⟨x, hx, h⟩ := Traced.bind_eq_ok.mp h
    cases h
    exact Or.inl ⟨x, Or.inr ⟨hnull, hx⟩, Or.inl ⟨rfl, rfl⟩⟩
  · rename_i hnull
    obtain ⟨x, hx, h⟩ := Traced.bind_eq_ok.mp h
    cases h
    exact Or.inl ⟨x, Or.inl ⟨hnull, hx⟩, Or.inr ⟨rfl, rfl⟩⟩
  · rename_i hnull _
    obtain ⟨x, hx, h⟩ := Traced.bind_eq_ok.mp h
    cases h
    exact Or.inl ⟨x, Or.inr ⟨hnull, hx⟩, Or.inr ⟨rfl, rfl⟩⟩
  · obtain ⟨x, hx, h⟩ := Traced.bind_eq_ok.mp h
    obtain ⟨y, hy, h⟩ := Traced.bind_eq_ok.mp h
    cases h
    exact Or.inr ⟨x, y, hx, hy, Or.inl ⟨rfl, rfl⟩⟩
  · obtain ⟨x, hx, h⟩ := Traced.bind_eq_ok.mp h
    obtain ⟨y, hy, h⟩ := Traced.bind_eq_ok.mp h
    cases h
    exact Or.inr ⟨x, y, hx, hy, Or.inr (Or.inl ⟨rfl, rfl⟩)⟩
  · rename_i op _ _ _ hand hor hequal hnotEqual hequalLeft hnotEqualLeft
    obtain ⟨x, hx, h⟩ := Traced.bind_eq_ok.mp h
    obtain ⟨y, hy, h⟩ := Traced.bind_eq_ok.mp h
    cases h
    have hlogical : op.isLogical = false := by
      cases op with
      | and => exact (hand rfl).elim
      | or => exact (hor rfl).elim
      | _ => rfl
    refine Or.inr ⟨x, y, hx, hy, Or.inr (Or.inr ⟨hlogical, rfl, ?_⟩)⟩
    rintro (rfl | rfl)
    · have hright : right.isNull = false := Bool.eq_false_iff.mpr (hequal rfl)
      exact ⟨Bool.eq_false_iff.mpr fun hleft => hequalLeft rfl hleft hright, hright⟩
    · have hright : right.isNull = false := Bool.eq_false_iff.mpr (hnotEqual rfl)
      exact ⟨Bool.eq_false_iff.mpr fun hleft => hnotEqualLeft rfl hleft hright, hright⟩

end ChainQuery
