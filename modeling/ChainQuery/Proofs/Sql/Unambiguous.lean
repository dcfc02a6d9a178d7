import ChainQuery.Proofs.Sql.ReadBack
/-!
# Statements are unambiguous

The text of a readable statement and its parameters determine the statement, up to whether a table is
referred to by its name or by an alias of the same spelling: `Select.byName_eq_of_render_eq`.

Text and parameters determine the glyphs, for the placeholders are numbered in order and no name holds
an `@`; and the reader of statements reads the statement back from its glyphs (`Select.readsBack`).
-/

namespace ChainQuery.Sql

/-! ## 1. Every readable statement is read back -/

theorem SelectList.ofItems_plain (items : List Expr) :
    SelectList.ofItems (items.map (none, ·)) = .plain items := by
  cases items <;> simp [SelectList.ofItems, Function.comp_def]

theorem SelectList.ofItems_aliased {items : List (String × Expr)} (h : items ≠ []) :
    SelectList.ofItems (items.map fun item => (some item.1, item.2)) = .aliased items := by
  have hlabels : (items.map fun item => (some item.1, item.2)).filterMap
      (fun item : Option String × Expr => item.1.map (·, item.2)) = items := by
    rw [List.filterMap_map]
    exact List.filterMap_some
  cases items with
  | nil => exact absurd rfl h
  | cons item rest => exact congrArg SelectList.aliased hlabels

mutual
/-- **Every readable expression is read back.** -/
theorem Expr.readsBack : ∀ e : Expr, e.isReadable = true → e.ReadsBack
  | .and left right, h => by
    simp only [Expr.isReadable, Bool.and_eq_true] at h
    exact (left.readsBack h.1).and (right.readsBack h.2)
  | .or left right, h => by
    simp only [Expr.isReadable, Bool.and_eq_true] at h
    exact (left.readsBack h.1).or (right.readsBack h.2)
  | .not operand, h => (operand.readsBack h).not
  | .negate operand, h => (operand.readsBack h).negate
  | .op left token right, h => by
    simp only [Expr.isReadable, Bool.and_eq_true] at h
    exact (left.readsBack h.1.1).op h.1.2 (right.readsBack h.2)
  | .isNull operand, h => (operand.readsBack h).isNull
  | .isNotNull operand, h => (operand.readsBack h).isNotNull
  | .call f args, h => .call f (Expr.listReadsBack args h)
  | .like subject pattern w, h => by
    simp only [Expr.isReadable, Bool.and_eq_true] at h
    exact (subject.readsBack h.1).like (pattern.readsBack h.2) w
  | .case test ifTrue ifFalse, h => by
    simp only [Expr.isReadable, Bool.and_eq_true] at h
    exact (test.readsBack h.1.1).case (ifTrue.readsBack h.1.2) (ifFalse.readsBack h.2)
  | .column _, h => .column h
  | .param value, _ => .param value
  | .null, _ => .null
  | .bool value, _ => .bool value
  | .countAll, _ => .countAll
  | .subselect select, h => .subselect (select.readsBack h)

theorem Expr.listReadsBack : ∀ es : List Expr, Expr.listIsReadable es = true → es ≠ [] →
    ItemsReadBack (Expr.listPieces es) ((Expr.listByName es).map (none, ·))
  | [], _, hne => absurd rfl hne
  | [e], h, _ => by
    simp only [Expr.listIsReadable, Bool.and_eq_true] at h
    simpa [Expr.listPieces, Expr.listByName, aliasPieces] using
      ItemsReadBack.last none (e.readsBack h.1) rfl
  | e :: next :: rest, h, _ => by
    simp only [Expr.listIsReadable, Bool.and_eq_true] at h
    have hrest := Expr.listReadsBack (next :: rest) (by simpa [Expr.listIsReadable] using h.2)
      (List.cons_ne_nil _ _)
    exact .cons none (e.readsBack h.1) rfl hrest

theorem Expr.aliasedReadsBack : ∀ es : List (String × Expr), Expr.aliasedIsReadable es = true →
    es ≠ [] → ItemsReadBack (Expr.aliasedPieces es)
      ((Expr.aliasedByName es).map fun item => (some item.1, item.2))
  | [], _, hne => absurd rfl hne
  | [(label, e)], h, _ => by
    simp only [Expr.aliasedIsReadable, Bool.and_eq_true] at h
    exact .last (some label) (e.readsBack h.1.2) h.1.1
  | (label, e) :: next :: rest, h, _ => by
    simp only [Expr.aliasedIsReadable, Bool.and_eq_true] at h
    have hrest := Expr.aliasedReadsBack (next :: rest) (by simpa [Expr.aliasedIsReadable] using h.2)
      (List.cons_ne_nil _ _)
    exact .cons (some label) (e.readsBack h.1.2) h.1.1 hrest

theorem Expr.orderReadsBack : ∀ keys : List (Expr × Direction), Expr.orderIsReadable keys = true →
    keys ≠ [] → KeysReadBack (Expr.orderPieces keys) (Expr.orderByName keys)
  | [], _, hne => absurd rfl hne
  | [(e, direction)], h, _ => by
    simp only [Expr.orderIsReadable, Bool.and_eq_true] at h
    exact .last (e.readsBack h.1) direction
  | (e, direction) :: next :: rest, h, _ => by
    simp only [Expr.orderIsReadable, Bool.and_eq_true] at h
    have hrest := Expr.orderReadsBack (next :: rest) (by simpa [Expr.orderIsReadable] using h.2)
      (List.cons_ne_nil _ _)
    exact .cons (e.readsBack h.1) direction hrest

theorem SelectList.readsBack : ∀ list : SelectList, list.isReadable = true → list.ReadsBack
  | .plain items, h => by
    simp only [SelectList.isReadable, Bool.and_eq_true, Bool.not_eq_true',
      List.isEmpty_eq_false_iff] at h
    exact ⟨_, Expr.listReadsBack items h.2 h.1, SelectList.ofItems_plain _⟩
  | .aliased items, h => by
    simp only [SelectList.isReadable, Bool.and_eq_true, Bool.not_eq_true',
      List.isEmpty_eq_false_iff] at h
    refine ⟨_, Expr.aliasedReadsBack items h.2 h.1, SelectList.ofItems_aliased ?_⟩
    cases items with
    | nil => exact absurd rfl h.1
    | cons item rest => exact List.cons_ne_nil _ _

theorem From.readsBack : ∀ f : From, f.isReadable = true → f.ReadsBack
  | .table ref label, h => by
    simp only [From.isReadable, Bool.and_eq_true] at h
    exact .table h.1 h.2
  | .derived select label, h => by
    simp only [From.isReadable, Bool.and_eq_true] at h
    exact .derived (select.readsBack h.1) h.2

theorem Join.listReadsBack : ∀ joins : List Join, Join.listIsReadable joins = true →
    JoinsReadBack joins
  | [], _ => .nil
  | .inner ref left right :: rest, h => by
    simp only [Join.listIsReadable, Join.isReadable, Bool.and_eq_true] at h
    exact .inner h.1.1.1 (left.readsBack h.1.1.2) (right.readsBack h.1.2) (Join.listReadsBack rest h.2)
  | .cross select label :: rest, h => by
    simp only [Join.listIsReadable, Join.isReadable, Bool.and_eq_true] at h
    exact .cross (select.readsBack h.1.1) h.1.2 (Join.listReadsBack rest h.2)

/-- **Every readable selection is read back.** -/
theorem Select.readsBack : ∀ s : Select, s.isReadable = true → s.ReadsBack
  | ⟨list, none, joins, filter, orderBy⟩, h => by
    simp only [Select.isReadable, Bool.and_eq_true] at h
    exact .ofClauses (list.readsBack h.1.1.1.1) (fun f hf => absurd hf (by simp))
      (Join.listReadsBack joins h.1.1.2) (filter.readsBack h.1.2) (Expr.orderReadsBack orderBy h.2)
  | ⟨list, some source, joins, filter, orderBy⟩, h => by
    simp only [Select.isReadable, Bool.and_eq_true] at h
    have hsource := source.readsBack h.1.1.1.2
    refine .ofClauses (list.readsBack h.1.1.1.1) (fun f hf => ?_)
      (Join.listReadsBack joins h.1.1.2) (filter.readsBack h.1.2) (Expr.orderReadsBack orderBy h.2)
    cases hf
    exact hsource
end

/-! ## 2. Texts and parameters determine statements -/

theorem not_mem_glyphs {c : Char} {ps : List Piece} (h : ∀ text, .text text ∈ ps → c ∉ text.toList) :
    Glyph.char c ∉ glyphs ps := by
  induction ps with
  | nil => simp
  | cons p ps ih =>
    have hrest := ih fun text hm => h text (List.mem_cons_of_mem _ hm)
    cases p with
    | text text => simp [spell, hrest, h text List.mem_cons_self]
    | param v => simp [hrest]

/-- The glyphs of a readable selection hold no `@`. -/
theorem Select.not_mem_glyphs {s : Select} (h : s.isReadable = true) :
    Glyph.char '@' ∉ glyphs s.pieces := by
  refine Sql.not_mem_glyphs (s.spells.clean fun name hname => ?_)
  have hclean := List.all_eq_true.mp (s.clean h) (.name name) hname
  simpa [Leaf.isClean] using hclean

/-- **Statements are unambiguous.**  Two readable selections with the same text and the same parameters
are the same selection, up to whether a table is referred to by its name or by an alias. -/
theorem Select.byName_eq_of_render_eq {s t : Select} (hs : s.isReadable = true)
    (ht : t.isReadable = true) (htext : s.render.text = t.render.text)
    (hparams : s.render.params = t.render.params) : s.byName = t.byName := by
  have hglyphs : glyphs s.pieces = glyphs t.pieces := by
    simp only [Select.render, Buffer.append_eq, String.empty_append, List.nil_append] at htext hparams
    refine Glyph.eq_of_writtenFrom 0 (Select.not_mem_glyphs hs) (Select.not_mem_glyphs ht) ?_ ?_
    · rw [← toList_written, ← toList_written, htext]
    · rw [filterMap_param?_glyphs, filterMap_param?_glyphs, hparams]
  obtain ⟨body, hbody, hread⟩ := s.readsBack hs [] rfl
  obtain ⟨body', hbody', hread'⟩ := t.readsBack ht [] rfl
  have hsame : body = body' := by
    rw [hglyphs, hbody'] at hbody
    exact (List.append_cancel_left hbody).symm
  rw [hsame] at hread
  exact congrArg Prod.fst (hread.unique hread')

/-- `SELECT a LIKE (@0 + '%'), ...` and one of the same text in which the table is named, not its
alias. -/
theorem Select.byName_eq_of_render_eq_sample :
    let statement (table : String → TableRef) : Select :=
      { list := .aliased [("Found", .like (.like (.column (.qualified (table "t0") "Name"))
          (.param (.string "A")) .trailing) (.not (.isNull (.bareColumn "City"))) .both)]
        source := some (.derived ⟨.plain [.countAll, .call .sum []], none, [], .always, []⟩ "t0")
        joins := [.inner (.table "Order") (.bareColumn "Id") (.op (.param (.int 1)) "-" (.negate .null))]
        filter := .case (.bool true) (.bareColumn "b") (.bareColumn "c")
        orderBy := [(.bareColumn "Id", .desc), (.bareColumn "Id", .asc)] }
    statement .aliased ≠ statement .table ∧
      (statement .aliased).isReadable = true ∧ (statement .table).isReadable = true ∧
      (statement .aliased).render.text = (statement .table).render.text ∧
      (statement .aliased).render.params = (statement .table).render.params ∧
      (statement .aliased).byName = (statement .table).byName := by
  intro statement
  have haliased : (statement .aliased).isReadable = true := by decide
  have htable : (statement .table).isReadable = true := by decide
  have hne : statement .aliased ≠ statement .table := by simp [statement]
  exact ⟨hne, haliased, htable, rfl, rfl,
    Select.byName_eq_of_render_eq haliased htable rfl rfl⟩

end ChainQuery.Sql
