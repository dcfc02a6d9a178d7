import ChainQuery.Proofs.Session.Reading
/-!
# Gathering statements in a session

The statement that a session gathers stands for the one gathered without identifiers
(`toStatement_follows`).  Joins of rows with themselves are refused in both or in none, since
identifiers are equal where types are.
-/

namespace ChainQuery.Session

variable {T T' : TypeTable} {env : Env}

/-! ## 1. Clauses -/

/-- The projection of a statement, with the identifier of what it returns. -/
structure Selector.Denotes (T : TypeTable) (p : Selector) (p' : ChainQuery.Projection) : Prop where
  projection : p.toProjection.Denotes T p'
  record : T.Names p.record p'.returnType

/-- Sort keys that stand for each other. -/
structure SortKey.Denotes (T : TypeTable) (k : SortKey) (k' : ChainQuery.SortKey) : Prop where
  key : k.key.Denotes T k'.key
  direction : k.direction = k'.direction

/-- Orderings over keys that stand for each other. -/
structure OrderingClause.Denotes (T : TypeTable) (o : OrderingClause)
    (o' : ChainQuery.OrderingClause) : Prop where
  parameterType : o.parameterType = o'.parameterType
  sortKey : o.sortKey.Denotes T o'.sortKey

/-- **Clauses of a session stand for clauses.** -/
structure Clauses.Denotes (T : TypeTable) (c : Clauses) (c' : ChainQuery.Clauses) : Prop where
  select : Option.Rel (Selector.Denotes T) c.select c'.select
  filter : Option.Rel (Projection.Denotes T) c.filter c'.filter
  orderings : List.Forall₂ (OrderingClause.Denotes T) c.orderings c'.orderings
  unsupported : c.unsupported = c'.unsupported

theorem Clauses.denotes_empty : Clauses.Denotes T {} {} := ⟨.none, .none, .nil, rfl⟩

theorem Selector.Denotes.mono {p : Selector} {p' : ChainQuery.Projection} (h : p.Denotes T p')
    (hle : T ≤ T') : p.Denotes T' p' :=
  ⟨h.projection.mono hle, h.record.mono hle⟩

theorem SortKey.Denotes.mono {k : SortKey} {k' : ChainQuery.SortKey} (h : k.Denotes T k')
    (hle : T ≤ T') : k.Denotes T' k' :=
  ⟨h.key.mono hle, h.direction⟩

namespace Clauses.Denotes

variable {c : Clauses} {c' : ChainQuery.Clauses}

theorem mono (h : c.Denotes T c') (hle : T ≤ T') : c.Denotes T' c' where
  select := h.select.imp fun _ _ hp => hp.mono hle
  filter := h.filter.imp fun _ _ hp => hp.mono hle
  orderings := h.orderings.imp fun _ _ ho => ⟨ho.parameterType, ho.sortKey.mono hle⟩
  unsupported := h.unsupported

theorem withUnsupported (h : c.Denotes T c') (operator : String) :
    Clauses.Denotes T { c with unsupported := operator :: c.unsupported }
      { c' with unsupported := operator :: c'.unsupported } :=
  { h with unsupported := congrArg (operator :: ·) h.unsupported }

theorem withSelect (h : c.Denotes T c') {p : Selector} {p' : ChainQuery.Projection}
    (hp : p.Denotes T p') :
    Clauses.Denotes T { c with select := some p } { c' with select := some p' } :=
  { h with select := .some hp }

theorem withFilter (h : c.Denotes T c') {p : Projection} {p' : ChainQuery.Projection}
    (hp : p.Denotes T p') :
    Clauses.Denotes T { c with filter := some p } { c' with filter := some p' } :=
  { h with filter := .some hp }

theorem withOrdering (h : c.Denotes T c') {o : OrderingClause} {o' : ChainQuery.OrderingClause}
    (ho : o.Denotes T o') :
    Clauses.Denotes T { c with orderings := o :: c.orderings }
      { c' with orderings := o' :: c'.orderings } :=
  { h with orderings := .cons ho h.orderings }

theorem sortKeys (h : c.Denotes T c') :
    List.Forall₂ (SortKey.Denotes T) (c.orderings.map OrderingClause.sortKey)
      (c'.orderings.map ChainQuery.OrderingClause.sortKey) :=
  List.rel_map (fun _ _ ho => ho.sortKey) h.orderings

theorem check (h : c.Denotes T c') : Follows T (fun _ _ _ => True) c.check c'.check := by
  unfold Clauses.check ChainQuery.Clauses.check
  rw [h.unsupported]
  cases c'.unsupported with
  | nil => exact .pure trivial
  | cons operator _ => exact .throw _

end Clauses.Denotes

theorem readOrdering_follows (key : Lambda) (kind : OrderingKind) :
    Follows T OrderingClause.Denotes (readOrdering env key kind) (key.readOrdering env kind) :=
  (read_follows env 1 key).bind fun _ _ _ _ hp => .pure ⟨hp.parameterType, hp.body, rfl⟩

/-! ## 2. Statements -/

/-- A joined table of a session: the identifier of its rows names them. -/
structure JoinedTable.Denotes (T : TypeTable) (t : JoinedTable) (t' : ChainQuery.JoinedTable) :
    Prop where
  row : T.Names t.row (.row t'.rowType)
  rowType : t.rowType = t'.rowType
  table : t.table = t'.table

theorem JoinedTable.Denotes.mono {t : JoinedTable} {t' : ChainQuery.JoinedTable}
    (h : t.Denotes T t') (hle : T ≤ T') : t.Denotes T' t' :=
  ⟨h.row.mono hle, h.rowType, h.table⟩

/-- **A statement of a session stands for a statement.** -/
inductive Statement.Denotes (T : TypeTable) : Statement → ChainQuery.Statement → Prop
  | table {c : Clauses} {c' : ChainQuery.Clauses} (hc : c.Denotes T c') (rowType : String) :
      Denotes T (.table c rowType) (.table c' rowType)
  | join {c : Clauses} {c' : ChainQuery.Clauses} (hc : c.Denotes T c') {left right : JoinedTable}
      {left' right' : ChainQuery.JoinedTable} {outerKey innerKey : Scalar}
      {outerKey' innerKey' : ChainQuery.Scalar} {result : Projection}
      {result' : ChainQuery.Projection} {lifted : List SortKey} {lifted' : List ChainQuery.SortKey}
      (hleft : left.Denotes T left') (hright : right.Denotes T right')
      (houter : outerKey.Denotes T outerKey') (hinner : innerKey.Denotes T innerKey')
      (hresult : result.Denotes T result') (hlifted : List.Forall₂ (SortKey.Denotes T) lifted lifted') :
      Denotes T (.join c left right outerKey innerKey result lifted)
        (.join c' left' right' outerKey' innerKey' result' lifted')
  | crossJoin {c : Clauses} {c' : ChainQuery.Clauses} (hc : c.Denotes T c') {left right : Statement}
      {left' right' : ChainQuery.Statement} {leftRow rightRow : TypeId} {leftType rightType : Ty}
      {result : Projection} {result' : ChainQuery.Projection} (hleft : Denotes T left left')
      (hright : Denotes T right right') (hleftRow : T.Names leftRow leftType)
      (hrightRow : T.Names rightRow rightType) (hresult : result.Denotes T result') :
      Denotes T (.crossJoin c left right leftRow rightRow result)
        (.crossJoin c' left' right' leftType rightType result')

namespace Statement.Denotes

variable {s : Statement} {s' : ChainQuery.Statement}

theorem mono (h : s.Denotes T s') (hle : T ≤ T') : s.Denotes T' s' := by
  induction h with
  | table hc rowType => exact .table (hc.mono hle) rowType
  | join hc hleft hright houter hinner hresult hlifted =>
    exact .join (hc.mono hle) (hleft.mono hle) (hright.mono hle) (houter.mono hle) (hinner.mono hle)
      (hresult.mono hle) (hlifted.imp fun _ _ hk => hk.mono hle)
  | crossJoin hc _ _ hleftRow hrightRow hresult ihl ihr =>
    exact .crossJoin (hc.mono hle) ihl ihr (hleftRow.mono hle) (hrightRow.mono hle)
      (hresult.mono hle)

theorem clauses (h : s.Denotes T s') : s.clauses.Denotes T s'.clauses := by
  cases h with
  | table hc => exact hc
  | join hc => exact hc
  | crossJoin hc => exact hc

theorem checked (h : s.Denotes T s') : Follows T Statement.Denotes s.checked s'.checked :=
  h.clauses.check.bind fun _ hle _ _ _ => .pure (h.mono hle)

end Statement.Denotes

/-! ## 3. Gathering -/

/-- A table under orderings is the same table under orderings that stand for each other. -/
theorem toJoinedTable_follows (q : Query) {c : Clauses} {c' : ChainQuery.Clauses}
    (hc : c.Denotes T c') :
    Follows T (fun T x y => x.1.Denotes T y.1 ∧ List.Forall₂ (SortKey.Denotes T) x.2 y.2)
      (toJoinedTable env q c) (q.toJoinedTable env c') := by
  induction q generalizing T c c' with
  | table rowType =>
    simp only [toJoinedTable, Query.toJoinedTable]
    split
    · exact .throw _
    · refine (Follows.lift _).bind ?_
      rintro T₁ hle₁ info _ rfl
      refine (hc.mono hle₁).check.bind fun T₂ hle₂ _ _ _ => ?_
      refine (Follows.identify (.row rowType)).bind fun T₃ hle₃ row _ hrow => ?_
      exact .pure ⟨⟨hrow, rfl, rfl⟩, (hc.mono (le_trans hle₁ (le_trans hle₂ hle₃))).sortKeys⟩
  | orderBy source key kind ih =>
    simp only [toJoinedTable, Query.toJoinedTable]
    split
    · exact ih (hc.withUnsupported _)
    · exact (readOrdering_follows key kind).bind fun T₁ hle₁ _ _ ho =>
        ih ((hc.mono hle₁).withOrdering ho)
  | select | filter | join | crossJoin | call => exact .throw _

/-- Whether the sides of a join are the same comes out alike. -/
theorem JoinedTable.Denotes.row_beq_eq (hT : T.Fits) {left right : JoinedTable}
    {left' right' : ChainQuery.JoinedTable} (hl : left.Denotes T left') (hr : right.Denotes T right') :
    (left.row == right.row) = (left'.rowType == right'.rowType) := by
  rw [hl.row.beq_eq hT hr.row, Bool.eq_iff_iff, beq_iff_eq, beq_iff_eq, Ty.row.injEq]

/-- **A join is gathered alike**: its sides are the same table in both or in none. -/
theorem gather_join_follows (outer inner : Query) (outerKey innerKey result : Lambda) {c : Clauses}
    {c' : ChainQuery.Clauses} (hc : c.Denotes T c') :
    Follows T Statement.Denotes (gather env (.join outer inner outerKey innerKey result) c)
      (Query.gather env (.join outer inner outerKey innerKey result) c') := by
  simp only [gather, Query.gather]
  refine (read_follows env 1 outerKey).bind fun T₁ hle₁ _ _ hp => ?_
  refine (read_follows env 1 innerKey).bind fun T₂ hle₂ _ _ hq => ?_
  refine (read_follows env 2 result).bind fun T₃ hle₃ _ _ hr => ?_
  refine (toJoinedTable_follows outer Clauses.denotes_empty).bind fun T₄ hle₄ x x' hx => ?_
  refine (toJoinedTable_follows inner Clauses.denotes_empty).bind fun T₅ hle₅ y y' hy => ?_
  refine Follows.of_fits fun hT => ?_
  have hleft : x.1.Denotes T₅ x'.1 := hx.1.mono hle₅
  rw [hleft.row_beq_eq hT hy.1, hleft.rowType]
  split
  · exact .throw _
  · have hle₃₅ : T₃ ≤ T₅ := le_trans hle₄ hle₅
    have hle₂₅ : T₂ ≤ T₅ := le_trans hle₃ hle₃₅
    have hle₁₅ : T₁ ≤ T₅ := le_trans hle₂ hle₂₅
    exact .pure (.join (hc.mono (le_trans hle₁ hle₁₅)) hleft hy.1 (hp.body.mono hle₁₅)
      (hq.body.mono hle₂₅) (hr.mono hle₃₅)
      (List.rel_append (hx.2.imp fun _ _ hk => hk.mono hle₅) hy.2))

/-- **A cross join is gathered alike** if its sides are. -/
theorem gather_crossJoin_follows {source collection : Query} (result : Lambda)
    (hsource : ∀ T, Follows T Statement.Denotes (gather env source {}) (source.gather env {}))
    (hcollection : ∀ T, Follows T Statement.Denotes (gather env collection {})
      (collection.gather env {})) {c : Clauses} {c' : ChainQuery.Clauses} (hc : c.Denotes T c') :
    Follows T Statement.Denotes (gather env (.crossJoin source collection result) c)
      (Query.gather env (.crossJoin source collection result) c') := by
  simp only [gather, Query.gather]
  have hmeet : Traced.meetAll [result.rowTypes.1, result.rowTypes.2]
      = Traced.meet result.rowTypes.1 >>= fun _ => Traced.meet result.rowTypes.2 := rfl
  rw [hmeet]
  simp only [Traced.bind_assoc]
  refine (read_follows env 2 result).bind fun T₁ hle₁ _ _ hp => ?_
  refine (Follows.identify result.rowTypes.1).bind fun T₂ hle₂ leftRow _ hleftRow => ?_
  refine (Follows.identify result.rowTypes.2).bind fun T₃ hle₃ rightRow _ hrightRow => ?_
  refine Follows.of_fits fun hT => ?_
  -- the identifiers are compared in the table that knows both
  rw [(hleftRow.mono hle₃).beq_eq hT hrightRow]
  split
  · exact .throw _
  · refine (hsource _).bind fun T₄ hle₄ _ _ hl => ?_
    refine hl.checked.bind fun T₅ hle₅ _ _ hl => ?_
    refine (hcollection _).bind fun T₆ hle₆ _ _ hr => ?_
    refine hr.checked.bind fun T₇ hle₇ _ _ hr => ?_
    have hle₅₇ : T₅ ≤ T₇ := le_trans hle₆ hle₇
    have hle₃₇ : T₃ ≤ T₇ := le_trans hle₄ (le_trans hle₅ hle₅₇)
    have hle₁₇ : T₁ ≤ T₇ := le_trans hle₂ (le_trans hle₃ hle₃₇)
    exact .pure (.crossJoin (hc.mono (le_trans hle₁ hle₁₇)) (hl.mono hle₅₇) hr
      (hleftRow.mono (le_trans hle₃ hle₃₇)) (hrightRow.mono hle₃₇) (hp.mono hle₁₇))

/-- **Gathering a chain in a session follows gathering it without identifiers.** -/
theorem gather_follows (q : Query) {c : Clauses} {c' : ChainQuery.Clauses} (hc : c.Denotes T c') :
    Follows T Statement.Denotes (gather env q c) (q.gather env c') := by
  induction q generalizing T c c' with
  | table rowType =>
    simp only [gather, Query.gather]
    split
    · exact .throw _
    · exact (Follows.lift _).bind fun _ hle _ _ _ => .pure (.table (hc.mono hle) rowType)
  | select source selector ih =>
    simp only [gather, Query.gather, hc.select.isSome_eq]
    split
    · exact ih (hc.withUnsupported _)
    · split
      · exact .throw _
      · refine (read_follows env 1 selector).bind fun T₁ hle₁ p p' hp => ?_
        rw [hp.returnType]
        refine (Follows.identify p'.returnType).bind fun T₂ hle₂ record _ hrecord => ?_
        exact ih ((hc.mono (le_trans hle₁ hle₂)).withSelect ⟨hp.mono hle₂, hrecord⟩)
  | filter source predicate ih =>
    simp only [gather, Query.gather, hc.filter.isSome_eq]
    split
    · exact ih (hc.withUnsupported _)
    · split
      · exact .throw _
      · exact (read_follows env 1 predicate).bind fun T₁ hle₁ _ _ hp =>
          ih ((hc.mono hle₁).withFilter hp)
  | orderBy source key kind ih =>
    simp only [gather, Query.gather]
    split
    · exact ih (hc.withUnsupported _)
    · exact (readOrdering_follows key kind).bind fun T₁ hle₁ _ _ ho =>
        ih ((hc.mono hle₁).withOrdering ho)
  | join outer inner outerKey innerKey result =>
    exact gather_join_follows outer inner outerKey innerKey result hc
  | crossJoin source collection result ihl ihr =>
    exact gather_crossJoin_follows result (fun _ => ihl Clauses.denotes_empty)
      (fun _ => ihr Clauses.denotes_empty) hc
  | call method source args ih => exact ih (hc.withUnsupported _)

/-- **The statement that a session makes of a query stands for the query's statement.** -/
theorem toStatement_follows (q : Query) :
    Follows T Statement.Denotes (toStatement env q) (q.toStatement env) :=
  (gather_follows q Clauses.denotes_empty).bind fun _ _ _ _ hs => hs.checked

end ChainQuery.Session
