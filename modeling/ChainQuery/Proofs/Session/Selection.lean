import ChainQuery.Proofs.Compile.Selection
import ChainQuery.Proofs.Session.Gathering
/-!
# Selecting in a session

A session compiles a statement to the selection that the statement has without identifiers
(`Statement.toSelect_follows`), and so a query (`toSelect_follows`).  Scopes stand for each other if
they bind columns that stand for each other to the same SQL (`Scope.Denotes`), now and whenever the
table has grown.  A column that cannot be bound is described alike, since its identifiers still name
the types that it was reached through.
-/

namespace ChainQuery.Session

variable {T T' : TypeTable} {env : Env}

/-! ## 1. Scopes -/

/-- **A scope of a session stands for a scope**: it binds columns to the same SQL. -/
structure Scope.Denotes (T : TypeTable) (scope : Scope) (scope' : ChainQuery.Scope) : Prop where
  depth : scope.depth = scope'.depth
  column : ∀ ⦃T'⦄, T ≤ T' → ∀ ⦃token token'⦄, ColumnToken.Denotes T' token token' →
    ∀ position, Yields T' (scope.column token position) (scope'.column token' position)

theorem Scope.Denotes.mono {scope : Scope} {scope' : ChainQuery.Scope} (h : scope.Denotes T scope')
    (hle : T ≤ T') : scope.Denotes T' scope' :=
  ⟨h.depth, fun _ hle' => h.column (le_trans hle hle')⟩

/-- A way to compile aggregates stands for another: in scopes that stand for each other they give the
same selections. -/
def Subqueries.Denotes (subqueries : Subqueries) (subqueries' : ChainQuery.Subqueries) : Prop :=
  ∀ ⦃T scope scope'⦄, Scope.Denotes T scope scope' →
    ∀ c, Yields T (subqueries c scope) (subqueries' c scope')

section Resolve

variable {subqueries : Subqueries} {subqueries' : ChainQuery.Subqueries} {scope : Scope}
  {scope' : ChainQuery.Scope} {position : Position} {dialect : Dialect}

theorem Scalar.resolve_binary_yields (op : BinaryOp) {l r : Scalar} {l' r' : ChainQuery.Scalar}
    (hleft : l.Denotes T l') (hright : r.Denotes T r')
    (hl : Yields T (l.resolve dialect subqueries scope position)
      (l'.resolve dialect subqueries' scope' position))
    (hr : Yields T (r.resolve dialect subqueries scope position)
      (r'.resolve dialect subqueries' scope' position)) :
    Yields T ((Scalar.binary op l r).resolve dialect subqueries scope position)
      ((ChainQuery.Scalar.binary op l' r').resolve dialect subqueries' scope' position) := by
  have hboth : ∀ k : Sql.Expr → Sql.Expr → Sql.Expr,
      Yields T
        (do
          let a ← l.resolve dialect subqueries scope position
          let b ← r.resolve dialect subqueries scope position
          return k a b)
        (do
          let a ← l'.resolve dialect subqueries' scope' position
          let b ← r'.resolve dialect subqueries' scope' position
          return k a b) :=
    fun k => hl.bind fun a => hr.bind fun b => .pure (k a b)
  unfold Scalar.resolve ChainQuery.Scalar.resolve
  rw [hleft.isNull_eq, hright.isNull_eq]
  cases op with
  | equal | notEqual =>
    cases r'.isNull with
    | true => exact hl.bind fun _ => .pure _
    | false =>
      cases l'.isNull with
      | true => exact hr.bind fun _ => .pure _
      | false => exact hboth _
  | _ => exact hboth _

mutual
/-- **Scalars that stand for each other have the same SQL.** -/
theorem Scalar.resolve_yields (hsub : subqueries.Denotes subqueries')
    (hscope : scope.Denotes T scope') : ∀ {x : Scalar} {y : ChainQuery.Scalar}, x.Denotes T y →
    Yields T (x.resolve dialect subqueries scope position)
      (y.resolve dialect subqueries' scope' position)
  | _, _, .column h => hscope.column (le_refl T) h position
  | _, _, .value v => .lift v.toSql
  | _, _, .null => .pure _
  | _, _, .binary op hl hr => Scalar.resolve_binary_yields op hl hr
    (Scalar.resolve_yields hsub hscope hl) (Scalar.resolve_yields hsub hscope hr)
  | _, _, .not h => (Scalar.resolve_yields hsub hscope h).bind fun _ => .pure _
  | _, _, .negate h => (Scalar.resolve_yields hsub hscope h).bind fun _ => .pure _
  | _, _, .function f h => (Scalar.resolveList_yields hsub hscope h).bind fun _ => .pure _
  | _, _, .like w hx hp => (Scalar.resolve_yields hsub hscope hx).bind fun _ =>
    (Scalar.resolve_yields hsub hscope hp).bind fun _ => .pure _
  | _, _, .case ht hx hy => (Scalar.resolve_yields hsub hscope ht).bind fun _ =>
    (Scalar.resolve_yields hsub hscope hx).bind fun _ =>
      (Scalar.resolve_yields hsub hscope hy).bind fun _ => .pure _
  | _, _, .subquery c => (hsub hscope c).bind fun _ => .pure _
  | _, _, .composite text => .throw _

theorem Scalar.resolveList_yields (hsub : subqueries.Denotes subqueries')
    (hscope : scope.Denotes T scope') : ∀ {xs : List Scalar} {ys : List ChainQuery.Scalar},
    Scalar.ListDenotes T xs ys →
    Yields T (Scalar.resolveList dialect subqueries scope position xs)
      (ChainQuery.Scalar.resolveList dialect subqueries' scope' position ys)
  | _, _, .nil => .pure []
  | _, _, .cons h hs => (Scalar.resolve_yields hsub hscope h).bind fun _ =>
    (Scalar.resolveList_yields hsub hscope hs).bind fun _ => .pure _
end

end Resolve

/-! ## 2. What a statement selects from -/

/-- A selection joined crosswise: the identifier of its rows names their type. -/
structure DerivedTable.Denotes (T : TypeTable) (t : DerivedTable) (t' : ChainQuery.DerivedTable) :
    Prop where
  row : T.Names t.row t'.row
  label : t.label = t'.label
  exports : t.exports = t'.exports

/-- **What a statement selects from in a session stands for what it selects from.** -/
inductive Source.Denotes (T : TypeTable) : Source → ChainQuery.Source → Prop
  | table {row : TypeId} {rowType : String} (hrow : T.Names row (.row rowType)) (label : String) :
      Denotes T (.table row rowType label) (.table rowType label)
  | join {left right : JoinedTable} {left' right' : ChainQuery.JoinedTable}
      (hleft : left.Denotes T left') (hright : right.Denotes T right') :
      Denotes T (.join left right) (.join left' right')
  | crossJoin {left right : DerivedTable} {left' right' : ChainQuery.DerivedTable}
      (hleft : left.Denotes T left') (hright : right.Denotes T right') :
      Denotes T (.crossJoin left right) (.crossJoin left' right')

theorem DerivedTable.Denotes.mono {t : DerivedTable} {t' : ChainQuery.DerivedTable}
    (h : t.Denotes T t') (hle : T ≤ T') : t.Denotes T' t' :=
  ⟨h.row.mono hle, h.label, h.exports⟩

theorem Source.Denotes.mono {s : Source} {s' : ChainQuery.Source} (h : s.Denotes T s')
    (hle : T ≤ T') : s.Denotes T' s' := by
  cases h with
  | table hrow label => exact .table (hrow.mono hle) label
  | join hleft hright => exact .join (hleft.mono hle) (hright.mono hle)
  | crossJoin hleft hright => exact .crossJoin (hleft.mono hle) (hright.mono hle)

theorem JoinedTable.Denotes.column?_eq (hT : T.Fits) {t : JoinedTable} {t' : ChainQuery.JoinedTable}
    (h : t.Denotes T t') (schema : Schema) {n : TypeId} {owner : Ty} (hn : T.Names n owner)
    (member : String) : t.column? schema n member = t'.column? schema owner member := by
  unfold JoinedTable.column? ChainQuery.JoinedTable.column?
  rw [hn.beq_eq hT h.row, h.rowType, h.table]

theorem DerivedTable.Denotes.column?_eq (hT : T.Fits) {t : DerivedTable}
    {t' : ChainQuery.DerivedTable} (h : t.Denotes T t') {n : TypeId} {owner : Ty}
    (hn : T.Names n owner) (member : String) : t.column? n member = t'.column? owner member := by
  unfold DerivedTable.column? ChainQuery.DerivedTable.column?
  rw [hn.beq_eq hT h.row, h.label, h.exports]

/-- **A source has the same column for an identifier as for the type that it names.** -/
theorem Source.Denotes.column?_eq (hT : T.Fits) {s : Source} {s' : ChainQuery.Source}
    (h : s.Denotes T s') (schema : Schema) {n : TypeId} {owner : Ty} (hn : T.Names n owner)
    (member : String) (position : Position) :
    s.column? schema n member position = s'.column? schema owner member position := by
  cases h with
  | table hrow label =>
    cases position <;> simp only [Source.column?, ChainQuery.Source.column?, hn.beq_eq hT hrow]
  | @join left right left' right' hleft hright =>
    have hl := hleft.column?_eq hT schema hn member
    have hr := hright.column?_eq hT schema hn member
    simp only [Source.column?, ChainQuery.Source.column?]
    generalize left.column? schema n member = found at hl ⊢
    cases hl
    cases hfound : left'.column? schema owner member with
    | error e => rfl
    | ok column =>
      cases column with
      | some column => rfl
      | none => exact hr
  | crossJoin hleft hright =>
    simp only [Source.column?, ChainQuery.Source.column?, hleft.column?_eq hT hn,
      hright.column?_eq hT hn]

/-! ## 3. The scope of a statement -/

/-- The owner of a column is the type that the last identifier of its path names. -/
theorem ColumnToken.Denotes.owner? {c : ColumnToken} {d : ChainQuery.ColumnToken}
    (h : c.Denotes T d) : Option.Rel T.Names c.owner? d.owner? := by
  have hpath := List.forall₂_reverse_iff.mpr h.path
  unfold ColumnToken.owner? ChainQuery.ColumnToken.owner?
  rw [List.getLast?_eq_head?_reverse, List.getLast?_eq_head?_reverse]
  generalize c.path.reverse = path at hpath ⊢
  generalize d.path.reverse = types at hpath ⊢
  cases hpath with
  | nil => exact .none
  | cons hn _ => exact .some hn

/-- **A session describes a column by the types that its identifiers name.** -/
theorem ColumnToken.Denotes.describe_yields {c : ColumnToken} {d : ChainQuery.ColumnToken}
    (h : c.Denotes T d) {n : TypeId} {owner : Ty} (hc : c.owner? = some n) (hd : d.owner? = some owner)
    (hn : T.Names n owner) : Yields T c.describe (pure d.describe) := by
  intro T' hle _
  refine ⟨.ok (T'.describe (c.path.map UInt32.toNat) c.member), rfl, .ok ?_⟩
  have hlast : (c.path.map UInt32.toNat).getLast? = some n.toNat := by
    rw [List.getLast?_map]
    exact congrArg (Option.map UInt32.toNat) hc
  -- the identifier was handed out earlier, so the table of now still knows its type
  have hknown : T'.type? n.toNat = some owner := hn.mono hle
  simp only [TypeTable.describe, hlast, Option.bind_some, hknown, ChainQuery.ColumnToken.describe, hd,
    h.member]

section Frame

variable {subqueries : Subqueries} {subqueries' : ChainQuery.Subqueries} {source : Source}
  {source' : ChainQuery.Source} {outer : Option Scope} {outer' : Option ChainQuery.Scope}

theorem Frame.bindToSource_yields (depth : Nat) (hsource : source.Denotes T source')
    (houter : Option.Rel (Scope.Denotes T) outer outer') {token : ColumnToken}
    {token' : ChainQuery.ColumnToken} (htoken : token.Denotes T token') (position : Position) :
    Yields T (Frame.bindToSource env ⟨depth, source, outer⟩ token position)
      (ChainQuery.Frame.bindToSource env ⟨depth, source', outer'⟩ token' position) := by
  have howner := htoken.owner?
  unfold Frame.bindToSource ChainQuery.Frame.bindToSource
  dsimp only
  rw [htoken.member]
  generalize hn : token.owner? = n at howner ⊢
  generalize hd : token'.owner? = owner at howner ⊢
  cases howner with
  | none => exact .throw _
  | some hnames =>
    refine .of_fits fun hT => ?_
    dsimp only
    rw [hsource.column?_eq hT env.schema hnames]
    refine (Yields.lift _).bind fun found => ?_
    cases found with
    | some column => exact .pure column
    | none =>
      cases houter with
      | some h => exact h.column (le_refl T) htoken .predicate
      | none =>
        exact (htoken.describe_yields hn hd hnames).bind fun text => .throw (.unresolvedColumn text)

/-- **The scopes of layers of records that stand for each other do so.** -/
theorem Frame.scope_denotes (depth : Nat) (hsource : source.Denotes T source')
    (houter : Option.Rel (Scope.Denotes T) outer outer') (hsub : subqueries.Denotes subqueries')
    {layers : List Aliases} {layers' : List ChainQuery.Aliases}
    (h : List.Forall₂ (Aliases.Denotes T) layers layers') :
    Scope.Denotes T (Frame.scope env subqueries ⟨depth, source, outer⟩ layers)
      (ChainQuery.Frame.scope env subqueries' ⟨depth, source', outer'⟩ layers') := by
  induction h with
  | nil =>
    exact ⟨rfl, fun T₁ hle _ _ htoken => Frame.bindToSource_yields depth (hsource.mono hle)
      (houter.imp fun _ _ hscope => hscope.mono hle) htoken⟩
  | @cons layer layer' below below' hlayer _ ih =>
    refine ⟨rfl, fun T₁ hle token token' htoken position => .of_fits fun hT => ?_⟩
    change Yields T₁ (Frame.bindThrough _ _ _ (layer :: below) _ _)
      (ChainQuery.Frame.bindThrough _ _ _ (layer' :: below') _ _)
    have hfound : Option.Rel (Scalar.Denotes T₁)
        (token.owner?.bind fun owner => layer.lookup (owner, token.member))
        (token'.owner?.bind fun owner => layer'.lookup (owner, token'.member)) := by
      have howner := htoken.owner?
      rw [htoken.member]
      generalize token.owner? = n at howner ⊢
      generalize token'.owner? = owner at howner ⊢
      cases howner with
      | none => exact .none
      | some hn => exact (hlayer.mono hle).lookup hT hn token'.member
    rw [Frame.bindThrough, ChainQuery.Frame.bindThrough]
    generalize (token.owner?.bind fun owner => layer.lookup (owner, token.member)) = target
      at hfound ⊢
    generalize (token'.owner?.bind fun owner => layer'.lookup (owner, token'.member)) = target'
      at hfound ⊢
    cases hfound with
    | none => exact ih.column hle htoken position
    | some htarget => exact Scalar.resolve_yields hsub (ih.mono hle) htarget

end Frame

/-! ## 4. The rows of a statement -/

/-- The members of records that stand for each other. -/
abbrev MembersDenote (T : TypeTable) :
    List (String × Scalar) → List (String × ChainQuery.Scalar) → Prop :=
  List.Forall₂ fun m m' => m.1 = m'.1 ∧ m.2.Denotes T m'.2

theorem Selector.Denotes.recordMembers (hT : T.Fits) {p : Selector} {p' : ChainQuery.Projection}
    (h : p.Denotes T p') : MembersDenote T p.recordMembers p'.recordMembers := by
  refine List.rel_map (fun _ _ hab => hab.2) (List.rel_filter (fun a b hab => ?_) h.projection.aliases)
  exact Bool.eq_iff_iff.mp (hab.1.beq_eq hT h.record)

namespace Statement.Denotes

variable {s : Statement} {s' : ChainQuery.Statement}

theorem result? (hs : s.Denotes T s') : Option.Rel (Projection.Denotes T) s.result? s'.result? := by
  cases hs with
  | table => exact .none
  | join _ _ _ _ _ hresult => exact .some hresult
  | crossJoin _ _ _ _ _ hresult => exact .some hresult

theorem rowType? (hs : s.Denotes T s') : s.rowType? = s'.rowType? := by
  cases hs <;> rfl

theorem describe (hs : s.Denotes T s') : s.describe = s'.describe := by
  cases hs <;> rfl

theorem select (hs : s.Denotes T s') :
    Option.Rel (Projection.Denotes T) (s.clauses.select.map Selector.toProjection)
      s'.clauses.select := by
  have hselect := hs.clauses.select.map (g := id) fun _ _ hp => hp.projection
  rwa [Option.map_id_apply] at hselect

theorem projection? (hs : s.Denotes T s') :
    Option.Rel (Projection.Denotes T) s.projection? (s'.clauses.select <|> s'.result?) := by
  have hselect := hs.select
  unfold Statement.projection?
  generalize s.clauses.select.map Selector.toProjection = select at hselect ⊢
  generalize s'.clauses.select = select' at hselect ⊢
  cases hselect with
  | some hp => exact .some hp
  | none => exact hs.result?

theorem layers (hs : s.Denotes T s') : List.Forall₂ (Aliases.Denotes T) s.layers s'.layers :=
  List.rel_map (fun _ _ hp => hp.aliases) (List.rel_append hs.select.toList hs.result?.toList)

theorem projectionType? (hs : s.Denotes T s') (role : Role) :
    s.projectionType? role = s'.projectionType? role := by
  have hprojection := hs.projection?.map_eq fun _ _ hp => hp.returnType
  have hfilter := hs.clauses.filter.map_eq fun _ _ hp => hp.parameterType
  have horderings := hs.clauses.orderings.map_eq fun _ _ ho => ho.parameterType
  unfold Statement.projectionType? ChainQuery.Statement.projectionType?
  rw [hprojection, hfilter, ← List.getLast?_map, horderings, List.getLast?_map, hs.rowType?]
  cases s'.clauses.select with
  | some p => rfl
  | none =>
    cases s'.result? with
    | some p => rfl
    | none => rfl

/-- The members selected under their names. -/
theorem exportedMembers? (hT : T.Fits) (hs : s.Denotes T s') (role : Role) :
    Option.Rel (MembersDenote T) (s.exportedMembers? role) (s'.exportedMembers? role) := by
  have hselect := hs.clauses.select
  rw [ChainQuery.Statement.exportedMembers?_eq]
  unfold Statement.exportedMembers?
  generalize s.clauses.select = select at hselect ⊢
  generalize s'.clauses.select = select' at hselect ⊢
  cases role.exportsMembers with
  | false => exact .none
  | true =>
    cases hselect with
    | none => exact .none
    | some hp => exact (hp.recordMembers hT).ofNonempty

/-- The output columns of a side of a cross join are the same. -/
theorem exports_eq (hT : T.Fits) (hs : s.Denotes T s') (schema : Schema) :
    s.exports schema = s'.exports schema := by
  have hmembers := hs.exportedMembers? hT .crossJoinSource
  unfold Statement.exports ChainQuery.Statement.exports
  rw [hs.projectionType?]
  generalize s.exportedMembers? .crossJoinSource = members at hmembers ⊢
  generalize s'.exportedMembers? .crossJoinSource = members' at hmembers ⊢
  cases hmembers with
  | none => rfl
  | some h =>
    exact congrArg Except.ok (h.map_eq fun m m' hm => congrArg (fun name => (name, name)) hm.1)

end Statement.Denotes

/-! ## 5. The parts of a selection -/

/-- What the parts of a selection are bound with. -/
structure Binder.Denotes (T : TypeTable) (b : Binder) (b' : ChainQuery.Binder) : Prop where
  env : b.env = b'.env
  subqueries : b.subqueries.Denotes b'.subqueries
  scope : b.scope.Denotes T b'.scope

namespace Binder.Denotes

variable {b : Binder} {b' : ChainQuery.Binder} {s : Statement} {s' : ChainQuery.Statement}

theorem mono (h : b.Denotes T b') (hle : T ≤ T') : b.Denotes T' b' :=
  { h with scope := h.scope.mono hle }

theorem resolve (hb : b.Denotes T b') (position : Position) {x : Scalar} {y : ChainQuery.Scalar}
    (h : x.Denotes T y) : Yields T (b.resolve position x) (b'.resolve position y) := by
  unfold Binder.resolve ChainQuery.Binder.resolve
  rw [hb.env]
  exact Scalar.resolve_yields hb.subqueries hb.scope h

theorem filterExpr (hb : b.Denotes T b') {c : Clauses} {c' : ChainQuery.Clauses}
    (hc : c.Denotes T c') : Yields T (c.filterExpr b) (c'.filterExpr b') := by
  have hfilter := hc.filter
  unfold Clauses.filterExpr ChainQuery.Clauses.filterExpr
  generalize c.filter = filter at hfilter ⊢
  generalize c'.filter = filter' at hfilter ⊢
  cases hfilter with
  | none => exact .pure _
  | some hp => exact hb.resolve .predicate hp.body

theorem sortKeys (hb : b.Denotes T b') {keys : List SortKey} {keys' : List ChainQuery.SortKey}
    (h : List.Forall₂ (SortKey.Denotes T) keys keys') :
    Yields T (keys.mapM (SortKey.toSql b)) (keys'.mapM (ChainQuery.SortKey.toSql b')) := by
  refine .mapM (h.imp fun k k' hk => ?_)
  unfold SortKey.toSql ChainQuery.SortKey.toSql
  rw [hk.direction]
  exact (hb.resolve .predicate hk.key).bind fun _ => .pure _

theorem aggregateList (hb : b.Denotes T b') (hs : s.Denotes T s') (aggregate : Aggregate) :
    Yields T (s.aggregateList b aggregate) (s'.aggregateList b' aggregate) := by
  have hselect := hs.clauses.select
  unfold Statement.aggregateList ChainQuery.Statement.aggregateList
  rw [hs.describe]
  generalize s.clauses.select = select at hselect ⊢
  generalize s'.clauses.select = select' at hselect ⊢
  cases hselect with
  | none =>
    cases aggregate with
    | count => exact .pure _
    | sum | min | max | average => exact .throw _
  | some hp =>
    cases aggregate with
    | count => exact .pure _
    | sum | min | max | average =>
      exact (hb.resolve .selectList hp.projection.body).bind fun _ => .pure _

/-- **The select list in a session** is the one without identifiers. -/
theorem rowList (hb : b.Denotes T b') (hs : s.Denotes T s') (role : Role) :
    Yields T (s.rowList b role) (s'.rowList b' role) := by
  refine .of_fits fun hT => ?_
  have hmembers := hs.exportedMembers? hT role
  unfold Statement.rowList ChainQuery.Statement.rowList
  rw [hs.projectionType?, hs.describe, hb.env]
  generalize s.exportedMembers? role = members at hmembers ⊢
  generalize s'.exportedMembers? role = members' at hmembers ⊢
  cases hmembers with
  | @some members members' h =>
    have hitems : Yields T (members.mapM fun m => do return (m.1, ← b.resolve .selectList m.2))
        (members'.mapM fun m => do return (m.1, ← b'.resolve .selectList m.2)) := by
      refine .mapM (h.imp fun m m' hm => ?_)
      rw [hm.1]
      exact (hb.resolve .selectList hm.2).bind fun _ => .pure _
    exact hitems.bind fun _ => .pure _
  | none =>
    have hprojection := hs.projection?
    dsimp only
    generalize s.projection? = chosen at hprojection ⊢
    generalize (s'.clauses.select <|> s'.result?) = chosen' at hprojection ⊢
    have hcolumns : List.Forall₂ (Scalar.Denotes T) ((chosen.map Projection.columns).getD [])
        ((chosen'.map ChainQuery.Projection.columns).getD []) := by
      cases hprojection with
      | none => exact .nil
      | some hp => exact hp.columns
    generalize (chosen.map Projection.columns).getD [] = columns at hcolumns ⊢
    generalize (chosen'.map ChainQuery.Projection.columns).getD [] = columns' at hcolumns ⊢
    cases hcolumns with
    | nil =>
      cases s'.projectionType? role with
      | none => exact .throw _
      | some t => exact (Yields.lift _).bind fun _ => .pure _
    | cons hx hxs =>
      exact (Yields.mapM ((List.Forall₂.cons hx hxs).imp fun _ _ h =>
        hb.resolve .selectList h)).bind fun _ => .pure _

theorem selectList (hb : b.Denotes T b') (hs : s.Denotes T s') (role : Role) :
    Yields T (s.selectList b role) (s'.selectList b' role) := by
  cases role with
  | correlated aggregate => exact hb.aggregateList hs aggregate
  | root => exact hb.rowList hs .root
  | crossJoinSource => exact hb.rowList hs .crossJoinSource
  | correlatedPairs => exact hb.rowList hs .correlatedPairs

end Binder.Denotes

/-! ## 6. Orderings -/

/-- **A key restated for the statement around is the same member of the same record.** -/
theorem SortKey.Denotes.lift (hT : T.Fits) {p : Selector} {p' : ChainQuery.Projection}
    (hp : p.Denotes T p') {k : SortKey} {k' : ChainQuery.SortKey} (hk : k.Denotes T k') :
    (k.lift p).Denotes T (k'.lift p') := by
  have hfound := (hp.recordMembers hT).find? fun _ _ _ h => h.2.beq_eq hT hk.key
  unfold SortKey.lift ChainQuery.SortKey.lift
  generalize p.recordMembers.find? (fun m => m.2 == k.key) = found at hfound ⊢
  generalize p'.recordMembers.find? (fun m => m.2 == k'.key) = found' at hfound ⊢
  cases hfound with
  | none => exact hk
  | @some m m' hm => exact ⟨.column ⟨.cons hp.record .nil, hm.1⟩, hk.direction⟩

/-- The keys that are ordered by are the same, and those that are left stand for each other. -/
theorem Binder.Denotes.order {b : Binder} {b' : ChainQuery.Binder} (hb : b.Denotes T b')
    {c : Clauses} {c' : ChainQuery.Clauses} (hc : c.Denotes T c') (role : Role)
    {keys : List SortKey} {keys' : List ChainQuery.SortKey}
    (h : List.Forall₂ (SortKey.Denotes T) keys keys') :
    Follows T (fun T x y => x.1 = y.1 ∧ List.Forall₂ (SortKey.Denotes T) x.2 y.2)
      (c.order b role keys) (c'.order b' role keys') := by
  cases role with
  | root => exact (hb.sortKeys h).follows.bind fun _ _ _ _ he => .pure ⟨he, .nil⟩
  | correlated | correlatedPairs => exact .pure ⟨rfl, .nil⟩
  | crossJoinSource =>
    refine .of_fits fun hT => ?_
    have hselect := hc.select
    unfold Clauses.order ChainQuery.Clauses.order
    generalize c.select = select at hselect ⊢
    generalize c'.select = select' at hselect ⊢
    cases hselect with
    | none => exact .pure ⟨rfl, h⟩
    | some hp =>
      exact .pure ⟨rfl, List.rel_map (fun _ _ hk => hk.lift hT hp) h⟩

/-! ## 7. Selections -/

/-- **What a statement selects from, ready to be put into a selection.** -/
structure Ground.Denotes (T : TypeTable) (ground : Ground) (ground' : ChainQuery.Ground) : Prop where
  source : ground.source.Denotes T ground'.source
  clause : ground.clause = ground'.clause
  joins : ∀ ⦃b b'⦄, Binder.Denotes T b b' → Yields T (ground.joins b) (ground'.joins b')
  lifted : List.Forall₂ (SortKey.Denotes T) ground.lifted ground'.lifted

/-- A selection and the keys that it leaves to the statement around. -/
def SelectionDenotes (T : TypeTable) (x : Sql.Select × List SortKey)
    (y : Sql.Select × List ChainQuery.SortKey) : Prop :=
  x.1 = y.1 ∧ List.Forall₂ (SortKey.Denotes T) x.2 y.2

section Selection

variable {subqueries : Subqueries} {subqueries' : ChainQuery.Subqueries} {outer : Option Scope}
  {outer' : Option ChainQuery.Scope}

/-- **Statements over what they select from give the same selection.** -/
theorem Statement.assemble_follows (hsub : subqueries.Denotes subqueries')
    (houter : Option.Rel (Scope.Denotes T) outer outer') {s : Statement} {s' : ChainQuery.Statement}
    (hs : s.Denotes T s') (role : Role) (depth : Nat) {ground : Ground}
    {ground' : ChainQuery.Ground} (hground : ground.Denotes T ground') :
    Follows T SelectionDenotes (s.assemble env subqueries outer role depth ground)
      (s'.assemble env subqueries' outer' role depth ground') := by
  obtain ⟨source, clause, joins, lifted⟩ := ground
  obtain ⟨source', _, joins', lifted'⟩ := ground'
  obtain ⟨hsource, rfl, hjoins, hlifted⟩ := hground
  unfold Statement.assemble ChainQuery.Statement.assemble
  dsimp only
  have hb : Binder.Denotes T
      ⟨env, subqueries, Frame.scope env subqueries ⟨depth, source, outer⟩ s.layers⟩
      ⟨env, subqueries', ChainQuery.Frame.scope env subqueries' ⟨depth, source', outer'⟩ s'.layers⟩ :=
    ⟨rfl, hsub, Frame.scope_denotes depth hsource houter hsub hs.layers⟩
  have hkeys := List.rel_append hlifted hs.clauses.sortKeys
  refine (hjoins hb).follows.bind ?_
  rintro T₁ hle₁ joins _ rfl
  refine ((hb.selectList hs role).mono hle₁).follows.bind ?_
  rintro T₂ hle₂ list _ rfl
  have hle₀₂ : T ≤ T₂ := le_trans hle₁ hle₂
  refine ((hb.filterExpr hs.clauses).mono hle₀₂).follows.bind ?_
  rintro T₃ hle₃ filter _ rfl
  have hle₀₃ : T ≤ T₃ := le_trans hle₀₂ hle₃
  refine ((hb.mono hle₀₃).order (hs.clauses.mono hle₀₃) role
    (hkeys.imp fun _ _ hk => hk.mono hle₀₃)).bind ?_
  rintro T₄ _ ⟨orderBy, left⟩ ⟨_, left'⟩ ⟨rfl, hleft⟩
  exact .pure ⟨rfl, hleft⟩

theorem Ground.table_follows (depth : Nat) (rowType : String) :
    Follows T Ground.Denotes (Ground.table env depth rowType)
      (ChainQuery.Ground.table env depth rowType) := by
  refine (Follows.lift _).bind ?_
  rintro T₁ _ info _ rfl
  refine (Follows.identify (.row rowType)).bind fun T₂ _ row _ hrow => ?_
  exact .pure ⟨.table hrow _, rfl, fun _ _ _ => .pure [], .nil⟩

theorem Ground.join_denotes {left right : JoinedTable} {left' right' : ChainQuery.JoinedTable}
    (hleft : left.Denotes T left') (hright : right.Denotes T right') {outerKey innerKey : Scalar}
    {outerKey' innerKey' : ChainQuery.Scalar} (houterKey : outerKey.Denotes T outerKey')
    (hinnerKey : innerKey.Denotes T innerKey') {lifted : List SortKey}
    {lifted' : List ChainQuery.SortKey} (hlifted : List.Forall₂ (SortKey.Denotes T) lifted lifted') :
    Ground.Denotes T (.join left right outerKey innerKey lifted)
      (.join left' right' outerKey' innerKey' lifted') := by
  refine ⟨.join hleft hright, ?_, fun b b' hb => ?_, hlifted⟩
  · simp only [Ground.join, ChainQuery.Ground.join, hleft.table]
  · simp only [Ground.join, ChainQuery.Ground.join, hright.table]
    exact (hb.resolve .predicate houterKey).bind fun _ =>
      (hb.resolve .predicate hinnerKey).bind fun _ => .pure _

/-- **A session compiles a statement to the selection that it stands for**, from every table that its
own has grown to. -/
theorem Statement.toSelect_follows (hsub : subqueries.Denotes subqueries')
    (houter : Option.Rel (Scope.Denotes T) outer outer') {s : Statement} {s' : ChainQuery.Statement}
    (hs : s.Denotes T s') (role : Role) (depth : Nat) (hle : T ≤ T') :
    Follows T' SelectionDenotes (s.toSelect env subqueries outer role depth)
      (s'.toSelect env subqueries' outer' role depth) := by
  have houter' : ∀ {T''}, T ≤ T'' → Option.Rel (Scope.Denotes T'') outer outer' :=
    fun hle => houter.imp fun _ _ hscope => hscope.mono hle
  induction hs generalizing T' role depth with
  | table hc rowType =>
    refine (Ground.table_follows depth rowType).bind fun T₁ hle₁ _ _ hground => ?_
    have hle₁ : T ≤ T₁ := le_trans hle hle₁
    exact Statement.assemble_follows hsub (houter' hle₁) (.table (hc.mono hle₁) rowType) role depth
      hground
  | join hc hleft hright houterKey hinnerKey hresult hlifted =>
    have hs := (Statement.Denotes.join hc hleft hright houterKey hinnerKey hresult hlifted).mono hle
    have hground := Ground.join_denotes (hleft.mono hle) (hright.mono hle) (houterKey.mono hle)
      (hinnerKey.mono hle) (hlifted.imp fun _ _ hk => hk.mono hle)
    exact Statement.assemble_follows hsub (houter' hle) hs role depth hground
  | crossJoin hc hleft hright hleftRow hrightRow hresult ihl ihr =>
    rw [Statement.toSelect, ChainQuery.Statement.toSelect]
    refine (ihl .crossJoinSource (depth + 1) hle).bind ?_
    rintro T₁ hle₁ ⟨leftSelect, leftKeys⟩ ⟨_, leftKeys'⟩ ⟨rfl, hleftKeys⟩
    refine (ihr .crossJoinSource (depth + 1) (le_trans hle hle₁)).bind ?_
    rintro T₂ hle₂ ⟨rightSelect, rightKeys⟩ ⟨_, rightKeys'⟩ ⟨rfl, hrightKeys⟩
    have hle₀₂ : T ≤ T₂ := le_trans hle (le_trans hle₁ hle₂)
    refine .of_fits fun hT => ?_
    rw [(hleft.mono hle₀₂).exports_eq hT, (hright.mono hle₀₂).exports_eq hT]
    refine (Follows.lift _).bind ?_
    rintro T₃ hle₃ leftExports _ rfl
    refine (Follows.lift _).bind ?_
    rintro T₄ hle₄ rightExports _ rfl
    have hle₂₄ : T₂ ≤ T₄ := le_trans hle₃ hle₄
    have hle₀₄ : T ≤ T₄ := le_trans hle₀₂ hle₂₄
    have hs := (Statement.Denotes.crossJoin hc hleft hright hleftRow hrightRow hresult).mono hle₀₄
    refine Statement.assemble_follows hsub (houter' hle₀₄) hs role depth ?_
    have hkeys := List.rel_append (hleftKeys.imp fun _ _ hk => hk.mono hle₂) hrightKeys
    exact ⟨.crossJoin ⟨hleftRow.mono hle₀₄, rfl, rfl⟩ ⟨hrightRow.mono hle₀₄, rfl, rfl⟩, rfl,
      fun _ _ _ => .pure _, hkeys.imp fun _ _ hk => hk.mono hle₂₄⟩

end Selection

/-! ## 8. Aggregates and queries -/

/-- **A session compiles aggregates to the same selections.** -/
theorem subselect_denotes (levels : Nat) :
    Subqueries.Denotes (subselect env levels) (Correlated.toSelect env levels) := by
  induction levels with
  | zero => exact fun _ _ _ _ _ => .throw _
  | succ levels ih =>
    intro T scope scope' hscope c T₁ hle₁
    rw [subselect, Correlated.toSelect]
    refine (toStatement_follows c.query).bind fun T₂ hle₂ s s' hs => ?_
    rw [hscope.depth]
    have houter : Option.Rel (Scope.Denotes T₂) (some scope) (some scope') :=
      .some (hscope.mono (le_trans hle₁ hle₂))
    dsimp only
    split
    · refine (Statement.toSelect_follows ih houter hs _ _ (le_refl T₂)).bind ?_
      rintro T₃ _ ⟨pairs, _⟩ ⟨_, _⟩ ⟨rfl, _⟩
      exact .pure rfl
    · refine (Statement.toSelect_follows ih houter hs _ _ (le_refl T₂)).bind ?_
      rintro T₃ _ ⟨select, _⟩ ⟨_, _⟩ ⟨rfl, _⟩
      exact .pure rfl

/-- **A session compiles a query to the selection that the query has without identifiers.** -/
theorem toSelect_follows (q : Query) : Follows T (fun _ => Eq) (toSelect env q) (q.toSelect env) := by
  refine (toStatement_follows q).bind fun T₁ _ s s' hs => ?_
  refine (Statement.toSelect_follows (subselect_denotes q.aggregateDepth) .none hs .root 0
    (le_refl T₁)).bind ?_
  rintro T₂ _ ⟨select, _⟩ ⟨_, _⟩ ⟨rfl, _⟩
  exact .pure rfl

end ChainQuery.Session
