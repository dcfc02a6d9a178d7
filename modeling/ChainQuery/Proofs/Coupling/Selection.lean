import ChainQuery.Proofs.Compile.Binding
import ChainQuery.Proofs.Compile.Parts
import ChainQuery.Proofs.Coupling.Gathering
import ChainQuery.Proofs.Sql.Parameters
/-!
# Coupled selections

Coupled statements compile to selections that differ only in their parameters
(`Statement.Coupled.toSelect`).  Scopes are coupled if they bind the columns that may be read alike
(`Scope.Coupled`); they may differ on all others.  Coupled scalars have the same SQL in coupled scopes
up to parameters (`Scalar.resolve_coupled`), and what has SQL holds no row and no record
(`Scalar.plain_of_resolve`).  That is what makes the ordering of cross joins the same in both runs: the
members under which a side hands on its keys have been resolved before.

Aggregates go together by induction on how deep they are nested, if coupled aggregates have coupled
queries (`Coupling.Sound`).
-/

namespace ChainQuery

variable {C : Coupling}

/-- A parameter with its string replaced. -/
def Sql.Param.mapString (f : String → String) : Sql.Param → Sql.Param
  | .string s => .string (f s)
  | .bool b => .bool b
  | .int i => .int i
  | .float x => .float x

theorem Sql.Param.mapString_id : Sql.Param.mapString id = id := by
  funext p
  cases p <;> rfl

/-- What becomes of parameters in the second run. -/
def Coupling.param (C : Coupling) : Sql.Param → Sql.Param := Sql.Param.mapString C.rename

theorem Coupling.param_eq_id {C : Coupling} (h : C.rename = id) : C.param = id := by
  rw [Coupling.param, h, Sql.Param.mapString_id]

/-! ## 1. Scopes -/

/-- **Scopes that bind the columns that may be read alike.** -/
structure Scope.Coupled (C : Coupling) (scope scope' : Scope) : Prop where
  depth : scope.depth = scope'.depth
  column : ∀ ⦃token⦄, C.Reads token → ∀ position,
    C.Agrees (fun e e' => e' = e.mapParams C.param) (scope.column token position)
      (scope'.column token position)

/-- **Ways to compile aggregates that agree in coupled scopes.** -/
def Subqueries.Coupled (C : Coupling) (subqueries subqueries' : Subqueries) : Prop :=
  ∀ ⦃c c'⦄, C.Aggregates c c' → ∀ ⦃scope scope' : Scope⦄, scope.Coupled C scope' →
    C.Agrees (fun s s' => s' = s.mapParams C.param) (subqueries c scope) (subqueries' c' scope')

theorem Literal.toSql_agrees (v : Literal) :
    C.Agrees (fun e e' => e' = e.mapParams C.param) (liftM v.toSql)
      (liftM (v.mapStrings C.rename).toSql) := by
  cases v with
  | null => exact .pure rfl
  | bool | int | float | string => exact .pure rfl
  | list | object => exact .throw _ _

section Resolve

variable {subqueries subqueries' : Subqueries} {scope scope' : Scope} {position : Position}

/-- An operator in both runs: the same side is null, so the operands that are looked at are the
same. -/
theorem Scalar.resolve_binary_coupled (op : BinaryOp) {l l' r r' : Scalar}
    (hleft : l.Coupled C l') (hright : r.Coupled C r')
    (hl : C.Agrees (fun e e' => e' = e.mapParams C.param)
      (l.resolve C.env.dialect subqueries scope position)
      (l'.resolve C.env.dialect subqueries' scope' position))
    (hr : C.Agrees (fun e e' => e' = e.mapParams C.param)
      (r.resolve C.env.dialect subqueries scope position)
      (r'.resolve C.env.dialect subqueries' scope' position)) :
    C.Agrees (fun e e' => e' = e.mapParams C.param)
      ((Scalar.binary op l r).resolve C.env.dialect subqueries scope position)
      ((Scalar.binary op l' r').resolve C.env.dialect subqueries' scope' position) := by
  have hone : ∀ {x y : Traced Sql.Expr}, C.Agrees (fun e e' => e' = e.mapParams C.param) x y →
      ∀ k : Sql.Expr → Sql.Expr, (∀ e, (k e).mapParams C.param = k (e.mapParams C.param)) →
      C.Agrees (fun e e' => e' = e.mapParams C.param) (do return k (← x)) (do return k (← y)) := by
    intro x y hxy k hk
    refine hxy.bind ?_
    rintro e _ _ _ rfl
    exact .pure (hk e).symm
  have hboth : ∀ k : Sql.Expr → Sql.Expr → Sql.Expr,
      (∀ a b, (k a b).mapParams C.param = k (a.mapParams C.param) (b.mapParams C.param)) →
      C.Agrees (fun e e' => e' = e.mapParams C.param)
        (do
          let a ← l.resolve C.env.dialect subqueries scope position
          let b ← r.resolve C.env.dialect subqueries scope position
          return k a b)
        (do
          let a ← l'.resolve C.env.dialect subqueries' scope' position
          let b ← r'.resolve C.env.dialect subqueries' scope' position
          return k a b) := by
    intro k hk
    refine hl.bind ?_
    rintro a _ _ _ rfl
    refine hr.bind ?_
    rintro b _ _ _ rfl
    exact .pure (hk a b).symm
  unfold Scalar.resolve
  rw [← hleft.isNull_eq, ← hright.isNull_eq]
  split
  · exact hone hl _ fun _ => rfl
  · exact hone hr _ fun _ => rfl
  · exact hone hl _ fun _ => rfl
  · exact hone hr _ fun _ => rfl
  · exact hboth .and fun _ _ => rfl
  · exact hboth .or fun _ _ => rfl
  · exact hboth (fun a b => .op a _ b) fun _ _ => rfl

mutual
/-- **Coupled scalars have the same SQL in coupled scopes**, up to parameters. -/
theorem Scalar.resolve_coupled (hsub : Subqueries.Coupled C subqueries subqueries')
    (hscope : Scope.Coupled C scope scope') :
    ∀ {x y : Scalar}, x.Coupled C y →
      C.Agrees (fun e e' => e' = e.mapParams C.param)
        (x.resolve C.env.dialect subqueries scope position)
        (y.resolve C.env.dialect subqueries' scope' position)
  | _, _, .column h => hscope.column h position
  | _, _, .value v => Literal.toSql_agrees v
  | _, _, .null => .pure rfl
  | _, _, .binary op hl hr =>
    Scalar.resolve_binary_coupled op hl hr (Scalar.resolve_coupled hsub hscope hl)
      (Scalar.resolve_coupled hsub hscope hr)
  | _, _, .not h => (Scalar.resolve_coupled hsub hscope h).bind fun _ _ _ _ he =>
    .pure (congrArg Sql.Expr.not he)
  | _, _, .negate h => (Scalar.resolve_coupled hsub hscope h).bind fun _ _ _ _ he =>
    .pure (congrArg Sql.Expr.negate he)
  | _, _, .function f h => (Scalar.resolveList_coupled hsub hscope h).bind fun _ _ _ _ he =>
    .pure (by rw [he, Sql.Expr.mapParams, Sql.Expr.listMapParams_eq_map])
  | _, _, .like w hx hp => (Scalar.resolve_coupled hsub hscope hx).bind fun _ _ _ _ he =>
    (Scalar.resolve_coupled hsub hscope hp).bind fun _ _ _ _ he' =>
      .pure (by rw [he, he', Sql.Expr.mapParams])
  | _, _, .case ht hx hy => (Scalar.resolve_coupled hsub hscope ht).bind fun _ _ _ _ he =>
    (Scalar.resolve_coupled hsub hscope hx).bind fun _ _ _ _ he' =>
      (Scalar.resolve_coupled hsub hscope hy).bind fun _ _ _ _ he'' =>
        .pure (by rw [he, he', he'', Sql.Expr.mapParams])
  | _, _, .subquery h => (hsub h hscope).bind fun _ _ _ _ hs => .pure (congrArg Sql.Expr.subselect hs)
  | _, _, .composite _ _ => .throw _ _

theorem Scalar.resolveList_coupled (hsub : Subqueries.Coupled C subqueries subqueries')
    (hscope : Scope.Coupled C scope scope') :
    ∀ {xs ys : List Scalar}, Scalar.ListCoupled C xs ys →
      C.Agrees (fun es es' => es' = es.map (Sql.Expr.mapParams C.param))
        (Scalar.resolveList C.env.dialect subqueries scope position xs)
        (Scalar.resolveList C.env.dialect subqueries' scope' position ys)
  | _, _, .nil => .pure rfl
  | _, _, .cons h hs => (Scalar.resolve_coupled hsub hscope h).bind fun _ _ _ _ he =>
    (Scalar.resolveList_coupled hsub hscope hs).bind fun _ _ _ _ hes =>
      .pure (by rw [he, hes, List.map_cons])
end

end Resolve

theorem Scalar.plain_of_isNull {x : Scalar} (h : x.isNull = true) : x.Plain := by
  cases x with
  | null => trivial
  | _ => cases h

mutual
/-- **What has SQL holds no row and no record.** -/
theorem Scalar.plain_of_resolve {dialect : Dialect} {subqueries : Subqueries} {scope : Scope}
    {position : Position} : ∀ {x : Scalar} {e : Sql.Expr},
      (x.resolve dialect subqueries scope position).outcome = .ok e → x.Plain
  | .column _, _, _ | .value _, _, _ | .null, _, _ | .subquery _, _, _ => trivial
  | .binary op l r, e, h => by
    rcases Scalar.resolve_binary_cases h with ⟨x, ⟨hnull, hx⟩ | ⟨hnull, hx⟩, _⟩ | ⟨x, y, hx, hy, _⟩
    · exact ⟨Scalar.plain_of_resolve hx, Scalar.plain_of_isNull hnull⟩
    · exact ⟨Scalar.plain_of_isNull hnull, Scalar.plain_of_resolve hx⟩
    · exact ⟨Scalar.plain_of_resolve hx, Scalar.plain_of_resolve hy⟩
  | .not x, e, h => by
    rw [Scalar.resolve] at h
    obtain ⟨_, hx, _⟩ := Traced.bind_eq_ok.mp h
    exact Scalar.plain_of_resolve (x := x) hx
  | .negate x, e, h => by
    rw [Scalar.resolve] at h
    obtain ⟨_, hx, _⟩ := Traced.bind_eq_ok.mp h
    exact Scalar.plain_of_resolve (x := x) hx
  | .function f args, e, h => by
    rw [Scalar.resolve] at h
    obtain ⟨_, hargs, _⟩ := Traced.bind_eq_ok.mp h
    exact Scalar.listPlain_of_resolveList hargs
  | .like x p w, e, h => by
    rw [Scalar.resolve] at h
    obtain ⟨_, hx, h⟩ := Traced.bind_eq_ok.mp h
    obtain ⟨_, hp, _⟩ := Traced.bind_eq_ok.mp h
    exact ⟨Scalar.plain_of_resolve hx, Scalar.plain_of_resolve hp⟩
  | .case t x y, e, h => by
    rw [Scalar.resolve] at h
    obtain ⟨_, ht, h⟩ := Traced.bind_eq_ok.mp h
    obtain ⟨_, hx, h⟩ := Traced.bind_eq_ok.mp h
    obtain ⟨_, hy, _⟩ := Traced.bind_eq_ok.mp h
    exact ⟨Scalar.plain_of_resolve ht, Scalar.plain_of_resolve hx, Scalar.plain_of_resolve hy⟩
  | .composite text, e, h => by cases h

theorem Scalar.listPlain_of_resolveList {dialect : Dialect} {subqueries : Subqueries} {scope : Scope}
    {position : Position} : ∀ {xs : List Scalar} {es : List Sql.Expr},
      (Scalar.resolveList dialect subqueries scope position xs).outcome = .ok es → ListPlain xs
  | [], _, _ => trivial
  | x :: xs, es, h => by
    rw [Scalar.resolveList] at h
    obtain ⟨_, hx, h⟩ := Traced.bind_eq_ok.mp h
    obtain ⟨_, hxs, _⟩ := Traced.bind_eq_ok.mp h
    exact ⟨Scalar.plain_of_resolve hx, Scalar.listPlain_of_resolveList hxs⟩
end

/-! ## 2. The scope of a statement -/

section Frame

variable {subqueries subqueries' : Subqueries} {outer outer' : Option Scope}

/-- The scopes around two statements are coupled, or there are none. -/
def Scope.OuterCoupled (C : Coupling) : Option Scope → Option Scope → Prop :=
  Option.Rel (Scope.Coupled C)

/-- What a source has for a member is a column. -/
theorem Source.exists_column_of_column? {schema : Schema} {owner : Ty} {member : String}
    {position : Position} {source : Source} {e : Sql.Expr}
    (h : source.column? schema owner member position = .ok (some e)) : ∃ ref, e = .column ref := by
  cases source with
  | table rowType label =>
    obtain ⟨_, _, _, rfl | rfl⟩ := Source.column?_table_eq_some h
    · exact ⟨_, rfl⟩
    · exact ⟨_, rfl⟩
  | join left right =>
    obtain ⟨_, _, _, _, rfl⟩ := Source.column?_join_eq_some h
    exact ⟨_, rfl⟩
  | crossJoin left right =>
    obtain ⟨_, _, _, rfl⟩ := Source.column?_crossJoin_eq_some h
    exact ⟨_, rfl⟩

/-- The columns of a source have no parameters. -/
theorem Source.column?_mapParams {schema : Schema} {owner : Ty} {member : String}
    {position : Position} {source : Source} {e : Sql.Expr} (g : Sql.Param → Sql.Param)
    (h : source.column? schema owner member position = .ok (some e)) : e.mapParams g = e := by
  obtain ⟨ref, rfl⟩ := Source.exists_column_of_column? h
  rfl

theorem Frame.bindToSource_coupled (depth : Nat) (source : Source)
    (houter : Scope.OuterCoupled C outer outer') {token : ColumnToken} (htoken : C.Reads token)
    (position : Position) :
    C.Agrees (fun e e' => e' = e.mapParams C.param)
      (Frame.bindToSource C.env ⟨depth, source, outer⟩ token position)
      (Frame.bindToSource C.env' ⟨depth, source, outer'⟩ token position) := by
  unfold Frame.bindToSource
  split
  · exact .throw _ _
  · refine (Coupling.Agrees.lookup (source.column? · _ _ _)
      fun h => source.column?_of_within h _ _ _).bind ?_
    rintro found _ hfound _ rfl
    split
    · exact .pure (Source.column?_mapParams C.param hfound).symm
    · cases houter with
      | some h => exact h.column htoken .predicate
      | none => exact .throw _ _

/-- **The scopes of coupled layers of records are coupled.** -/
theorem Frame.scope_coupled (depth : Nat) (source : Source)
    (houter : Scope.OuterCoupled C outer outer') (hsub : Subqueries.Coupled C subqueries subqueries')
    {layers layers' : List Aliases} (h : List.Forall₂ (Aliases.Coupled C) layers layers') :
    Scope.Coupled C (Frame.scope C.env subqueries ⟨depth, source, outer⟩ layers)
      (Frame.scope C.env' subqueries' ⟨depth, source, outer'⟩ layers') := by
  induction h with
  | nil => exact ⟨rfl, fun token htoken => Frame.bindToSource_coupled depth source houter htoken⟩
  | @cons layer layer' _ _ hlayer _ ih =>
    refine ⟨rfl, fun token htoken position => ?_⟩
    change C.Agrees _ (Frame.bindThrough _ _ _ (layer :: _) _ _)
      (Frame.bindThrough _ _ _ (layer' :: _) _ _)
    have hfound : Option.Rel (Scalar.Coupled C)
        (token.owner?.bind fun owner => layer.lookup (owner, token.member))
        (token.owner?.bind fun owner => layer'.lookup (owner, token.member)) := by
      cases howner : token.owner? with
      | none => exact .none
      | some owner => exact hlayer.lookup (C.shown htoken howner)
    rw [Frame.bindThrough, Frame.bindThrough, C.grows.dialect]
    generalize (token.owner?.bind fun owner => layer.lookup (owner, token.member)) = target at hfound ⊢
    generalize (token.owner?.bind fun owner => layer'.lookup (owner, token.member)) = target' at hfound ⊢
    cases hfound with
    | none => exact ih.column htoken position
    | some htarget => exact Scalar.resolve_coupled hsub ih htarget

end Frame

/-! ## 3. The rows of a statement -/

/-- Members that are offered are shown. -/
theorem Projection.filter_shown {p : Projection} (h : p.Offers C.Shows) :
    (p.aliases.shown C).filter (fun a => a.1.1 == p.returnType)
      = p.aliases.filter fun a => a.1.1 == p.returnType := by
  unfold Aliases.shown
  rw [List.filter_filter]
  refine List.filter_congr fun a ha => ?_
  cases howner : a.1.1 == p.returnType with
  | false => rfl
  | true =>
    have hmember : (a.1.2, a.2) ∈ p.recordMembers :=
      List.mem_map.mpr ⟨a, List.mem_filter.mpr ⟨ha, howner⟩, rfl⟩
    have hshown : C.hidden (p.returnType, a.1.2) = false := h _ hmember p.returnType rfl
    rw [← beq_iff_eq.mp howner] at hshown
    simp [hshown]

/-- **The record that a projection returns has the same members**, with coupled values, if none is
hidden. -/
theorem Projection.Coupled.recordMembers {p p' : Projection} (h : p.Coupled C p')
    (hshown : p.Offers C.Shows) (hshown' : p'.Offers C.Shows) :
    List.Forall₂ (fun m m' => m.1 = m'.1 ∧ m.2.Coupled C m'.2) p.recordMembers p'.recordMembers := by
  have hfilter : List.Forall₂ (fun a b => a.1 = b.1 ∧ a.2.Coupled C b.2)
      (p.aliases.filter fun a => a.1.1 == p.returnType)
      (p'.aliases.filter fun a => a.1.1 == p'.returnType) := by
    have haliases := h.aliases
    have howners : p.returnType ≠ p'.returnType → ∀ a ∈ p.aliases.shown C, a.1.1.isScalar = false :=
      fun hne a ha => h.owners hne a (List.mem_of_mem_filter ha)
    rw [← Projection.filter_shown hshown, ← Projection.filter_shown hshown']
    unfold Aliases.Coupled at haliases
    generalize p.aliases.shown C = aliases at haliases howners ⊢
    generalize p'.aliases.shown C = aliases' at haliases ⊢
    induction haliases with
    | nil => exact .nil
    | @cons a b _ _ hab _ ih =>
      have hsame : (a.1.1 == p.returnType) = (b.1.1 == p'.returnType) := by
        rw [← hab.1]
        rcases h.returnType with heq | ⟨hscalar, hscalar'⟩
        · rw [heq]
        · by_cases heq : p.returnType = p'.returnType
          · rw [heq]
          · -- scalars that differ: neither is the type of a record
            have howner := howners heq a List.mem_cons_self
            have hne : ∀ t : Ty, t.isScalar = true → (a.1.1 == t) = false := by
              rintro t ht
              refine beq_eq_false_iff_ne.mpr fun hat => ?_
              rw [hat, ht] at howner
              cases howner
            rw [hne _ hscalar, hne _ hscalar']
      rw [List.filter_cons, List.filter_cons, hsame]
      have hrest := ih fun hne b hb => howners hne b (List.mem_cons_of_mem _ hb)
      split
      · exact .cons hab hrest
      · exact hrest
  unfold Projection.recordMembers
  exact List.rel_map (fun _ _ hab => ⟨congrArg Prod.snd hab.1, hab.2⟩) hfilter

/-- A projection with members in its record returns the same type in both runs. -/
theorem Projection.Coupled.returnType_eq {p p' : Projection} (h : p.Coupled C p')
    {m : String × Scalar} (hm : m ∈ p.recordMembers) : p.returnType = p'.returnType := by
  by_contra hne
  obtain ⟨a, ha, _⟩ := List.mem_map.mp hm
  obtain ⟨ha, howner⟩ := List.mem_filter.mp ha
  have hscalar := h.owners hne a ha
  rcases h.returnType with heq | ⟨hreturn, _⟩
  · exact hne heq
  · rw [beq_iff_eq.mp howner, hreturn] at hscalar
    cases hscalar

namespace Statement.Coupled

variable {s s' : Statement}

theorem result? (hs : s.Coupled C s') : Option.Rel (Projection.Coupled C) s.result? s'.result? := by
  cases hs with
  | table => exact .none
  | join _ _ _ _ _ hresult => exact .some hresult
  | crossJoin _ _ _ _ _ _ _ hresult => exact .some hresult

theorem layers (hs : s.Coupled C s') : List.Forall₂ (Aliases.Coupled C) s.layers s'.layers :=
  List.rel_map (fun _ _ hp => hp.aliases)
    (List.rel_append hs.clauses.select.toList hs.result?.toList)

/-- The types of the rows are alike. -/
theorem projectionType? (hs : s.Coupled C s') (role : Role) :
    Option.Rel Ty.Alike (s.projectionType? role) (s'.projectionType? role) := by
  have hrefl : ∀ x : Option Ty, Option.Rel Ty.Alike x x := by
    rintro (_ | t)
    · exact .none
    · exact .some (Or.inl rfl)
  have hfilter := hs.clauses.filter.map_eq fun _ _ hp => hp.parameterType
  have horderings := hs.clauses.orderings.map_eq fun _ _ ho => ho.parameterType
  have hrowType : s.rowType? = s'.rowType? := by cases hs <;> rfl
  unfold Statement.projectionType?
  rw [hfilter, ← List.getLast?_map, horderings, List.getLast?_map, hrowType]
  exact (hs.clauses.select.map fun _ _ hp => hp.returnType).orElse
    ((hs.result?.map fun _ _ hp => hp.returnType).orElse (hrefl _))

/-- The members selected under their names. -/
theorem exportedMembers? (hs : s.Coupled C s') {role : Role}
    (hexported : s.clauses.Exported C role s'.clauses) :
    Option.Rel (List.Forall₂ fun m m' => m.1 = m'.1 ∧ m.2.Coupled C m'.2) (s.exportedMembers? role)
      (s'.exportedMembers? role) := by
  rw [Statement.exportedMembers?_eq, Statement.exportedMembers?_eq]
  split
  · rename_i hrole
    have hselect := hs.clauses.select
    have hshown := hexported.shown hrole
    have hshown' := hexported.shown' hrole
    generalize s.clauses.select = select at hselect hshown ⊢
    generalize s'.clauses.select = select' at hselect hshown' ⊢
    cases hselect with
    | none => exact .none
    | @some p p' hp =>
      exact (hp.recordMembers (hshown p rfl) (hshown' p' rfl)).ofNonempty
  · exact .none

/-- The output columns of a side of a cross join are the same in both runs. -/
theorem exports (hs : s.Coupled C s')
    (hexported : s.clauses.Exported C .crossJoinSource s'.clauses) (schema : Schema) :
    s.exports schema = s'.exports schema := by
  have hmembers := hs.exportedMembers? hexported
  have htype := hs.projectionType? .crossJoinSource
  unfold Statement.exports
  generalize s.exportedMembers? .crossJoinSource = members at hmembers ⊢
  generalize s'.exportedMembers? .crossJoinSource = members' at hmembers ⊢
  generalize s.projectionType? .crossJoinSource = t at htype ⊢
  generalize s'.projectionType? .crossJoinSource = t' at htype ⊢
  cases hmembers with
  | some h =>
    exact congrArg Except.ok (h.map_eq fun m m' hm => congrArg (fun name => (name, name)) hm.1)
  | none =>
    cases htype with
    | none => rfl
    | @some t t' halike =>
      rcases halike with rfl | ⟨hscalar, hscalar'⟩
      · rfl
      · cases t with
        | row => cases hscalar
        | _ =>
          cases t' with
          | row => cases hscalar'
          | _ => rfl

/-- **What holds of all coupled scalars holds of those of a coupled statement**: here of its body and
columns, and below of its filter and of the keys of its join. -/
theorem forall_projections {P : Scalar → Prop} (hP : ∀ {x y : Scalar}, x.Coupled C y → P x)
    (hhidden : ∀ key, C.hidden key = false) (hs : s.Coupled C s') :
    ∀ p ∈ s.clauses.select.toList ++ s.result?.toList, ∀ x ∈ p.scalars, P x := by
  have hscalars : ∀ {p p' : Projection}, p.Coupled C p' → ∀ x ∈ p.scalars, P x := by
    intro p p' hp
    refine List.forall_mem_append.mpr ⟨List.forall_mem_cons.mpr ⟨hP hp.body, fun x hx => ?_⟩,
      List.forall_mem_map.mpr fun a ha => ?_⟩
    · obtain ⟨_, _, hx⟩ := hp.columns.exists_of_mem hx
      exact hP hx
    · rw [← Aliases.shown_eq_self hhidden p.aliases] at ha
      obtain ⟨_, _, _, ha⟩ := List.Forall₂.exists_of_mem hp.aliases ha
      exact hP ha
  refine List.forall_mem_append.mpr ⟨fun p hp => ?_, fun p hp => ?_⟩
  · obtain ⟨_, _, hp⟩ := hs.clauses.select.exists_of_eq_some (Option.mem_toList.mp hp)
    exact hscalars hp
  · obtain ⟨_, _, hp⟩ := hs.result?.exists_of_eq_some (Option.mem_toList.mp hp)
    exact hscalars hp

theorem forall_filter {P : Scalar → Prop} (hP : ∀ {x y : Scalar}, x.Coupled C y → P x)
    (hs : s.Coupled C s') : ∀ p, s.clauses.filter = some p → P p.body := by
  intro p hfilter
  obtain ⟨_, _, hp⟩ := hs.clauses.filter.exists_of_eq_some hfilter
  exact hP hp.body

theorem forall_joinKeys {P : Scalar → Prop} (hP : ∀ {x y : Scalar}, x.Coupled C y → P x)
    (hs : s.Coupled C s') : ∀ x ∈ s.joinKeys, P x := by
  cases hs with
  | table | crossJoin => simp [Statement.joinKeys]
  | join _ _ _ houter hinner => simpa [Statement.joinKeys] using ⟨hP houter, hP hinner⟩

end Statement.Coupled

/-! ## 4. The parts of a selection -/

/-- The columns selected by default are the same for types that are alike. -/
theorem Ty.Alike.defaultColumns {t t' : Ty} (h : t.Alike t') :
    C.Agrees Eq (liftM (ChainQuery.defaultColumns C.env.schema t))
      (liftM (ChainQuery.defaultColumns C.env'.schema t')) := by
  rcases h with rfl | ⟨hscalar, hscalar'⟩
  · exact .lookup (ChainQuery.defaultColumns · t) fun h => defaultColumns_of_within h t
  · have hnone : ∀ {t : Ty}, t.isScalar = true → ∀ schema : Schema,
        ∃ e, ChainQuery.defaultColumns schema t = .error e := by
      intro t ht schema
      cases t with
      | row | record => cases ht
      | _ => exact ⟨_, rfl⟩
    obtain ⟨_, h⟩ := hnone hscalar C.env.schema
    obtain ⟨_, h'⟩ := hnone hscalar' C.env'.schema
    rw [h, h']
    exact .throw _ _

/-- What the parts of two selections are bound with. -/
structure Binder.Coupled (C : Coupling) (b b' : Binder) : Prop where
  env : b.env = C.env
  env' : b'.env = C.env'
  subqueries : Subqueries.Coupled C b.subqueries b'.subqueries
  scope : Scope.Coupled C b.scope b'.scope

namespace Binder.Coupled

variable {b b' : Binder} {s s' : Statement}

theorem resolve (hb : b.Coupled C b') (position : Position) {x y : Scalar} (h : x.Coupled C y) :
    C.Agrees (fun e e' => e' = e.mapParams C.param) (b.resolve position x)
      (b'.resolve position y) := by
  unfold Binder.resolve
  rw [hb.env, hb.env', C.grows.dialect]
  exact Scalar.resolve_coupled hb.subqueries hb.scope h

theorem filterExpr (hb : b.Coupled C b') {c c' : Clauses}
    (hfilter : Option.Rel (Projection.Coupled C) c.filter c'.filter) :
    C.Agrees (fun e e' => e' = e.mapParams C.param) (c.filterExpr b) (c'.filterExpr b') := by
  unfold Clauses.filterExpr
  generalize c.filter = filter at hfilter ⊢
  generalize c'.filter = filter' at hfilter ⊢
  cases hfilter with
  | none => exact .pure rfl
  | some hp => exact hb.resolve .predicate hp.body

theorem sortKeys (hb : b.Coupled C b') {keys keys' : List SortKey}
    (h : List.Forall₂ (SortKey.Coupled C) keys keys') :
    C.Agrees (fun es es' => es' = es.map fun key => (key.1.mapParams C.param, key.2))
      (keys.mapM (SortKey.toSql b)) (keys'.mapM (SortKey.toSql b')) := by
  refine Coupling.Agrees.mapM (h.imp fun k k' hk => ?_)
  refine (hb.resolve .predicate hk.key).bind ?_
  rintro e _ _ _ rfl
  exact .pure (by rw [hk.direction])

theorem aggregateList (hb : b.Coupled C b') (hs : s.Coupled C s') (aggregate : Aggregate) :
    C.Agrees (fun list list' => list' = list.mapParams C.param)
      (s.aggregateList b aggregate) (s'.aggregateList b' aggregate) := by
  have hselect := hs.clauses.select
  unfold Statement.aggregateList
  generalize s.clauses.select = select at hselect ⊢
  generalize s'.clauses.select = select' at hselect ⊢
  cases hselect with
  | none =>
    cases aggregate with
    | count => exact .pure rfl
    | sum | min | max | average => exact .throw _ _
  | some hp =>
    cases aggregate with
    | count => exact .pure rfl
    | sum | min | max | average =>
      refine (hb.resolve .selectList hp.body).bind ?_
      rintro e _ _ _ rfl
      exact .pure rfl

/-- **The select list in both runs.** -/
theorem rowList (hb : b.Coupled C b') (hs : s.Coupled C s') {role : Role}
    (hexported : s.clauses.Exported C role s'.clauses) :
    C.Agrees (fun list list' => list' = list.mapParams C.param) (s.rowList b role)
      (s'.rowList b' role) := by
  have hmembers := hs.exportedMembers? hexported
  have htype := hs.projectionType? role
  have hcolumns := (hs.clauses.select.orElse hs.result?).map fun _ _ hp => hp.columns
  unfold Statement.rowList
  rw [hb.env, hb.env']
  generalize s.exportedMembers? role = members at hmembers ⊢
  generalize s'.exportedMembers? role = members' at hmembers ⊢
  cases hmembers with
  | @some members members' h =>
    have hitems : C.Agrees
        (fun items items' => items' = items.map fun item => (item.1, item.2.mapParams C.param))
        (members.mapM fun m => do return (m.1, ← b.resolve .selectList m.2))
        (members'.mapM fun m => do return (m.1, ← b'.resolve .selectList m.2)) := by
      refine Coupling.Agrees.mapM (h.imp fun m m' hm => ?_)
      refine (hb.resolve .selectList hm.2).bind ?_
      rintro e _ _ _ rfl
      exact .pure (by rw [hm.1])
    refine hitems.bind ?_
    rintro items _ _ _ rfl
    exact .pure (by simp [Sql.SelectList.mapParams])
  | none =>
    generalize (s.clauses.select <|> s.result?).map Projection.columns = columns at hcolumns ⊢
    generalize (s'.clauses.select <|> s'.result?).map Projection.columns = columns' at hcolumns ⊢
    generalize s.projectionType? role = t at htype ⊢
    generalize s'.projectionType? role = t' at htype ⊢
    have hdefault : List.Forall₂ (Scalar.Coupled C) (columns.getD []) (columns'.getD []) := by
      cases hcolumns with
      | none => exact .nil
      | some h => exact h
    generalize columns.getD [] = columns at hdefault ⊢
    generalize columns'.getD [] = columns' at hdefault ⊢
    dsimp only
    cases hdefault with
    | nil =>
      cases htype with
      | none => exact .throw _ _
      | some halike =>
        refine halike.defaultColumns.bind ?_
        rintro names _ _ _ rfl
        exact .pure
          (by simp [Sql.SelectList.mapParams, Sql.Expr.bareColumn, Sql.Expr.mapParams])
    | @cons x y xs ys hx hxs =>
      have hitems : C.Agrees (fun items items' => items' = items.map (Sql.Expr.mapParams C.param))
          ((x :: xs).mapM (b.resolve .selectList)) ((y :: ys).mapM (b'.resolve .selectList)) :=
        Coupling.Agrees.mapM ((List.Forall₂.cons hx hxs).imp fun _ _ h => hb.resolve .selectList h)
      refine hitems.bind ?_
      rintro items _ _ _ rfl
      exact .pure (by simp [Sql.SelectList.mapParams])

/-- The select list in both runs, for every role. -/
theorem selectList (hb : b.Coupled C b') (hs : s.Coupled C s') {role : Role}
    (hexported : s.clauses.Exported C role s'.clauses) :
    C.Agrees (fun list list' => list' = list.mapParams C.param) (s.selectList b role)
      (s'.selectList b' role) := by
  cases role with
  | correlated aggregate => exact hb.aggregateList hs aggregate
  | root | crossJoinSource | correlatedPairs => exact hb.rowList hs hexported

end Binder.Coupled

/-! ## 5. Orderings -/

/-- The members that a side of a cross join selects under their names hold no row and no record. -/
theorem Statement.plain_of_selectList {b : Binder} {s : Statement} {list : Sql.SelectList}
    (h : (s.selectList b .crossJoinSource).outcome = .ok list) {p : Projection}
    (hp : s.clauses.select = some p) : ∀ m ∈ p.recordMembers, m.2.Plain := by
  intro m hm
  have hrows : (s.rowList b .crossJoinSource).outcome = .ok list := h
  rw [Statement.rowList, Statement.exportedMembers?_of_mem hp hm] at hrows
  obtain ⟨items, hitems, _⟩ := Traced.bind_eq_ok.mp hrows
  obtain ⟨item, _, hitem⟩ := Traced.exists_mem_of_mapM hitems hm
  obtain ⟨e, he, _⟩ := Traced.bind_eq_ok.mp hitem
  exact Scalar.plain_of_resolve he

/-- **A key restated for the statement around is coupled**, if the members of the record are. -/
theorem SortKey.Coupled.lift {p p' : Projection} (hp : p.Coupled C p') (hreads : p.Offers C.Reads)
    (hshown' : p'.Offers C.Shows) (hplain : ∀ m ∈ p.recordMembers, m.2.Plain) {k k' : SortKey}
    (hk : k.Coupled C k') : (k.lift p).Coupled C (k'.lift p') := by
  have hshown : p.Offers C.Shows := fun m hm => C.shows_of_reads (hreads m hm)
  have hfound := (hp.recordMembers hshown hshown').find?
    fun m hm m' h => h.2.beq_eq hk.key (hplain m hm)
  unfold SortKey.lift
  generalize hfind : p.recordMembers.find? (fun m => m.2 == k.key) = found at hfound ⊢
  generalize p'.recordMembers.find? (fun m => m.2 == k'.key) = found' at hfound ⊢
  cases hfound with
  | none => exact hk
  | @some m m' hm =>
    have hmember := List.mem_of_find?_eq_some hfind
    have hreturn := hp.returnType_eq hmember
    have hcolumn := hreads m hmember
    obtain ⟨member, value⟩ := m
    obtain ⟨_, value'⟩ := m'
    obtain rfl : member = _ := hm.1
    dsimp only
    rw [hreturn] at hcolumn ⊢
    exact ⟨.column hcolumn, hk.direction⟩

/-- The keys that are ordered by, and those that are left, in both runs. -/
theorem Binder.Coupled.order {b b' : Binder} (hb : b.Coupled C b') {c c' : Clauses}
    (hc : c.Coupled C c') {role : Role}
    (hplain : role = .crossJoinSource → ∀ p, c.select = some p → ∀ m ∈ p.recordMembers, m.2.Plain)
    (hexported : c.Exported C role c')
    {keys keys' : List SortKey} (h : List.Forall₂ (SortKey.Coupled C) keys keys') :
    C.Agrees
      (fun x y => y.1 = x.1.map (fun key => (key.1.mapParams C.param, key.2)) ∧
        List.Forall₂ (SortKey.Coupled C) x.2 y.2)
      (c.order b role keys) (c'.order b' role keys') := by
  cases role with
  | root => exact (hb.sortKeys h).bind fun _ _ _ _ he => .pure ⟨he, .nil⟩
  | correlated | correlatedPairs => exact .pure ⟨rfl, .nil⟩
  | crossJoinSource =>
    have hselect := hc.select
    have hmembers := hplain rfl
    have hreads := hexported.read rfl
    have hshown' := hexported.shown' rfl
    unfold Clauses.order
    generalize c.select = select at hselect hmembers hreads ⊢
    generalize c'.select = select' at hselect hshown' ⊢
    cases hselect with
    | none => exact .pure ⟨rfl, h⟩
    | some hp =>
      exact .pure ⟨rfl, List.rel_map
        (fun _ _ hk => hk.lift hp (hreads _ rfl) (hshown' _ rfl) (hmembers _ rfl)) h⟩

/-! ## 6. Selections -/

/-- **What two statements select from**: the same source, in selections that differ only in their
parameters. -/
structure Ground.Coupled (C : Coupling) (ground ground' : Ground) : Prop where
  source : ground.source = ground'.source
  clause : ground'.clause = ground.clause.mapParams C.param
  joins : ∀ ⦃b b'⦄, Binder.Coupled C b b' →
    C.Agrees (fun js js' => js' = js.map (Sql.Join.mapParams C.param)) (ground.joins b)
      (ground'.joins b')
  lifted : List.Forall₂ (SortKey.Coupled C) ground.lifted ground'.lifted

/-- A selection and the keys that it leaves, in both runs. -/
def SelectionCoupled (C : Coupling) (x y : Sql.Select × List SortKey) : Prop :=
  y.1 = x.1.mapParams C.param ∧ List.Forall₂ (SortKey.Coupled C) x.2 y.2

section Selection

variable {subqueries subqueries' : Subqueries} {outer outer' : Option Scope} {s s' : Statement}

/-- **Coupled statements over coupled grounds are coupled selections.** -/
theorem Statement.Coupled.assemble (hs : s.Coupled C s')
    (hsub : Subqueries.Coupled C subqueries subqueries') (houter : Scope.OuterCoupled C outer outer')
    {role : Role} (hexported : s.clauses.Exported C role s'.clauses) (depth : Nat)
    {ground ground' : Ground} (hground : ground.Coupled C ground') :
    C.Agrees (SelectionCoupled C) (s.assemble C.env subqueries outer role depth ground)
      (s'.assemble C.env' subqueries' outer' role depth ground') := by
  obtain ⟨source, clause, joins, lifted⟩ := ground
  obtain ⟨_, clause', joins', lifted'⟩ := ground'
  obtain ⟨rfl, rfl, hjoins, hlifted⟩ := hground
  unfold Statement.assemble
  dsimp only
  have hb : Binder.Coupled C (s.binder C.env subqueries outer depth source)
      (s'.binder C.env' subqueries' outer' depth source) :=
    ⟨rfl, rfl, hsub, Frame.scope_coupled depth source houter hsub hs.layers⟩
  refine (hjoins hb).bind ?_
  rintro joins _ _ _ rfl
  refine (hb.selectList hs hexported).bind ?_
  rintro list _ hlist _ rfl
  refine (hb.filterExpr hs.clauses.filter).bind ?_
  rintro filter _ _ _ rfl
  have hplain : role = .crossJoinSource → ∀ p, s.clauses.select = some p →
      ∀ m ∈ p.recordMembers, m.2.Plain := by
    rintro rfl p hp
    exact Statement.plain_of_selectList hlist hp
  refine (hb.order hs.clauses hplain hexported (List.rel_append hlifted hs.clauses.sortKeys)).bind ?_
  rintro ⟨orderBy, left⟩ ⟨_, left'⟩ _ _ ⟨rfl, hleft⟩
  refine .pure ⟨?_, hleft⟩
  simp [Sql.Select.mapParams]

theorem Ground.table_coupled (depth : Nat) (rowType : String) :
    C.Agrees (Ground.Coupled C) (Ground.table C.env depth rowType)
      (Ground.table C.env' depth rowType) := by
  refine (Coupling.Agrees.lookup (·.rowType rowType) fun h => h.rowType).bind ?_
  rintro info _ _ _ rfl
  refine (Coupling.Agrees.same _).bind fun _ _ _ _ _ => ?_
  exact .pure ⟨rfl, rfl, fun _ _ _ => .pure rfl, .nil⟩

theorem Ground.join_coupled (left right : JoinedTable) {outerKey outerKey' innerKey innerKey' : Scalar}
    (houterKey : outerKey.Coupled C outerKey') (hinnerKey : innerKey.Coupled C innerKey')
    {lifted lifted' : List SortKey} (hlifted : List.Forall₂ (SortKey.Coupled C) lifted lifted') :
    Ground.Coupled C (.join left right outerKey innerKey lifted)
      (.join left right outerKey' innerKey' lifted') := by
  refine ⟨rfl, rfl, fun b b' hb => ?_, hlifted⟩
  refine (hb.resolve .predicate houterKey).bind ?_
  rintro leftKey _ _ _ rfl
  refine (hb.resolve .predicate hinnerKey).bind ?_
  rintro rightKey _ _ _ rfl
  exact .pure rfl

theorem Ground.crossJoin_coupled (left right : DerivedTable) (leftSelect rightSelect : Sql.Select)
    {lifted lifted' : List SortKey} (hlifted : List.Forall₂ (SortKey.Coupled C) lifted lifted') :
    Ground.Coupled C (.crossJoin left right leftSelect rightSelect lifted)
      (.crossJoin left right (leftSelect.mapParams C.param) (rightSelect.mapParams C.param) lifted') :=
  ⟨rfl, rfl, fun _ _ _ => .pure rfl, hlifted⟩

/-- The ground of a cross join, once both sides are compiled. -/
theorem Statement.ground_crossJoin_coupled {c c' : Clauses} {left left' right right' : Statement}
    (hleft : left.Coupled C left') (hright : right.Coupled C right')
    (hleftExported : left.clauses.Exported C .crossJoinSource left'.clauses)
    (hrightExported : right.clauses.Exported C .crossJoinSource right'.clauses) {depth : Nat}
    (hleftSelect : C.Agrees (SelectionCoupled C)
      (left.toSelect C.env subqueries outer .crossJoinSource (depth + 1))
      (left'.toSelect C.env' subqueries' outer' .crossJoinSource (depth + 1)))
    (hrightSelect : C.Agrees (SelectionCoupled C)
      (right.toSelect C.env subqueries outer .crossJoinSource (depth + 1))
      (right'.toSelect C.env' subqueries' outer' .crossJoinSource (depth + 1)))
    (leftRow rightRow : Ty) (result result' : Projection) :
    C.Agrees (Ground.Coupled C)
      ((Statement.crossJoin c left right leftRow rightRow result).ground C.env subqueries outer depth)
      ((Statement.crossJoin c' left' right' leftRow rightRow result').ground C.env' subqueries' outer'
        depth) := by
  rw [Statement.ground, Statement.ground, hleft.exports hleftExported, hright.exports hrightExported]
  refine hleftSelect.bind ?_
  rintro ⟨leftSelect, leftKeys⟩ ⟨_, leftKeys'⟩ _ _ ⟨rfl, hleftKeys⟩
  refine hrightSelect.bind ?_
  rintro ⟨rightSelect, rightKeys⟩ ⟨_, rightKeys'⟩ _ _ ⟨rfl, hrightKeys⟩
  refine (Coupling.Agrees.lookup left'.exports fun h => left'.exports_of_within h).bind ?_
  rintro leftExports _ _ _ rfl
  refine (Coupling.Agrees.lookup right'.exports fun h => right'.exports_of_within h).bind ?_
  rintro rightExports _ _ _ rfl
  exact .pure (Ground.crossJoin_coupled _ _ _ _ (List.rel_append hleftKeys hrightKeys))

/-- **Coupled statements compile to coupled selections.**  The sides of a cross join hand on keys that
are columns of what they select, and these may be read. -/
theorem Statement.Coupled.toSelect (hs : s.Coupled C s')
    (hsub : Subqueries.Coupled C subqueries subqueries') (houter : Scope.OuterCoupled C outer outer')
    {role : Role} (hexported : s.clauses.Exported C role s'.clauses) (depth : Nat) :
    C.Agrees (SelectionCoupled C) (s.toSelect C.env subqueries outer role depth)
      (s'.toSelect C.env' subqueries' outer' role depth) := by
  induction hs generalizing role depth with
  | table hc rowType =>
    exact (Ground.table_coupled depth rowType).bind fun _ _ _ _ hground =>
      (Statement.Coupled.table hc rowType).assemble hsub houter hexported depth hground
  | join hc left right houterKey hinnerKey hresult hlifted =>
    exact (Statement.Coupled.join hc left right houterKey hinnerKey hresult hlifted).assemble hsub
      houter hexported depth (Ground.join_coupled left right houterKey hinnerKey hlifted)
  | crossJoin hc hleft hright hleftExported hrightExported leftRow rightRow hresult ihl ihr =>
    rw [Statement.toSelect_eq, Statement.toSelect_eq]
    refine (Statement.ground_crossJoin_coupled hleft hright hleftExported hrightExported
      (ihl hleftExported (depth + 1)) (ihr hrightExported (depth + 1)) leftRow rightRow _ _).bind ?_
    intro _ _ _ _ hground
    exact (Statement.Coupled.crossJoin hc hleft hright hleftExported hrightExported leftRow rightRow
      hresult).assemble hsub houter hexported depth hground

/-- **Coupled statements select from coupled grounds.** -/
theorem Statement.Coupled.ground (hs : s.Coupled C s')
    (hsub : Subqueries.Coupled C subqueries subqueries') (houter : Scope.OuterCoupled C outer outer')
    (depth : Nat) :
    C.Agrees (Ground.Coupled C) (s.ground C.env subqueries outer depth)
      (s'.ground C.env' subqueries' outer' depth) := by
  cases hs with
  | table hc rowType => exact Ground.table_coupled depth rowType
  | join hc left right houterKey hinnerKey hresult hlifted =>
    exact .pure (Ground.join_coupled left right houterKey hinnerKey hlifted)
  | crossJoin hc hleft hright hleftExported hrightExported leftRow rightRow hresult =>
    exact Statement.ground_crossJoin_coupled hleft hright hleftExported hrightExported
      (hleft.toSelect hsub houter hleftExported _) (hright.toSelect hsub houter hrightExported _)
      leftRow rightRow _ _

end Selection

/-! ## 7. Aggregates and queries -/

/-- **Coupled aggregates have coupled queries.**  The pairs of nested aggregates have no hidden
member. -/
def Coupling.Sound (C : Coupling) : Prop :=
  ∀ ⦃c c'⦄, C.Aggregates c c' →
    c.query.Coupled C c'.query ∧ c.aggregate = c'.aggregate ∧ c.nested = c'.nested ∧
      (c.nested = true → c.query.Exported C .correlatedPairs c'.query)

/-- Nothing that is selected under its name is exported by the outermost statement, or by an
aggregate. -/
theorem Clauses.exported_of_not_exportsMembers {role : Role} (hrole : role.exportsMembers = false)
    (c c' : Clauses) : c.Exported C role c' where
  shown h := by rw [hrole] at h; cases h
  shown' h := by rw [hrole] at h; cases h
  read := by rintro rfl; cases hrole

theorem Aggregate.toSql_mapParams (g : Sql.Param → Sql.Param) (argument : Sql.Expr) (a : Aggregate) :
    (a.toSql argument).mapParams g = a.toSql (argument.mapParams g) := by
  cases a with
  | count => rfl
  | sum | min | max | average => rfl

/-- **Aggregates compile alike in coupled scopes**, if the second run may nest them as deep as the first;
if success carries over to the first run, it may nest them no deeper. -/
theorem Correlated.toSelect_coupled (hC : C.Sound) {levels levels' : Nat} (hle : levels ≤ levels')
    (hconverse : C.converse → levels' ≤ levels) :
    Subqueries.Coupled C (Correlated.toSelect C.env levels) (Correlated.toSelect C.env' levels') := by
  induction levels generalizing levels' with
  | zero =>
    intro c c' _ scope scope' _
    refine ⟨by rintro _ ⟨⟩, fun hback select hselect => ?_⟩
    obtain rfl := Nat.le_zero.mp (hconverse hback)
    cases hselect
  | succ levels ih =>
    cases levels' with
    | zero => exact absurd hle (Nat.not_succ_le_zero levels)
    | succ levels' =>
      have hsub := ih (Nat.le_of_succ_le_succ hle) fun hback => Nat.le_of_succ_le_succ (hconverse hback)
      rintro ⟨query, aggregate, nested⟩ ⟨query', _, _⟩ hc scope scope' hscope
      obtain ⟨hquery, rfl, rfl, hexported⟩ := hC hc
      unfold Correlated.toSelect
      refine hquery.toStatement.bind fun s s' hs hs' hcoupled => ?_
      rw [hscope.depth]
      cases nested with
      | true =>
        have hclauses := (hexported rfl).clauses (Query.toStatement_eq_ok.mp hs)
          (Query.toStatement_eq_ok.mp hs')
        refine (hcoupled.toSelect hsub (.some hscope) hclauses _).bind ?_
        rintro ⟨pairs, _⟩ ⟨_, _⟩ _ _ ⟨rfl, _⟩
        refine .pure ?_
        simp [Sql.Select.fromDerived, Sql.Select.mapParams, Sql.SelectList.mapParams,
          Sql.From.mapParams, Aggregate.toSql_mapParams, Sql.Expr.bareColumn, Sql.Expr.always,
          Sql.Expr.mapParams]
      | false =>
        have hclauses : s.clauses.Exported C (.correlated aggregate) s'.clauses :=
          Clauses.exported_of_not_exportsMembers rfl _ _
        refine (hcoupled.toSelect hsub (.some hscope) hclauses _).bind ?_
        rintro ⟨select, _⟩ ⟨_, _⟩ _ _ ⟨rfl, _⟩
        exact .pure rfl

/-- **Queries of the same operators over lambdas that are read alike compile to selections that differ
only in their parameters.** -/
theorem Query.Coupled.toSelect (hC : C.Sound) {q q' : Query} (hq : q.Coupled C q')
    (hdepth : q'.aggregateDepth = q.aggregateDepth) :
    C.Agrees (fun s s' => s' = s.mapParams C.param) (q.toSelect C.env) (q'.toSelect C.env') := by
  unfold Query.toSelect
  refine hq.toStatement.bind fun s s' _ _ hs => ?_
  have hsub : Subqueries.Coupled C (Correlated.toSelect C.env q.aggregateDepth)
      (Correlated.toSelect C.env' q'.aggregateDepth) :=
    Correlated.toSelect_coupled hC (Nat.le_of_eq hdepth.symm) fun _ => Nat.le_of_eq hdepth
  have hclauses : s.clauses.Exported C .root s'.clauses :=
    Clauses.exported_of_not_exportsMembers rfl _ _
  refine (hs.toSelect hsub .none hclauses 0).bind ?_
  rintro ⟨select, _⟩ ⟨_, _⟩ _ _ ⟨rfl, _⟩
  exact .pure rfl

/-- Where no string is renamed, the selection is the same. -/
theorem Query.Coupled.toSelect_eq (hC : C.Sound) (hrename : C.rename = id) {q q' : Query}
    (hq : q.Coupled C q') (hdepth : q'.aggregateDepth = q.aggregateDepth) {select : Sql.Select}
    (h : (q.toSelect C.env).outcome = .ok select) : (q'.toSelect C.env').outcome = .ok select := by
  obtain ⟨_, hselect, rfl⟩ := (hq.toSelect hC hdepth).forth select h
  rw [Coupling.param_eq_id hrename, Sql.Select.mapParams_id] at hselect
  exact hselect

end ChainQuery
