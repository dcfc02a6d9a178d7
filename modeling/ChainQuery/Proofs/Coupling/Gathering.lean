import ChainQuery.Compile.Select
import ChainQuery.Proofs.Compile.Gathering
import ChainQuery.Proofs.Compile.Recording
import ChainQuery.Proofs.Coupling.Reading
/-!
# Coupled statements

Queries of the same operators, over lambdas that are read alike (`Query.Coupled`), are gathered to
statements that are put together alike (`Statement.Coupled`): the same tables, joins and operators, over
coupled scalars.  The operators that no clause stands for differ in their texts, but are there in both or
in none.  What a projection returns may be different types, if both are scalars (`Ty.Alike`); then no
record of the projection is meant.
-/

namespace ChainQuery

variable {C : Coupling}

/-! ## 1. Lambdas -/

/-- Types that a statement does not tell apart: the same, or scalars both. -/
def Ty.Alike (t t' : Ty) : Prop := t = t' ∨ (t.isScalar = true ∧ t'.isScalar = true)

theorem Ty.Alike.isScalar_eq {t t' : Ty} (h : t.Alike t') : t.isScalar = t'.isScalar := by
  rcases h with rfl | ⟨h, h'⟩
  · rfl
  · rw [h, h']

/-- **Lambdas that were read alike.**  If they return different scalars, then no record has the type of
one. -/
structure Projection.Coupled (C : Coupling) (p p' : Projection) : Prop where
  parameterType : p.parameterType = p'.parameterType
  returnType : p.returnType.Alike p'.returnType
  owners : p.returnType ≠ p'.returnType → ∀ a ∈ p.aliases, a.1.1.isScalar = false
  body : p.body.Coupled C p'.body
  columns : List.Forall₂ (Scalar.Coupled C) p.columns p'.columns
  aliases : Aliases.Coupled C p.aliases p'.aliases

/-- **Lambdas that are read alike**, over parameters of the same types. -/
structure Lambda.Coupled (C : Coupling) (l l' : Lambda) : Prop where
  read : ∀ arity, C.Agrees (Projection.Coupled C) (l.read C.env arity) (l'.read C.env' arity)
  isGrouped : l.isGrouped = l'.isGrouped
  rowTypes : l.rowTypes = l'.rowTypes

/-- **Lambdas over parameters of the same types are read alike if their bodies are.** -/
theorem Lambda.coupled_of_body {l l' : Lambda}
    (hparams : l.params.map Parameter.type = l'.params.map Parameter.type)
    (hbody : l.body.Coupled C l'.body) (hreturn : l.returnType.Alike l'.returnType)
    (howners : l.returnType ≠ l'.returnType → ∀ key ∈ l.body.built, key.1.isScalar = false) :
    l.Coupled C l' := by
  obtain ⟨params, body⟩ := l
  obtain ⟨params', body'⟩ := l'
  have hlength : params.length = params'.length := by simpa using congrArg List.length hparams
  refine ⟨fun arity => ?_, ?_, ?_⟩
  · unfold read
    cases params with
    | nil =>
      obtain rfl : params' = [] := List.length_eq_zero_iff.mp hlength.symm
      exact .throw _ _
    | cons first rest =>
      cases params' with
      | nil => cases hlength
      | cons first' rest' =>
        dsimp only
        rw [hlength]
        split
        · exact .throw _ _
        · refine Coupling.Agrees.bind (hbody Reading.coupled_empty) fun x y hx _ hxy => ?_
          exact .pure ⟨(List.cons.inj hparams).1, hreturn,
            fun hne a ha => howners hne a.1 (Expr.mem_built_of_toScalar hx a ha), hxy.1,
            hxy.2.columns, hxy.2.aliases⟩
  · unfold Lambda.isGrouped Lambda.parameterType?
    rw [← List.head?_map, hparams, List.head?_map]
  · unfold Lambda.rowTypes
    rcases params with _ | ⟨left, _ | ⟨right, rest⟩⟩ <;>
      rcases params' with _ | ⟨left', _ | ⟨right', rest'⟩⟩ <;> simp_all

/-- Sort keys over coupled scalars. -/
structure SortKey.Coupled (C : Coupling) (k k' : SortKey) : Prop where
  key : k.key.Coupled C k'.key
  direction : k.direction = k'.direction

/-- Orderings over coupled keys. -/
structure OrderingClause.Coupled (C : Coupling) (o o' : OrderingClause) : Prop where
  parameterType : o.parameterType = o'.parameterType
  sortKey : o.sortKey.Coupled C o'.sortKey

theorem Lambda.Coupled.readOrdering {l l' : Lambda} (h : l.Coupled C l') (kind : OrderingKind) :
    C.Agrees (OrderingClause.Coupled C) (l.readOrdering C.env kind) (l'.readOrdering C.env' kind) :=
  (h.read 1).bind fun _ _ _ _ hp => .pure ⟨hp.parameterType, hp.body, rfl⟩

/-! ## 2. Clauses -/

/-- **Clauses that were gathered alike.** -/
structure Clauses.Coupled (C : Coupling) (c c' : Clauses) : Prop where
  select : Option.Rel (Projection.Coupled C) c.select c'.select
  filter : Option.Rel (Projection.Coupled C) c.filter c'.filter
  orderings : List.Forall₂ (OrderingClause.Coupled C) c.orderings c'.orderings
  unsupported : c.unsupported.isEmpty = c'.unsupported.isEmpty

theorem Clauses.coupled_empty : Clauses.Coupled C {} {} := ⟨.none, .none, .nil, rfl⟩

namespace Clauses.Coupled

variable {c c' : Clauses}

theorem withUnsupported (h : c.Coupled C c') (operator operator' : String) :
    Clauses.Coupled C { c with unsupported := operator :: c.unsupported }
      { c' with unsupported := operator' :: c'.unsupported } :=
  { h with unsupported := rfl }

theorem withSelect (h : c.Coupled C c') {p p' : Projection} (hp : p.Coupled C p') :
    Clauses.Coupled C { c with select := some p } { c' with select := some p' } :=
  { h with select := .some hp }

theorem withFilter (h : c.Coupled C c') {p p' : Projection} (hp : p.Coupled C p') :
    Clauses.Coupled C { c with filter := some p } { c' with filter := some p' } :=
  { h with filter := .some hp }

theorem withOrdering (h : c.Coupled C c') {o o' : OrderingClause} (ho : o.Coupled C o') :
    Clauses.Coupled C { c with orderings := o :: c.orderings }
      { c' with orderings := o' :: c'.orderings } :=
  { h with orderings := .cons ho h.orderings }

theorem sortKeys (h : c.Coupled C c') :
    List.Forall₂ (SortKey.Coupled C) (c.orderings.map OrderingClause.sortKey)
      (c'.orderings.map OrderingClause.sortKey) :=
  List.rel_map (fun _ _ ho => ho.sortKey) h.orderings

theorem check (h : c.Coupled C c') : C.Agrees (fun _ _ => True) c.check c'.check := by
  have hempty := h.unsupported
  unfold Clauses.check
  split
  · rename_i hnil
    rw [hnil] at hempty
    rw [List.isEmpty_iff.mp hempty.symm]
    exact .pure trivial
  · rename_i operator rest hcons
    rw [hcons] at hempty
    split
    · rename_i hnil
      rw [hnil] at hempty
      cases hempty
    · exact .throw _ _

end Clauses.Coupled

/-! ## 3. Statements -/

/-- **What a selection exports under names, two runs export alike.**  No member of a record that is
selected under its name is hidden, and the statement around a side of a cross join may read it. -/
structure Clauses.Exported (C : Coupling) (role : Role) (c c' : Clauses) : Prop where
  shown : role.exportsMembers = true → ∀ p, c.select = some p → p.Offers C.Shows
  shown' : role.exportsMembers = true → ∀ p, c'.select = some p → p.Offers C.Shows
  read : role = .crossJoinSource → ∀ p, c.select = some p → p.Offers C.Reads

/-- **Statements that are put together alike.** -/
inductive Statement.Coupled (C : Coupling) : Statement → Statement → Prop
  | table {c c' : Clauses} (hc : c.Coupled C c') (rowType : String) :
      Coupled C (.table c rowType) (.table c' rowType)
  | join {c c' : Clauses} (hc : c.Coupled C c') (left right : JoinedTable)
      {outerKey outerKey' innerKey innerKey' : Scalar} {result result' : Projection}
      {lifted lifted' : List SortKey} (houter : outerKey.Coupled C outerKey')
      (hinner : innerKey.Coupled C innerKey') (hresult : result.Coupled C result')
      (hlifted : List.Forall₂ (SortKey.Coupled C) lifted lifted') :
      Coupled C (.join c left right outerKey innerKey result lifted)
        (.join c' left right outerKey' innerKey' result' lifted')
  | crossJoin {c c' : Clauses} (hc : c.Coupled C c') {left left' right right' : Statement}
      (hleft : Coupled C left left') (hright : Coupled C right right')
      (hleftExported : left.clauses.Exported C .crossJoinSource left'.clauses)
      (hrightExported : right.clauses.Exported C .crossJoinSource right'.clauses)
      (leftRow rightRow : Ty) {result result' : Projection} (hresult : result.Coupled C result') :
      Coupled C (.crossJoin c left right leftRow rightRow result)
        (.crossJoin c' left' right' leftRow rightRow result')

theorem Statement.Coupled.clauses {s s' : Statement} (h : s.Coupled C s') :
    s.clauses.Coupled C s'.clauses := by
  cases h with
  | table hc => exact hc
  | join hc => exact hc
  | crossJoin hc => exact hc

theorem Statement.Coupled.checked {s s' : Statement} (h : s.Coupled C s') :
    C.Agrees (Statement.Coupled C) s.checked s'.checked :=
  h.clauses.check.bind fun _ _ _ _ _ => .pure h

/-! ## 4. Queries -/

/-- **The records that two queries select are shown**, and may be read if the queries are sides of a
cross join. -/
structure Query.Exported (C : Coupling) (role : Role) (q q' : Query) : Prop where
  shown : ∀ token ∈ q.offers, C.Shows token
  shown' : ∀ token ∈ q'.offers, C.Shows token
  read : role = .crossJoinSource → ∀ token ∈ q.offers, C.Reads token

/-- Where every column may be read and none is hidden, there is nothing to say. -/
theorem Query.Exported.of_shows {role : Role} {q q' : Query} (hshows : ∀ token, C.Shows token)
    (hreads : ∀ token, C.Reads token) : q.Exported C role q' :=
  ⟨fun token _ => hshows token, fun token _ => hshows token, fun _ token _ => hreads token⟩

/-- The projection of a statement offers what its query does. -/
theorem Query.Gathers.offers {env : Env} {q : Query} {c : Clauses} {s : Statement}
    (h : q.Gathers env c s) (hc : c.select = none) {p : Projection}
    (hp : s.clauses.select = some p) : p.Offers (· ∈ q.offers) := by
  induction h with
  | table | join | crossJoin => cases hc.symm.trans hp
  | select _ _ hread hsource _ =>
    obtain rfl := Option.some.inj ((hsource.select_eq rfl).symm.trans hp)
    intro m hm
    exact List.mem_append_left _ ((Lambda.readFrom_of_read hread).offers m hm)
  | filter _ _ _ _ ih => exact ih hc hp
  | orderBy _ _ _ ih => exact ih hc hp

theorem Query.Exported.clauses {role : Role} {q q' : Query} (h : q.Exported C role q')
    {env env' : Env} {s s' : Statement} (hs : q.Gathers env {} s) (hs' : q'.Gathers env' {} s') :
    s.clauses.Exported C role s'.clauses where
  shown _ _ hp m hm := h.shown _ (hs.offers rfl hp m hm)
  shown' _ _ hp m hm := h.shown' _ (hs'.offers rfl hp m hm)
  read hrole _ hp m hm := h.read hrole _ (hs.offers rfl hp m hm)

/-- **The same operators over lambdas that are read alike.** -/
inductive Query.Coupled (C : Coupling) : Query → Query → Prop
  | table (rowType : String) : Coupled C (.table rowType) (.table rowType)
  | select {q q' : Query} {l l' : Lambda} (hq : Coupled C q q') (hl : l.Coupled C l') :
      Coupled C (.select q l) (.select q' l')
  | filter {q q' : Query} {l l' : Lambda} (hq : Coupled C q q') (hl : l.Coupled C l') :
      Coupled C (.filter q l) (.filter q' l')
  | orderBy {q q' : Query} {l l' : Lambda} (hq : Coupled C q q') (hl : l.Coupled C l')
      (kind : OrderingKind) : Coupled C (.orderBy q l kind) (.orderBy q' l' kind)
  | join {outer outer' inner inner' : Query} {outerKey outerKey' innerKey innerKey' : Lambda}
      {result result' : Lambda} (houter : Coupled C outer outer') (hinner : Coupled C inner inner')
      (houterKey : outerKey.Coupled C outerKey') (hinnerKey : innerKey.Coupled C innerKey')
      (hresult : result.Coupled C result') :
      Coupled C (.join outer inner outerKey innerKey result)
        (.join outer' inner' outerKey' innerKey' result')
  | crossJoin {source source' collection collection' : Query} {result result' : Lambda}
      (hsource : Coupled C source source') (hcollection : Coupled C collection collection')
      (hsourceExported : source.Exported C .crossJoinSource source')
      (hcollectionExported : collection.Exported C .crossJoinSource collection')
      (hresult : result.Coupled C result') :
      Coupled C (.crossJoin source collection result) (.crossJoin source' collection' result')
  | call {q q' : Query} (method : String) (hq : Coupled C q q') (args args' : List Expr) :
      Coupled C (.call method q args) (.call method q' args')

namespace Query.Coupled

/-- A table under orderings is the same table under coupled orderings. -/
theorem toJoinedTable {q q' : Query} (hq : q.Coupled C q') {c c' : Clauses} (hc : c.Coupled C c') :
    C.Agrees (fun x y => x.1 = y.1 ∧ List.Forall₂ (SortKey.Coupled C) x.2 y.2)
      (q.toJoinedTable C.env c) (q'.toJoinedTable C.env' c') := by
  induction hq generalizing c c' with
  | table rowType =>
    rw [Query.toJoinedTable, Query.toJoinedTable]
    split
    · exact .throw _ _
    · refine (Coupling.Agrees.lookup (·.rowType rowType) fun h => h.rowType).bind ?_
      rintro info _ _ _ rfl
      refine hc.check.bind fun _ _ _ _ _ => (Coupling.Agrees.same _).bind fun _ _ _ _ _ => ?_
      exact .pure ⟨rfl, hc.sortKeys⟩
  | orderBy _ hl kind ih =>
    rw [Query.toJoinedTable, Query.toJoinedTable, ← hl.isGrouped]
    split
    · exact ih (hc.withUnsupported _ _)
    · exact (hl.readOrdering kind).bind fun _ _ _ _ ho => ih (hc.withOrdering ho)
  | select | filter | join | crossJoin | call => exact .throw _ _

/-- **Chains of the same operators are gathered alike.** -/
theorem gather {q q' : Query} (hq : q.Coupled C q') {c c' : Clauses} (hc : c.Coupled C c') :
    C.Agrees (Statement.Coupled C) (q.gather C.env c) (q'.gather C.env' c') := by
  induction hq generalizing c c' with
  | table rowType =>
    rw [Query.gather, Query.gather]
    split
    · exact .throw _ _
    · exact (Coupling.Agrees.lookup (·.rowType rowType) fun h => h.rowType).bind fun _ _ _ _ _ =>
        .pure (.table hc rowType)
  | select _ hl ih =>
    rw [Query.gather, Query.gather, ← hl.isGrouped, hc.select.isSome_eq]
    split
    · exact ih (hc.withUnsupported _ _)
    · split
      · exact .throw _ _
      · refine (hl.read 1).bind fun p p' _ _ hp => ?_
        have hmeet : C.Agrees (fun _ _ => True) (Traced.meet p.returnType)
            (Traced.meet p'.returnType) := .pure trivial
        exact hmeet.bind fun _ _ _ _ _ => ih (hc.withSelect hp)
  | filter _ hl ih =>
    rw [Query.gather, Query.gather, ← hl.isGrouped, hc.filter.isSome_eq]
    split
    · exact ih (hc.withUnsupported _ _)
    · split
      · exact .throw _ _
      · exact (hl.read 1).bind fun _ _ _ _ hp => ih (hc.withFilter hp)
  | orderBy _ hl kind ih =>
    rw [Query.gather, Query.gather, ← hl.isGrouped]
    split
    · exact ih (hc.withUnsupported _ _)
    · exact (hl.readOrdering kind).bind fun _ _ _ _ ho => ih (hc.withOrdering ho)
  | join houter hinner houterKey hinnerKey hresult =>
    rw [Query.gather, Query.gather]
    refine (houterKey.read 1).bind fun _ _ _ _ hp => ?_
    refine (hinnerKey.read 1).bind fun _ _ _ _ hq => ?_
    refine (hresult.read 2).bind fun _ _ _ _ hr => ?_
    refine (houter.toJoinedTable Clauses.coupled_empty).bind fun x x' _ _ hx => ?_
    refine (hinner.toJoinedTable Clauses.coupled_empty).bind fun y y' _ _ hy => ?_
    obtain ⟨left, leftKeys⟩ := x
    obtain ⟨left', leftKeys'⟩ := x'
    obtain ⟨right, rightKeys⟩ := y
    obtain ⟨right', rightKeys'⟩ := y'
    obtain ⟨rfl, hleftKeys⟩ := hx
    obtain ⟨rfl, hrightKeys⟩ := hy
    dsimp only
    split
    · exact .throw _ _
    · exact .pure (.join hc left right hp.body hq.body hr (List.rel_append hleftKeys hrightKeys))
  | @crossJoin source source' collection collection' result result' _ _ hsourceExported
      hcollectionExported hresult ihl ihr =>
    rw [Query.gather, Query.gather, ← hresult.rowTypes]
    cases result.rowTypes with | mk leftRow rightRow
    refine (hresult.read 2).bind fun _ _ _ _ hp => ?_
    refine (Coupling.Agrees.same _).bind fun _ _ _ _ _ => ?_
    dsimp only
    split
    · exact .throw _ _
    · refine (ihl Clauses.coupled_empty).bind fun left left' hl hl' hleft => ?_
      refine hleft.checked.bind fun _ _ hlc hlc' hleft => ?_
      obtain ⟨hnone, rfl⟩ := Statement.checked_eq_ok.mp hlc
      obtain ⟨hnone', rfl⟩ := Statement.checked_eq_ok.mp hlc'
      have hleftExported := hsourceExported.clauses (Query.gathers_of_gather hl hnone).2
        (Query.gathers_of_gather hl' hnone').2
      refine (ihr Clauses.coupled_empty).bind fun right right' hr hr' hright => ?_
      refine hright.checked.bind fun _ _ hrc hrc' hright => ?_
      obtain ⟨hnone, rfl⟩ := Statement.checked_eq_ok.mp hrc
      obtain ⟨hnone', rfl⟩ := Statement.checked_eq_ok.mp hrc'
      have hrightExported := hcollectionExported.clauses (Query.gathers_of_gather hr hnone).2
        (Query.gathers_of_gather hr' hnone').2
      exact .pure (.crossJoin hc hleft hright hleftExported hrightExported leftRow rightRow hp)
  | call method _ _ _ ih => exact ih (hc.withUnsupported _ _)

/-- **Queries of the same operators have coupled statements.** -/
theorem toStatement {q q' : Query} (hq : q.Coupled C q') :
    C.Agrees (Statement.Coupled C) (q.toStatement C.env) (q'.toStatement C.env') :=
  (hq.gather Clauses.coupled_empty).bind fun _ _ _ _ hs => hs.checked

end Query.Coupled

end ChainQuery
