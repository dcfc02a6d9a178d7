import ChainQuery.Proofs.Compile.AggregateDepth
import ChainQuery.Proofs.Compile.Orderings
/-!
# The compiler without its bound

Aggregates are compiled by recursion: an aggregate is compiled where the scalar that holds it is bound,
and its own scalars may hold others.  `Correlated.toSelectWith` is one step of that recursion, with a
parameter for the aggregates inside.  The compiler counts the steps down from how deep aggregates are
nested in the query; here it is shown that the count changes nothing.  The recursion has a solution, and
one only (`Subqueries.Solves.eq_unbounded`), and compiling with it is compiling with the bound.

The selection of a statement depends on the aggregates only through the scalars that the statement binds
(`Statement.toSelect_congr`).
-/

namespace ChainQuery

/-! ## 1. The recursion -/

/-- **One step of the compilation of an aggregate**, with `subqueries` for the aggregates inside. -/
def Correlated.toSelectWith (env : Env) (subqueries : Subqueries) : Subqueries := fun c outer => do
  let statement ← c.query.toStatement env
  let depth := outer.depth + 1
  if c.nested then
    let (pairs, _) ← statement.toSelect env subqueries (some outer) .correlatedPairs (depth + 1)
    return .fromDerived [c.aggregate.toSql (.bareColumn "Value")] pairs (Sql.depthAlias depth)
  else
    let (select, _) ← statement.toSelect env subqueries (some outer) (.correlated c.aggregate) depth
    return select

/-- **The recursion without a bound**: every aggregate is compiled by one step, with the same
compilation for the aggregates inside. -/
def Subqueries.Solves (env : Env) (subqueries : Subqueries) : Prop :=
  ∀ c scope, subqueries c scope = Correlated.toSelectWith env subqueries c scope

/-- The selection of a query, with a given compilation of its aggregates. -/
def Query.toSelectWith (env : Env) (subqueries : Subqueries) (q : Query) : Traced Sql.Select := do
  let statement ← q.toStatement env
  let (selection, _) ← statement.toSelect env subqueries none .root 0
  return selection

/-- What comes after a computation matters only for what it returns. -/
theorem Traced.bind_congr {α β : Type} {x : Traced α} {f g : α → Traced β}
    (h : ∀ a, x.outcome = .ok a → f a = g a) : x >>= f = x >>= g := by
  cases hx : x.outcome with
  | error e => rw [Traced.bind_of_error hx, Traced.bind_of_error hx]
  | ok a => rw [Traced.bind_of_ok hx, Traced.bind_of_ok hx, h a hx]

/-! ## 2. The scalars that a statement binds -/

namespace Statement

variable {s : Statement} {b b' : Binder}

/-- Two ways to bind scalars are the same for a statement. -/
structure AgreeOn (s : Statement) (b b' : Binder) : Prop where
  env : b.env = b'.env
  resolve : ∀ x ∈ s.bound, ∀ position, b.resolve position x = b'.resolve position x

namespace AgreeOn

theorem projection (h : s.AgreeOn b b') {p : Projection}
    (hp : p ∈ s.clauses.select.toList ++ s.result?.toList) {x : Scalar} (hx : x ∈ p.scalars)
    (position : Position) : b.resolve position x = b'.resolve position x := by
  exact h.resolve x (mem_bound_of_projection hp hx) position

theorem aggregateList (h : s.AgreeOn b b') (aggregate : Aggregate) :
    s.aggregateList b aggregate = s.aggregateList b' aggregate := by
  unfold Statement.aggregateList
  split
  · rfl
  · rename_i p _ hselect
    have hp : p ∈ s.clauses.select.toList ++ s.result?.toList := by simp [hselect]
    rw [h.projection hp List.mem_cons_self]
  · rfl

theorem rowList (h : s.AgreeOn b b') (role : Role) : s.rowList b role = s.rowList b' role := by
  unfold Statement.rowList
  split
  · rename_i members hmembers
    obtain ⟨p, hselect, rfl⟩ := Statement.exportedMembers?_eq_some hmembers
    have hp : p ∈ s.clauses.select.toList ++ s.result?.toList := by simp [hselect]
    refine congrArg (· >>= fun items => pure (Sql.SelectList.aliased items)) ?_
    refine List.mapM_congr fun m hm => ?_
    change (b.resolve .selectList m.2 >>= fun e => pure (m.1, e))
      = (b'.resolve .selectList m.2 >>= fun e => pure (m.1, e))
    rw [h.projection hp (Projection.mem_scalars_of_mem_recordMembers hm)]
  · split
    · split
      · rw [h.env]
      · rfl
    · refine congrArg (· >>= fun items => pure (Sql.SelectList.plain items)) ?_
      refine List.mapM_congr fun x hx => ?_
      exact h.resolve x (mem_bound_of_columns hx) .selectList

theorem selectList (h : s.AgreeOn b b') (role : Role) :
    s.selectList b role = s.selectList b' role := by
  unfold Statement.selectList
  split
  · exact h.aggregateList _
  · exact h.rowList _

theorem filterExpr (h : s.AgreeOn b b') : s.clauses.filterExpr b = s.clauses.filterExpr b' := by
  unfold Clauses.filterExpr
  split
  · rename_i p hfilter
    refine h.resolve p.body ?_ .predicate
    exact List.mem_append_left _ (List.mem_append_right _ (by simp [hfilter]))
  · rfl

theorem order (h : s.AgreeOn b b') (role : Role) :
    s.clauses.order b role s.sortKeys = s.clauses.order b' role s.sortKeys := by
  have hkeys : s.sortKeys.mapM (SortKey.toSql b) = s.sortKeys.mapM (SortKey.toSql b') := by
    refine List.mapM_congr fun k hk => ?_
    have hkey : k.key ∈ s.bound := List.mem_append_right _ (List.mem_map_of_mem hk)
    rw [SortKey.toSql, SortKey.toSql, h.resolve _ hkey]
  unfold Clauses.order
  split
  · rw [hkeys]
  · rfl
  · rfl
  · rfl

/-- What a statement joins. -/
theorem joins (h : s.AgreeOn b b') {env : Env} {subqueries : Subqueries} {outer : Option Scope}
    {depth : Nat} {ground : Ground}
    (hground : (s.ground env subqueries outer depth).outcome = .ok ground) :
    ground.joins b = ground.joins b' := by
  cases s with
  | table clauses rowType =>
    obtain ⟨info, _, rfl⟩ := Ground.table_eq_ok.mp hground
    rfl
  | join clauses left right outerKey innerKey result lifted =>
    cases hground
    have houter := h.resolve outerKey List.mem_cons_self .predicate
    have hinner := h.resolve innerKey (List.mem_cons_of_mem _ List.mem_cons_self) .predicate
    simp only [Ground.join, houter, hinner]
  | crossJoin clauses left right leftRow rightRow result =>
    obtain ⟨_, _, _, _, _, _, _, _, _, _, rfl⟩ := Statement.ground_crossJoin_eq_ok.mp hground
    rfl

end AgreeOn

section Congruence

variable {env : Env} {sub sub' : Subqueries} {outer outer' : Option Scope} {role : Role} {depth : Nat}

theorem ground_congr
    (hsides : ∀ t ∈ s.sides, t.toSelect env sub outer .crossJoinSource (depth + 1)
      = t.toSelect env sub' outer' .crossJoinSource (depth + 1)) :
    s.ground env sub outer depth = s.ground env sub' outer' depth := by
  cases s with
  | table | join => rfl
  | crossJoin clauses left right leftRow rightRow result =>
    have hleft := hsides left List.mem_cons_self
    have hright := hsides right (List.mem_cons_of_mem _ List.mem_cons_self)
    rw [Statement.ground, Statement.ground, hleft, hright]

/-- **The selection of a statement depends on the aggregates only through its sides and the scalars that
it binds.** -/
theorem toSelect_congr
    (hsides : ∀ t ∈ s.sides, t.toSelect env sub outer .crossJoinSource (depth + 1)
      = t.toSelect env sub' outer' .crossJoinSource (depth + 1))
    (hbound : ∀ source, ∀ x ∈ s.bound, ∀ position,
      (s.binder env sub outer depth source).resolve position x
        = (s.binder env sub' outer' depth source).resolve position x) :
    s.toSelect env sub outer role depth = s.toSelect env sub' outer' role depth := by
  rw [Statement.toSelect_eq, Statement.toSelect_eq, ground_congr hsides]
  refine Traced.bind_congr fun ground hground => ?_
  have h : s.AgreeOn (s.binder env sub outer depth ground.source)
      (s.binder env sub' outer' depth ground.source) := ⟨rfl, hbound ground.source⟩
  have horder := h.order role
  rw [← Statement.ground_lifted_append hground] at horder
  simp only [Statement.binder] at h horder
  simp only [Statement.assemble, h.joins hground, h.selectList, h.filterExpr, horder]

end Congruence

end Statement

/-! ## 3. Binding a scalar -/

namespace Scalar

theorem sizeOf_lt_of_mem_operands {x y : Scalar} (h : y ∈ x.operands) : sizeOf y < sizeOf x := by
  cases x with
  | function f args =>
    have hlt : sizeOf y < sizeOf args := List.sizeOf_lt_of_mem h
    simp only [function.sizeOf_spec]
    omega
  | column | value | null | subquery | composite => cases h
  | binary | not | negate | like | case =>
    simp only [operands, List.mem_cons, List.not_mem_nil, or_false] at h
    rcases h with rfl | rfl | rfl <;> simp +arith

/-- **Induction along the operands.** -/
@[elab_as_elim]
theorem operands_induction {P : Scalar → Prop} (node : ∀ x, (∀ y ∈ x.operands, P y) → P x)
    (x : Scalar) : P x :=
  node x fun y _ => operands_induction node y
termination_by sizeOf x
decreasing_by exact sizeOf_lt_of_mem_operands ‹_›

variable {dialect : Dialect} {sub sub' : Subqueries} {scope scope' : Scope} {position : Position}

theorem resolveList_congr {xs : List Scalar}
    (h : ∀ x ∈ xs, x.resolve dialect sub scope position = x.resolve dialect sub' scope' position) :
    resolveList dialect sub scope position xs = resolveList dialect sub' scope' position xs := by
  induction xs with
  | nil => rfl
  | cons x xs ih =>
    obtain ⟨hx, hxs⟩ := List.forall_mem_cons.mp h
    rw [resolveList, resolveList, hx, ih hxs]

/-- **The SQL of a scalar depends on that of its operands**, on the column that it is, and on the
aggregate that it is. -/
theorem resolve_congr {x : Scalar}
    (hoperands : ∀ y ∈ x.operands,
      y.resolve dialect sub scope position = y.resolve dialect sub' scope' position)
    (hcolumn : ∀ token, x = .column token →
      scope.column token position = scope'.column token position)
    (hsubquery : ∀ c, x = .subquery c → sub c scope = sub' c scope') :
    x.resolve dialect sub scope position = x.resolve dialect sub' scope' position := by
  cases x with
  | column token => exact hcolumn token rfl
  | value | null | composite => rfl
  | subquery c => rw [resolve, resolve, hsubquery c rfl]
  | function f args =>
    have hargs := @resolveList_congr dialect sub sub' scope scope' position args hoperands
    rw [resolve, resolve, hargs]
  | binary op left right =>
    have hleft := hoperands left (by simp [operands])
    have hright := hoperands right (by simp [operands])
    simp only [resolve, hleft, hright]
  | not operand | negate operand => rw [resolve, resolve, hoperands operand (by simp [operands])]
  | like subject pattern wildcards =>
    rw [resolve, resolve, hoperands subject (by simp [operands]),
      hoperands pattern (by simp [operands])]
  | case test ifTrue ifFalse =>
    rw [resolve, resolve, hoperands test (by simp [operands]), hoperands ifTrue (by simp [operands]),
      hoperands ifFalse (by simp [operands])]

end Scalar

/-! ## 4. The solution -/

/-- Two compilations of aggregates are the same where aggregates are nested less deep than `n`. -/
def Subqueries.AgreeBelow (n : Nat) (sub sub' : Subqueries) : Prop :=
  ∀ c, c.query.aggregateDepth < n → ∀ scope, sub c scope = sub' c scope

namespace Subqueries.AgreeBelow

variable {env : Env} {n : Nat} {sub sub' : Subqueries}

theorem resolve (h : sub.AgreeBelow n sub') {x : Scalar} (hx : x.aggregateDepth ≤ n)
    (dialect : Dialect) (scope : Scope) (position : Position) :
    x.resolve dialect sub scope position = x.resolve dialect sub' scope position := by
  induction x using Scalar.operands_induction with
  | node x ih =>
    refine Scalar.resolve_congr ?_ (fun _ _ => rfl) ?_
    · exact fun y hy => ih y hy (le_trans (Scalar.aggregateDepth_operand hy) hx)
    · rintro c rfl
      exact h c hx scope

/-- Records whose members are nested no deeper are looked through in the same way. -/
theorem bindThrough (h : sub.AgreeBelow n sub') (frame : Frame) {layers : List Aliases}
    (hlayers : ∀ layer ∈ layers, ∀ a ∈ layer, a.2.aggregateDepth ≤ n) :
    frame.bindThrough env sub layers = frame.bindThrough env sub' layers := by
  induction layers with
  | nil => rfl
  | cons layer below ih =>
    obtain ⟨hlayer, hbelow⟩ := List.forall_mem_cons.mp hlayers
    funext token position
    rw [Frame.bindThrough, Frame.bindThrough]
    split
    · rename_i target htarget
      obtain ⟨owner, _, hlookup⟩ := Option.bind_eq_some_iff.mp htarget
      rw [h.resolve (hlayer _ (Assoc.mem_of_lookup hlookup)), ih hbelow]
    · rw [ih hbelow]

/-- **Statements that are nested no deeper have the same selections.** -/
theorem statement (h : sub.AgreeBelow n sub') {s : Statement}
    (hs : ∀ x ∈ s.scalars, x.aggregateDepth ≤ n) (outer : Option Scope) (role : Role) (depth : Nat) :
    s.toSelect env sub outer role depth = s.toSelect env sub' outer role depth := by
  have hbound : ∀ {s : Statement}, (∀ x ∈ s.scalars, x.aggregateDepth ≤ n) →
      ∀ (depth : Nat) (source : Source), ∀ x ∈ s.bound, ∀ position,
        (s.binder env sub outer depth source).resolve position x
          = (s.binder env sub' outer depth source).resolve position x := by
    intro s hs depth source x hx position
    have hscope : (s.binder env sub outer depth source).scope
        = (s.binder env sub' outer depth source).scope :=
      congrArg (Scope.mk depth) (h.bindThrough _ (Statement.forall_layers hs))
    rw [Binder.resolve, Binder.resolve, hscope]
    exact h.resolve (Statement.forall_bound (fun _ => Nat.zero_le n) hs x hx) _ _ _
  induction s generalizing role depth with
  | table | join => exact Statement.toSelect_congr (by simp [Statement.sides]) (hbound hs depth)
  | crossJoin clauses left right leftRow rightRow result ihl ihr =>
    obtain ⟨hleft, hright⟩ := List.forall_mem_cons.mp (Statement.forall_sides hs)
    refine Statement.toSelect_congr (List.forall_mem_cons.mpr ⟨ihl hleft _ _,
      List.forall_mem_singleton.mpr (ihr (List.forall_mem_singleton.mp hright) _ _)⟩) (hbound hs depth)

/-- An aggregate that is nested no deeper is compiled in the same way. -/
theorem toSelectWith (h : sub.AgreeBelow n sub') {c : Correlated} (hc : c.query.aggregateDepth ≤ n)
    (scope : Scope) :
    Correlated.toSelectWith env sub c scope = Correlated.toSelectWith env sub' c scope := by
  refine Traced.bind_congr fun s hs => ?_
  have hscalars : ∀ x ∈ s.scalars, x.aggregateDepth ≤ n := fun x hx =>
    le_trans (Query.scalars_le_of_toStatement hs x hx) hc
  simp only [h.statement hscalars]

end Subqueries.AgreeBelow

section Solution

variable {env : Env}

/-- **More levels than an aggregate has change nothing.** -/
theorem Correlated.toSelect_agreeBelow {depth levels levels' : Nat} (h : depth ≤ levels)
    (h' : depth ≤ levels') :
    Subqueries.AgreeBelow depth (Correlated.toSelect env levels) (Correlated.toSelect env levels') := by
  induction depth generalizing levels levels' with
  | zero => exact fun c hc => absurd hc (Nat.not_lt_zero _)
  | succ depth ih =>
    obtain ⟨levels, rfl⟩ := Nat.exists_eq_add_of_le' h
    obtain ⟨levels', rfl⟩ := Nat.exists_eq_add_of_le' h'
    intro c hc scope
    have hbelow : Subqueries.AgreeBelow depth (Correlated.toSelect env (levels + depth))
        (Correlated.toSelect env (levels' + depth)) :=
      ih (Nat.le_add_left _ _) (Nat.le_add_left _ _)
    exact hbelow.toSelectWith (Nat.lt_succ_iff.mp hc) scope

/-- The compilation of aggregates without a bound: each has as many levels as it needs. -/
def Correlated.unbounded (env : Env) : Subqueries :=
  fun c => Correlated.toSelect env (c.query.aggregateDepth + 1) c

theorem Correlated.unbounded_agreeBelow {depth levels : Nat} (h : depth ≤ levels) :
    Subqueries.AgreeBelow depth (Correlated.toSelect env levels) (Correlated.unbounded env) :=
  fun c hc => Correlated.toSelect_agreeBelow (le_trans hc h) (le_refl _) c (Nat.lt_succ_self _)

/-- **The recursion has a solution.** -/
theorem Correlated.unbounded_solves (env : Env) : (Correlated.unbounded env).Solves env := fun c =>
  (Correlated.unbounded_agreeBelow (le_refl c.query.aggregateDepth)).toSelectWith (le_refl _)

/-- **The recursion has one solution only.** -/
theorem Subqueries.Solves.eq_unbounded {sub : Subqueries} (h : sub.Solves env) :
    sub = Correlated.unbounded env := by
  have hagree : ∀ n, sub.AgreeBelow n (Correlated.unbounded env) := by
    intro n
    induction n with
    | zero => exact fun c hc => absurd hc (Nat.not_lt_zero _)
    | succ n ih =>
      intro c hc scope
      rw [h, Correlated.unbounded_solves env]
      exact ih.toSelectWith (Nat.lt_succ_iff.mp hc) scope
  funext c scope
  exact hagree _ c (Nat.lt_succ_self _) scope

/-- **Compiling a query with its bound is compiling it without.** -/
theorem Query.toSelect_eq_unbounded (env : Env) (q : Query) :
    q.toSelect env = q.toSelectWith env (Correlated.unbounded env) := by
  refine Traced.bind_congr fun s hs => ?_
  have hagree : Subqueries.AgreeBelow q.aggregateDepth (Correlated.toSelect env q.aggregateDepth)
      (Correlated.unbounded env) := Correlated.unbounded_agreeBelow (le_refl _)
  simp only [hagree.statement (Query.scalars_le_of_toStatement hs)]

end Solution

end ChainQuery
