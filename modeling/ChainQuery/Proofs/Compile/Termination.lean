import ChainQuery.Compile.TypeTable
import ChainQuery.Proofs.Compile.Unbounded
import ChainQuery.Schema.Shop
import Mathlib.Algebra.Ring.Nat
import Mathlib.Data.Prod.Lex
/-!
# Compilation terminates

Compiling a query is a recursion through five functions: a query is gathered to a statement, a statement
is compiled to a selection, a scalar is bound, a column is looked up, and an aggregate is compiled.  No
single size decreases along it.  A column leads to what the record that has it was built from, which can
be larger than the column and can hold an aggregate.  An aggregate opens a scope with records of its own.
And a column that a scope does not have is looked up in the scope around, whose records can hold
aggregates that are nested deeper than the one at hand.

What does decrease is a weight of all that is still to be looked through (`Call.rank`).  A scope is here
the list of the records that are left in it and around it (`Level`), and each counts by how deep
aggregates are nested in it.  A record is left behind when one of its members is bound.  The records of
the scope that an aggregate opens are nested less deep than the scalar that holds the aggregate, so all
of them together weigh less than it.

`Call.Makes` lists the calls that each call makes, and `Call.body_congr` says that it lists all: what a
call computes is determined by what these return.  `Query.toSelect_terminates` says that there is no
infinite chain of them.
-/

namespace ChainQuery

/-! ## 1. Calls -/

/-- A scope as data: the depth of its statement, what that selects from, and the records to look
through. -/
structure Level where
  depth : Nat
  source : Source
  layers : List Aliases

section Scopes

variable (env : Env) (sub : Subqueries)

/-- The scope of a level inside another. -/
def Level.scopeIn (outer : Option Scope) (level : Level) : Scope :=
  Frame.scope env sub { depth := level.depth, source := level.source, outer } level.layers

/-- The scope of levels, innermost first. -/
def Level.scope? : List Level → Option Scope
  | [] => none
  | level :: outer => some (level.scopeIn env sub (Level.scope? outer))

end Scopes

/-- **A call of one of the functions of the compiler**, inside scopes that are given innermost first. -/
inductive Call where
  /-- A query is gathered. -/
  | gather (q : Query)
  /-- A statement is compiled. -/
  | statement (s : Statement) (role : Role) (depth : Nat) (outer : List Level)
  /-- A scalar is bound. -/
  | scalar (x : Scalar) (position : Position) (level : Level) (outer : List Level)
  /-- A column is looked up. -/
  | column (token : ColumnToken) (position : Position) (level : Level) (outer : List Level)
  /-- An aggregate is compiled. -/
  | correlated (c : Correlated) (level : Level) (outer : List Level)

namespace Call

/-- What a call returns if it does not fail. -/
def Answer : Call → Type
  | .gather _ => Statement
  | .statement .. => Sql.Select × List SortKey
  | .scalar .. => Sql.Expr
  | .column .. => Sql.Expr
  | .correlated .. => Sql.Select

section Answers

variable (env : Env) (sub : Subqueries)

/-- What a call computes, with a given compilation of the aggregates inside. -/
def body : (k : Call) → Traced k.Answer
  | .gather q => q.toStatement env
  | .statement s role depth outer => s.toSelect env sub (Level.scope? env sub outer) role depth
  | .scalar x position level outer =>
    x.resolve env.dialect sub (level.scopeIn env sub (Level.scope? env sub outer)) position
  | .column token position level outer =>
    (level.scopeIn env sub (Level.scope? env sub outer)).column token position
  | .correlated c level outer =>
    Correlated.toSelectWith env sub c (level.scopeIn env sub (Level.scope? env sub outer))

/-- What the caller takes for the result of a call.  For an aggregate that is the given compilation. -/
def answer : (k : Call) → Traced k.Answer
  | .correlated c level outer => sub c (level.scopeIn env sub (Level.scope? env sub outer))
  | .gather q => body env sub (.gather q)
  | .statement s role depth outer => body env sub (.statement s role depth outer)
  | .scalar x position level outer => body env sub (.scalar x position level outer)
  | .column token position level outer => body env sub (.column token position level outer)

end Answers

end Call

/-- The queries that an operator is applied to. -/
def Query.sources : Query → List Query
  | .table _ => []
  | .select source _ | .filter source _ | .orderBy source _ _ | .call _ source _ => [source]
  | .join outer inner _ _ _ => [outer, inner]
  | .crossJoin source collection _ => [source, collection]

/-- **The calls that a call makes**, the callee before the caller. -/
inductive Call.Makes (env : Env) : Call → Call → Prop
  | source {q source : Query} (h : source ∈ q.sources) : Makes env (.gather source) (.gather q)
  | side {s t : Statement} {role : Role} {depth : Nat} {outer : List Level} (h : t ∈ s.sides) :
      Makes env (.statement t .crossJoinSource (depth + 1) outer) (.statement s role depth outer)
  | bound {s : Statement} {role : Role} {depth : Nat} {outer : List Level} {source : Source}
      {x : Scalar} {position : Position} (h : x ∈ s.bound) :
      Makes env (.scalar x position { depth, source, layers := s.layers } outer)
        (.statement s role depth outer)
  | operand {x y : Scalar} {position : Position} {level : Level} {outer : List Level}
      (h : y ∈ x.operands) : Makes env (.scalar y position level outer) (.scalar x position level outer)
  | column {token : ColumnToken} {position : Position} {level : Level} {outer : List Level} :
      Makes env (.column token position level outer) (.scalar (.column token) position level outer)
  | subquery {c : Correlated} {position : Position} {level : Level} {outer : List Level} :
      Makes env (.correlated c level outer) (.scalar (.subquery c) position level outer)
  | member {token : ColumnToken} {position : Position} {depth : Nat} {source : Source}
      {layer : Aliases} {below : List Aliases} {outer : List Level} {owner : Ty} {target : Scalar}
      (howner : token.owner? = some owner) (h : layer.lookup (owner, token.member) = some target) :
      Makes env (.scalar target position ⟨depth, source, below⟩ outer)
        (.column token position ⟨depth, source, layer :: below⟩ outer)
  | below {token : ColumnToken} {position : Position} {depth : Nat} {source : Source}
      {layer : Aliases} {below : List Aliases} {outer : List Level} :
      Makes env (.column token position ⟨depth, source, below⟩ outer)
        (.column token position ⟨depth, source, layer :: below⟩ outer)
  | outer {token : ColumnToken} {position : Position} {depth : Nat} {source : Source} {level : Level}
      {outer : List Level} :
      Makes env (.column token .predicate level outer)
        (.column token position ⟨depth, source, []⟩ (level :: outer))
  | query {c : Correlated} {level : Level} {outer : List Level} :
      Makes env (.gather c.query) (.correlated c level outer)
  | statement {c : Correlated} {level : Level} {outer : List Level} {s : Statement} {role : Role}
      {depth : Nat} (h : (c.query.toStatement env).outcome = .ok s) :
      Makes env (.statement s role depth (level :: outer)) (.correlated c level outer)

/-! ## 2. What a call depends on -/

namespace Call

variable {env : Env} {sub sub' : Subqueries}

/-- A column is one of what the statement selects from or of a scope around, or it is what a record
builds its member from. -/
theorem column_congr {token : ColumnToken} {position : Position} {level : Level} {outer : List Level}
    (h : ∀ k, Makes env k (.column token position level outer) →
      k.answer env sub = k.answer env sub') :
    body env sub (.column token position level outer)
      = body env sub' (.column token position level outer) := by
  obtain ⟨depth, source, layers⟩ := level
  cases layers with
  | nil =>
    change Frame.bindToSource env _ token position = Frame.bindToSource env _ token position
    cases outer with
    | nil => rfl
    | cons level outer =>
      have houter : (level.scopeIn env sub (Level.scope? env sub outer)).column token .predicate
          = (level.scopeIn env sub' (Level.scope? env sub' outer)).column token .predicate :=
        h _ .outer
      simp only [Frame.bindToSource, Level.scope?, houter]
  | cons layer below =>
    have hbelow := h _ .below
    change Frame.bindThrough env sub _ (layer :: below) token position
      = Frame.bindThrough env sub' _ (layer :: below) token position
    rw [Frame.bindThrough, Frame.bindThrough]
    split
    · rename_i target htarget
      obtain ⟨owner, howner, hlookup⟩ := Option.bind_eq_some_iff.mp htarget
      exact h _ (.member howner hlookup)
    · exact hbelow

/-- **What a call computes is determined by the results of the calls that it makes.** -/
theorem body_congr {k : Call}
    (h : ∀ k', Makes env k' k → k'.answer env sub = k'.answer env sub') :
    k.body env sub = k.body env sub' := by
  cases k with
  | gather q => rfl
  | statement s role depth outer =>
    exact Statement.toSelect_congr (fun t ht => h _ (.side ht))
      fun source x hx position => h (.scalar x position ⟨depth, source, s.layers⟩ outer) (.bound hx)
  | scalar x position level outer =>
    refine Scalar.resolve_congr (fun y hy => h _ (.operand hy)) ?_ ?_
    · rintro token rfl
      exact h _ .column
    · rintro c rfl
      exact h _ .subquery
  | column token position level outer => exact column_congr h
  | correlated c level outer =>
    refine Traced.bind_congr fun s hs => ?_
    have hstatement : ∀ role depth,
        s.toSelect env sub (some (level.scopeIn env sub (Level.scope? env sub outer))) role depth
          = s.toSelect env sub' (some (level.scopeIn env sub' (Level.scope? env sub' outer))) role
            depth := fun role depth => h _ (.statement hs)
    have hdepth : (level.scopeIn env sub (Level.scope? env sub outer)).depth
        = (level.scopeIn env sub' (Level.scope? env sub' outer)).depth := rfl
    simp only [hstatement, hdepth]

/-! ## 3. The weight of what is left -/

end Call

/-- The weight of aggregates that are nested to a depth. -/
def depthWeight (depth : Nat) : Nat := 27 ^ depth

/-- The weight of a layer of records: more than that of a scalar that is nested as deep. -/
def Aliases.weight (layer : Aliases) : Nat :=
  3 * depthWeight (Scalar.aggregateDepths (layer.map Prod.snd))

/-- The weight of scopes: that of all records that are left in them. -/
def Level.weight (levels : List Level) : Nat :=
  (levels.map fun level => (level.layers.map Aliases.weight).sum).sum

/-- The weight of a statement: more than that of its records and one of its scalars. -/
def Statement.weight (s : Statement) : Nat := 9 * depthWeight (Scalar.aggregateDepths s.scalars)

/-- **The rank of a call**: the weight of what is to be looked through, and a size for the calls that
leave the weight as it is. -/
noncomputable def Call.rank : Call → Lex (Nat × Nat)
  | .gather q => toLex (0, sizeOf q)
  | .statement s _ _ outer => toLex (s.weight + Level.weight outer, sizeOf s)
  | .scalar x _ level outer =>
    toLex (depthWeight x.aggregateDepth + Level.weight (level :: outer), sizeOf x)
  | .column _ _ level outer => toLex (Level.weight (level :: outer), outer.length)
  | .correlated c level outer =>
    toLex (depthWeight (c.query.aggregateDepth + 1) + Level.weight (level :: outer), 0)

section Weights

theorem depthWeight_pos (n : Nat) : 0 < depthWeight n := Nat.pow_pos (by decide)

theorem depthWeight_mono {m n : Nat} (h : m ≤ n) : depthWeight m ≤ depthWeight n :=
  Nat.pow_le_pow_right (by decide) h

theorem depthWeight_succ (n : Nat) : depthWeight (n + 1) = 27 * depthWeight n := by
  rw [depthWeight, depthWeight, Nat.pow_succ, Nat.mul_comm]

theorem Level.weight_cons (level : Level) (levels : List Level) :
    Level.weight (level :: levels) = (level.layers.map Aliases.weight).sum + Level.weight levels := by
  simp [Level.weight]

/-- A member of a record weighs less than the record. -/
theorem Aliases.depthWeight_lt {layer : Aliases} {owner : Ty} {member : String} {target : Scalar}
    (h : layer.lookup (owner, member) = some target) :
    depthWeight target.aggregateDepth < layer.weight := by
  have hmem : target ∈ layer.map Prod.snd := List.mem_map_of_mem (Assoc.mem_of_lookup h)
  have hle := depthWeight_mono (Scalar.le_aggregateDepths hmem)
  have hpos := depthWeight_pos target.aggregateDepth
  unfold Aliases.weight
  omega

/-- **A statement weighs more than its records and one of its scalars.** -/
theorem Statement.bound_weight_lt {s : Statement} {x : Scalar} (hx : x ∈ s.bound) :
    depthWeight x.aggregateDepth + (s.layers.map Aliases.weight).sum < s.weight := by
  have hle : ∀ x ∈ s.scalars, x.aggregateDepth ≤ Scalar.aggregateDepths s.scalars :=
    fun x hx => Scalar.le_aggregateDepths hx
  have hscalar := depthWeight_mono (Statement.forall_bound (fun _ => Nat.zero_le _) hle x hx)
  have hlayer : ∀ layer ∈ s.layers,
      layer.weight ≤ 3 * depthWeight (Scalar.aggregateDepths s.scalars) := by
    intro layer hlayer
    refine Nat.mul_le_mul_left 3 (depthWeight_mono (Scalar.aggregateDepths_le.mpr ?_))
    exact List.forall_mem_map.mpr (Statement.forall_layers hle layer hlayer)
  -- there are two layers at most: the records of the projection and those of the join
  have hlayers : (s.layers.map Aliases.weight).sum
      ≤ 6 * depthWeight (Scalar.aggregateDepths s.scalars) := by
    unfold Statement.layers at hlayer ⊢
    cases hselect : s.clauses.select <;> cases hresult : s.result? <;>
      simp only [hselect, hresult, Option.toList_none, Option.toList_some, List.nil_append,
        List.append_nil, List.singleton_append, List.map_cons, List.map_nil, List.forall_mem_cons,
        List.not_mem_nil, List.sum_cons, List.sum_nil] at hlayer ⊢ <;> omega
  have hpos := depthWeight_pos (Scalar.aggregateDepths s.scalars)
  unfold Statement.weight
  omega

theorem Statement.sizeOf_side {s t : Statement} (h : t ∈ s.sides) : sizeOf t < sizeOf s := by
  cases s with
  | table | join => cases h
  | crossJoin clauses left right leftRow rightRow result =>
    simp only [Statement.sides, List.mem_cons, List.not_mem_nil, or_false] at h
    rcases h with rfl | rfl <;> simp +arith

theorem Query.sizeOf_source {q source : Query} (h : source ∈ q.sources) :
    sizeOf source < sizeOf q := by
  cases q with
  | table => cases h
  | select | filter | orderBy | call | join | crossJoin =>
    simp only [Query.sources, List.mem_cons, List.not_mem_nil, or_false] at h
    rcases h with rfl | rfl <;> simp +arith

end Weights

/-! ## 4. There is no infinite chain of calls -/

/-- A call that is lighter, or as heavy and smaller. -/
theorem Call.toLex_lt_of_le {a a' b b' : Nat} (ha : a ≤ a') (hb : b < b') :
    (toLex (a, b) : Lex (Nat × Nat)) < toLex (a', b') :=
  Prod.Lex.toLex_lt_toLex'.mpr ⟨ha, fun _ => hb⟩

theorem Call.toLex_lt_of_lt {a a' b b' : Nat} (ha : a < a') :
    (toLex (a, b) : Lex (Nat × Nat)) < toLex (a', b') :=
  Prod.Lex.toLex_lt_toLex.mpr (Or.inl ha)

/-- **The rank decreases with every call.** -/
theorem Call.Makes.rank_lt {env : Env} {k k' : Call} (h : Makes env k' k) : k'.rank < k.rank := by
  cases h with
  | source h => exact toLex_lt_of_le (le_refl 0) (Query.sizeOf_source h)
  | side h =>
    refine toLex_lt_of_le (Nat.add_le_add_right (Nat.mul_le_mul_left 9 (depthWeight_mono ?_)) _)
      (Statement.sizeOf_side h)
    exact Scalar.aggregateDepths_le.mpr
      (Statement.forall_sides (fun x hx => Scalar.le_aggregateDepths hx) _ h)
  | bound h =>
    refine toLex_lt_of_lt ?_
    rw [Level.weight_cons, ← Nat.add_assoc]
    exact Nat.add_lt_add_right (Statement.bound_weight_lt h) _
  | operand h =>
    refine toLex_lt_of_le (Nat.add_le_add_right (depthWeight_mono ?_) _)
      (Scalar.sizeOf_lt_of_mem_operands h)
    exact Scalar.aggregateDepth_operand h
  | column => exact toLex_lt_of_lt (Nat.lt_add_of_pos_left (depthWeight_pos _))
  | subquery => exact toLex_lt_of_le (le_refl _) (by simp +arith)
  | member howner h =>
    refine toLex_lt_of_lt ?_
    rw [Level.weight_cons, Level.weight_cons, List.map_cons, List.sum_cons, Nat.add_assoc]
    exact Nat.add_lt_add_right (Aliases.depthWeight_lt h) _
  | below =>
    refine toLex_lt_of_lt ?_
    rw [Level.weight_cons, Level.weight_cons, List.map_cons, List.sum_cons, Nat.add_assoc]
    exact Nat.lt_add_of_pos_left (Nat.mul_pos (by decide) (depthWeight_pos _))
  | outer => exact toLex_lt_of_le (by simp [Level.weight_cons]) (Nat.lt_succ_self _)
  | query => exact toLex_lt_of_lt (Nat.add_pos_left (depthWeight_pos _) _)
  | @statement c level outer s role depth h =>
    -- the scalars of the statement are nested less deep than the one that holds the aggregate
    have hdepth := depthWeight_mono
      (Scalar.aggregateDepths_le.mpr (Query.scalars_le_of_toStatement h))
    have hpos := depthWeight_pos c.query.aggregateDepth
    refine toLex_lt_of_lt (Nat.add_lt_add_right ?_ _)
    rw [Statement.weight, depthWeight_succ]
    omega

/-- **There is no infinite chain of calls.** -/
theorem Call.makes_wellFounded (env : Env) : WellFounded (Makes env) :=
  Subrelation.wf Makes.rank_lt (InvImage.wf rank wellFounded_lt)

/-- **Compilation terminates.**  There is no infinite chain of calls, whatever statements, scalars,
records and scopes they are made with.  What a call computes is determined by the results of the calls
that it makes, so these are all that there are.  And the recursion through them, which has no bound of
its own, has exactly one solution; with it every query is compiled, in every session, to the selection or
the error that the compiler returns. -/
theorem Query.toSelect_terminates (env : Env) :
    WellFounded (Call.Makes env) ∧
    (∀ (sub sub' : Subqueries) (k : Call),
      (∀ k', Call.Makes env k' k → k'.answer env sub = k'.answer env sub') →
        k.body env sub = k.body env sub') ∧
    ∃ sub : Subqueries, sub.Solves env ∧ (∀ sub' : Subqueries, sub'.Solves env → sub' = sub) ∧
      ∀ (table : TypeTable) (q : Query),
        table.run (q.toSelect env) = table.run (q.toSelectWith env sub) := by
  refine ⟨Call.makes_wellFounded env, fun _ _ _ h => Call.body_congr h, Correlated.unbounded env,
    Correlated.unbounded_solves env, fun _ h => h.eq_unbounded, fun table q => ?_⟩
  rw [Query.toSelect_eq_unbounded]

-- a record whose only member refers to the record's own type is left behind once, and then is in no scope
example :
    let tag : Ty := .record "Tag" [("Number", .scalar .int32)]
    let c : Parameter := ⟨"c", .row "Customer"⟩
    let own : Expr := .member (.parameter "tag" tag) "Number" (.scalar .int32)
    ((Query.select (.table "Customer") ⟨[c], .new tag [("Number", own)]⟩).toSelect
      ⟨Shop.schema, {}⟩).outcome = .error (.unresolvedColumn "Tag.Number") := rfl

end ChainQuery
