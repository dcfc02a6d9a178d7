import ChainQuery.Proofs.Compile.Correlation
import ChainQuery.Proofs.Compile.ReadingRules
import ChainQuery.Proofs.Compile.Scalars
import ChainQuery.Proofs.Expr.Strings
import Mathlib.Order.MinMax
/-!
# How deep aggregates are nested

A scalar can hold an aggregate, whose query has lambdas, which are read to scalars when the aggregate is
compiled, and so on (`Scalar.aggregateDepth`).  Each step goes one level deeper into the expression that
the scalar was read from: the query of an aggregate is nested less deep than the call of it
(`Correlated.aggregateDepth_of_ofCall`), an expression is read to a scalar that is nested no deeper than
itself (`Expr.ReadTo.aggregateDepth_le`), and a statement is gathered from such
(`Query.scalars_le_of_toStatement`).
-/

namespace ChainQuery

/-! ## 1. Expressions and queries -/

theorem le_foldl_max (xs : List Nat) (start : Nat) :
    start ≤ xs.foldl max start ∧ ∀ x ∈ xs, x ≤ xs.foldl max start := by
  induction xs generalizing start with
  | nil => simp
  | cons x xs ih =>
    obtain ⟨hstart, hxs⟩ := ih (max start x)
    rw [List.foldl_cons]
    exact ⟨le_trans (le_max_left start x) hstart,
      List.forall_mem_cons.mpr ⟨le_trans (le_max_right start x) hstart, hxs⟩⟩

namespace Expr

/-- Children are nested less deep, and those of an aggregate by one at least. -/
theorem aggregateDepth_child {e c : Expr} (h : c ∈ e.children) :
    c.aggregateDepth + (if e.isAggregate then 1 else 0) ≤ e.aggregateDepth := by
  rw [aggregateDepth_eq e]
  exact Nat.add_le_add_right ((le_foldl_max _ 0).2 _ (List.mem_map_of_mem h)) _

theorem aggregateDepth_le_of_child {e c : Expr} (h : c ∈ e.children) :
    c.aggregateDepth ≤ e.aggregateDepth :=
  le_trans (Nat.le_add_right _ _) (aggregateDepth_child h)

end Expr

namespace Correlated

variable {schema : Schema} {args : List Expr}

/-- The comparison of the keys of an aggregate is no deeper than its arguments. -/
theorem Call.aggregateDepth_correlation (k : Call schema args) {n : Nat}
    (hargs : ∀ arg ∈ args, arg.aggregateDepth ≤ n) :
    k.reference.aggregateDepth ≤ n ∧
      (Expr.binary .equal k.reference k.key).aggregateDepth ≤ n := by
  have hreference : k.reference.aggregateDepth ≤ n := Nat.zero_le n
  have hkey : k.key.aggregateDepth ≤ n := by
    refine Expr.aggregateDepth_le rfl (List.forall_mem_singleton.mpr ?_)
    exact le_trans (Expr.aggregateDepth_le_of_child List.mem_cons_self) (hargs _ k.collection_mem)
  exact ⟨hreference, Expr.aggregateDepth_le rfl (by simpa [Expr.children] using ⟨hreference, hkey⟩)⟩

/-- **The query of an aggregate is nested less deep than the call of it.** -/
theorem aggregateDepth_of_ofCall {text : String} {a : Aggregate} {c : Correlated} {n : Nat}
    (h : (ofCall schema text a args).outcome = .ok c)
    (hargs : ∀ arg ∈ args, arg.aggregateDepth ≤ n) : c.query.aggregateDepth ≤ n := by
  obtain ⟨k, predicate, projection, nested, hclauses, rfl⟩ := ofCall_eq_ok.mp h
  obtain ⟨hreference, hcorrelation⟩ := k.aggregateDepth_correlation hargs
  have hselector : ∀ l, k.selector = some l → l.body.aggregateDepth ≤ n := by
    intro l hl
    have hbody : l.body.aggregateDepth ≤ l.toExpr.aggregateDepth :=
      Expr.aggregateDepth_le_of_child List.mem_cons_self
    exact le_trans hbody (hargs _ (k.selector_mem hl))
  have hand : ∀ body : Expr, body.aggregateDepth ≤ n →
      (Expr.binary .and (.binary .equal k.reference k.key) body).aggregateDepth ≤ n :=
    fun body hbody => Expr.aggregateDepth_le rfl (by simpa [Expr.children] using ⟨hcorrelation, hbody⟩)
  have hpair : ∀ body : Expr, body.aggregateDepth ≤ n →
      (Expr.record "KeyValuePair" [("Key", k.reference), ("Value", body)]).aggregateDepth ≤ n :=
    fun body hbody => Expr.aggregateDepth_le rfl
      (by simpa [Expr.record, Expr.children] using ⟨hreference, hbody⟩)
  have hparts : predicate.aggregateDepth ≤ n ∧ projection.body.aggregateDepth ≤ n :=
    clauses_parts hclauses hcorrelation (Nat.zero_le n) hselector hand hpair
  simpa [Call.query, Query.aggregateDepth] using hparts

end Correlated

/-! ## 2. Scalars -/

namespace Scalar

/-- The scalars that a scalar is composed of. -/
def operands : Scalar → List Scalar
  | .binary _ left right => [left, right]
  | .not operand | .negate operand => [operand]
  | .function _ args => args
  | .like subject pattern _ => [subject, pattern]
  | .case test ifTrue ifFalse => [test, ifTrue, ifFalse]
  | .column _ | .value _ | .null | .subquery _ | .composite _ => []

mutual
/-- The scalars that a scalar is composed of, itself included, from left to right. -/
def parts : Scalar → List Scalar
  | .binary op left right => .binary op left right :: (left.parts ++ right.parts)
  | .not operand => .not operand :: operand.parts
  | .negate operand => .negate operand :: operand.parts
  | .function f args => .function f args :: listParts args
  | .like subject pattern wildcards =>
    .like subject pattern wildcards :: (subject.parts ++ pattern.parts)
  | .case test ifTrue ifFalse =>
    .case test ifTrue ifFalse :: (test.parts ++ ifTrue.parts ++ ifFalse.parts)
  | .column token => [.column token]
  | .value v => [.value v]
  | .null => [.null]
  | .subquery c => [.subquery c]
  | .composite text => [.composite text]

/-- The scalars that the scalars of a list are composed of. -/
def listParts : List Scalar → List Scalar
  | [] => []
  | s :: rest => s.parts ++ listParts rest
end

theorem listParts_eq_flatMap (xs : List Scalar) : listParts xs = xs.flatMap parts := by
  induction xs with
  | nil => rfl
  | cons x xs ih => rw [listParts, ih, List.flatMap_cons]

/-- The parts of a scalar are itself and those of its operands. -/
theorem parts_eq (x : Scalar) : x.parts = x :: x.operands.flatMap parts := by
  cases x <;> simp [parts, operands, listParts_eq_flatMap]

theorem mem_parts_self (x : Scalar) : x ∈ x.parts := by
  rw [parts_eq]
  exact List.mem_cons_self

theorem parts_operand {x y : Scalar} (h : y ∈ x.operands) : y.parts ⊆ x.parts := by
  rw [x.parts_eq]
  exact fun z hz => List.mem_cons_of_mem _ (List.mem_flatMap.mpr ⟨y, h, hz⟩)

mutual
/-- **How deep aggregates are nested in a scalar.** -/
def aggregateDepth : Scalar → Nat
  | .column _ | .value _ | .null | .composite _ => 0
  | .binary _ left right => max left.aggregateDepth right.aggregateDepth
  | .not operand => operand.aggregateDepth
  | .negate operand => operand.aggregateDepth
  | .function _ args => aggregateDepths args
  | .like subject pattern _ => max subject.aggregateDepth pattern.aggregateDepth
  | .case test ifTrue ifFalse =>
    max test.aggregateDepth (max ifTrue.aggregateDepth ifFalse.aggregateDepth)
  | .subquery c => c.query.aggregateDepth + 1

/-- How deep aggregates are nested in scalars. -/
def aggregateDepths : List Scalar → Nat
  | [] => 0
  | s :: rest => max s.aggregateDepth (aggregateDepths rest)
end

theorem aggregateDepths_le {xs : List Scalar} {n : Nat} :
    aggregateDepths xs ≤ n ↔ ∀ x ∈ xs, x.aggregateDepth ≤ n := by
  induction xs with
  | nil => simp [aggregateDepths]
  | cons x xs ih => simp [aggregateDepths, ih]

theorem le_aggregateDepths {xs : List Scalar} {x : Scalar} (h : x ∈ xs) :
    x.aggregateDepth ≤ aggregateDepths xs :=
  aggregateDepths_le.mp (le_refl _) x h

theorem aggregateDepth_operand {x y : Scalar} (h : y ∈ x.operands) :
    y.aggregateDepth ≤ x.aggregateDepth := by
  cases x with
  | function f args => exact le_aggregateDepths h
  | column | value | null | subquery | composite => cases h
  | binary | not | negate | like | case =>
    simp only [operands, List.mem_cons, List.not_mem_nil, or_false] at h
    rcases h with rfl | rfl | rfl <;> simp [aggregateDepth]

end Scalar

/-! ## 3. Reading -/

namespace Expr

/-- **An expression is read to a scalar that is nested no deeper than itself.** -/
theorem ReadTo.aggregateDepth_le {schema : Schema} {n : Nat} {e : Expr} {s : Scalar}
    (h : e.ReadTo schema s) (hn : e.aggregateDepth ≤ n) : s.aggregateDepth ≤ n := by
  have hchild : ∀ {e c : Expr}, e.aggregateDepth ≤ n → c ∈ e.children → c.aggregateDepth ≤ n :=
    fun hn hc => le_trans (aggregateDepth_le_of_child hc) hn
  induction h with
  | binary _ _ _ ihl ihr =>
    exact max_le (ihl (hchild hn (by simp [children]))) (ihr (hchild hn (by simp [children])))
  | not _ ih | negate _ ih => exact ih (hchild hn (by simp [children]))
  | convert _ _ ih => exact ih (hchild hn (by simp [children]))
  | column | inner | null | object | value | row | record => exact Nat.zero_le n
  | like _ _ _ _ ihs ihp =>
    exact max_le (ihs (hchild hn (by simp [children]))) (ihp (hchild hn (by simp [children])))
  | substring _ _ _ _ ihs iha ihb =>
    have hs := ihs (hchild hn (by simp [children]))
    have ha := iha (hchild hn (by simp [children]))
    have hb := ihb (hchild hn (by simp [children]))
    exact Scalar.aggregateDepths_le.mpr (by simpa using ⟨hs, ha, hb⟩)
  | changeCase _ _ _ ihs =>
    have hs := ihs (hchild hn (by simp [children]))
    exact Scalar.aggregateDepths_le.mpr (by simpa using hs)
  | aggregate h =>
    -- the arguments are nested less deep than the call, and the query no deeper than they are
    obtain ⟨a, receiver, args, t, rfl, hcall⟩ := called?_eq_some.mp h
    have hargs : ∀ arg ∈ args, arg.aggregateDepth + 1 ≤ n := by
      intro arg harg
      have harg : arg ∈ (call (.aggregate a) receiver args t).children :=
        List.mem_append_right _ harg
      exact le_trans (aggregateDepth_child harg) hn
    have hpositive : 1 ≤ n := by
      rw [aggregateDepth_eq] at hn
      exact le_trans (Nat.le_add_left 1 _) hn
    have hquery := Correlated.aggregateDepth_of_ofCall hcall fun arg harg =>
      Nat.le_sub_of_add_le (hargs arg harg)
    exact Nat.add_le_of_le_sub hpositive hquery
  | ifTrue _ _ _ _ ih | ifFalse _ _ _ _ ih => exact ih (hchild hn (by simp [children]))
  | case _ _ _ _ iht ihx ihy =>
    have ht := iht (hchild hn (by simp [children]))
    have hx := ihx (hchild hn (by simp [children]))
    have hy := ihy (hchild hn (by simp [children]))
    exact max_le ht (max_le hx hy)

/-- What is visited in an expression is nested no deeper than it. -/
theorem aggregateDepth_le_of_visited {e n : Expr} (hn : n ∈ e.visited) :
    n.aggregateDepth ≤ e.aggregateDepth := by
  induction e using children_induction with
  | node e ih =>
    rcases mem_visited_cases hn with rfl | ⟨c, hc, hn⟩
    · exact le_refl _
    · exact le_trans (ih c hc hn) (aggregateDepth_le_of_child hc)

end Expr

/-! ## 4. Statements -/

section Statements

variable {env : Env} {n : Nat}

/-- **A lambda is read to scalars that are nested no deeper than its body.** -/
theorem Lambda.scalars_le {l : Lambda} {arity : Nat} {p : Projection}
    (h : (l.read env arity).outcome = .ok p) (hn : l.body.aggregateDepth ≤ n) :
    ∀ x ∈ p.scalars, x.aggregateDepth ≤ n :=
  Lambda.forall_scalars_of_read h fun _ hnode _ hx =>
    hx.aggregateDepth_le (le_trans (Expr.aggregateDepth_le_of_visited hnode) hn)

namespace Query

/-- The lambdas of a query are nested no deeper than it. -/
theorem aggregateDepth_le_of_mem_lambdas {q : Query} {l : Lambda} (h : l ∈ q.lambdas) :
    l.body.aggregateDepth ≤ q.aggregateDepth := by
  have hall : ∀ l ∈ q.lambdas, l.body.aggregateDepth ≤ q.aggregateDepth := by
    clear h
    induction q with
    | table => simp [lambdas]
    | call _ _ _ ih => exact ih
    | select _ _ ih | filter _ _ ih | orderBy _ _ _ ih =>
      exact List.forall_mem_cons.mpr
        ⟨le_max_right _ _, fun l hl => le_trans (ih l hl) (le_max_left _ _)⟩
    | join _ _ _ _ _ ihl ihr =>
      simp only [lambdas, aggregateDepth, List.forall_mem_append, List.forall_mem_cons]
      refine ⟨⟨⟨?_, ?_, ?_, by simp⟩, fun l hl => ?_⟩, fun l hl => ?_⟩
      · simp
      · simp
      · simp
      · exact le_trans (ihl l hl) (by simp)
      · exact le_trans (ihr l hl) (by simp)
    | crossJoin _ _ _ ihl ihr =>
      simp only [lambdas, aggregateDepth, List.cons_append, List.forall_mem_append,
        List.forall_mem_cons]
      refine ⟨by simp, fun l hl => ?_, fun l hl => ?_⟩
      · exact le_trans (ihl l hl) (by simp)
      · exact le_trans (ihr l hl) (by simp)
  exact hall l h

/-- **A statement holds no scalar that is nested deeper than its query.** -/
theorem scalars_le_of_toStatement {q : Query} {s : Statement}
    (h : (q.toStatement env).outcome = .ok s) :
    ∀ x ∈ s.scalars, x.aggregateDepth ≤ q.aggregateDepth :=
  forall_scalars_of_toStatement h fun _ hl _ _ hp =>
    Lambda.scalars_le hp (aggregateDepth_le_of_mem_lambdas hl)

end Query

end Statements

end ChainQuery
