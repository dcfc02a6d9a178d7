import ChainQuery.Proofs.Evaluate.Folding
import ChainQuery.Proofs.Query.Traversal
/-!
# Partial evaluation leaves nothing to evaluate

An expression is folded if constants are all that is accepted in it (`Expr.IsFolded`).  Evaluating a folded
expression changes nothing, whatever nodes are accepted (`Expr.evaluateWith_of_isFolded`).

That partial evaluation ends in a folded expression needs one thing of the predicate that accepts nodes: it
must not look below them (`Expr.IsShallow`), because a node that was kept for what it is has to be kept again
over new children.  The kind of a node is such a condition, and so is the default one.
-/

namespace ChainQuery

namespace Expr

variable {accept : Expr → Bool} {e e' : Expr}

/-! ## 1. Folded expressions -/

/-- **Constants are all that is accepted** in an expression. -/
def IsFolded (accept : Expr → Bool) (e : Expr) : Prop :=
  ∀ p n, e.subtree? p = some n → n.closedFor accept = true → ∃ v t, n = .constant v t

theorem isFolded_constant (v : Literal) (t : Ty) : (constant v t).IsFolded accept := by
  intro p n hn _
  exact ⟨v, t, (eq_constant_of_subtree? hn).2⟩

/-- An expression that is kept is folded if its children are. -/
theorem isFolded_of_children (hopen : e.closedFor accept = false)
    (h : ∀ c ∈ e.children, c.IsFolded accept) : e.IsFolded accept := by
  intro p n hn hclosed
  cases p with
  | nil =>
    obtain rfl : e = n := Option.some.inj hn
    rw [hopen] at hclosed
    cases hclosed
  | cons i p =>
    obtain ⟨c, hc, hn⟩ := Option.bind_eq_some_iff.mp hn
    exact h c (List.mem_of_getElem? hc) p n hn hclosed

theorem IsFolded.child (h : e.IsFolded accept) {c : Expr} (hc : c ∈ e.children) :
    c.IsFolded accept := by
  obtain ⟨i, hi⟩ := List.getElem?_of_mem hc
  intro p n hn
  exact h (i :: p) n ((subtree?_cons_of_child hi p).trans hn)

/-- **A folded expression is left as it is.** -/
theorem evaluateWith_of_isFolded (h : e.IsFolded accept) : e.evaluateWith accept = .ok e := by
  induction e using children_induction with
  | node e ih =>
    rw [evaluateWith_eq]
    split
    · rename_i hclosed
      obtain ⟨v, t, rfl⟩ := h [] e rfl hclosed
      rfl
    · refine traverseChildren_eq_ok.mpr ⟨e.children, ?_, (withChildren_children e).symm⟩
      exact List.forall₂_same.mpr fun c hc => ih c hc (h.child hc)

/-! ## 2. What may be accepted -/

/-- **A predicate that does not look below the root** of an expression. -/
def IsShallow (accept : Expr → Bool) : Prop :=
  ∀ (e : Expr) (cs : List Expr), cs.length = e.children.length →
    accept (e.withChildren cs) = accept e

/-- Accepts the nodes of all kinds but the listed ones. -/
def isNoneOf (kinds : List String) (e : Expr) : Bool := !kinds.contains e.node

@[simp] theorem node_withChildren (e : Expr) (cs : List Expr) :
    (e.withChildren cs).node = e.node := by
  unfold withChildren
  split <;> rfl

theorem isShallow_isNoneOf (kinds : List String) : IsShallow (isNoneOf kinds) := by
  intro e cs _
  rw [isNoneOf, node_withChildren, isNoneOf]

theorem isShallow_isLocal : IsShallow isLocal := by
  intro e cs h
  rw [Bool.eq_iff_iff, isLocal_iff, isLocal_iff, blocker?_withChildren h]

/-! ## 3. Partial evaluation -/

/-- **Partial evaluation ends in a folded expression**, and folds nothing at a root that it kept. -/
theorem isFolded_of_evaluateWith (haccept : IsShallow accept)
    (h : e.evaluateWith accept = .ok e') :
    e'.IsFolded accept ∧ (e.closedFor accept = false → e'.closedFor accept = false) := by
  refine evaluateWith_rel (R := fun e e' => e'.IsFolded accept ∧
    (e.closedFor accept = false → e'.closedFor accept = false)) ?_ ?_ h
  · intro e e' hclosed h
    obtain ⟨v, -, rfl⟩ := evaluated_eq_ok_iff.mp h
    refine ⟨isFolded_constant v e.type, fun hopen => ?_⟩
    rw [hclosed] at hopen
    cases hopen
  · intro e cs hopen hcs
    have hchildren : (e.withChildren cs).children = cs := children_withChildren hcs.length_eq.symm
    have hopen' : (e.withChildren cs).closedFor accept = false := by
      rw [closedFor_eq, Bool.and_eq_false_iff, List.all_eq_false] at hopen ⊢
      rw [hchildren, haccept e cs hcs.length_eq.symm]
      -- either the node is rejected again, or it stands over a child that was kept
      refine hopen.imp_left ?_
      rintro ⟨c, hc, hkept⟩
      obtain ⟨c', hc', -, hkept'⟩ := hcs.exists_of_mem hc
      exact ⟨c', hc', Bool.not_eq_true _ ▸ hkept' (Bool.not_eq_true _ ▸ hkept)⟩
    refine ⟨isFolded_of_children hopen' ?_, fun _ => hopen'⟩
    rw [hchildren]
    intro c' hc'
    obtain ⟨c, -, hfolded, -⟩ := hcs.flip.exists_of_mem hc'
    exact hfolded

/-- **Partial evaluation is idempotent.** -/
theorem evaluateWith_of_evaluateWith (haccept : IsShallow accept)
    (h : e.evaluateWith accept = .ok e') : e'.evaluateWith accept = .ok e' :=
  evaluateWith_of_isFolded (isFolded_of_evaluateWith haccept h).1

end Expr

namespace Query

/-- **Partial evaluation is idempotent**: if it succeeds, it leaves its result as it is.  So it is for every
choice of the kinds of nodes that are not accepted, for the nodes that are accepted by default, and for
queries. -/
theorem evaluate_idempotent :
    (∀ (kinds : List String) (e e' : Expr), e.evaluateWith (Expr.isNoneOf kinds) = .ok e' →
      e'.evaluateWith (Expr.isNoneOf kinds) = .ok e') ∧
    (∀ e e' : Expr, e.evaluate = .ok e' → e'.evaluate = .ok e') ∧
    ∀ q q' : Query, q.evaluate = .ok q' → q'.evaluate = .ok q' := by
  refine ⟨?_, ?_, ?_⟩
  · intro kinds e e'
    exact Expr.evaluateWith_of_evaluateWith (Expr.isShallow_isNoneOf kinds)
  · intro e e'
    exact Expr.evaluateWith_of_evaluateWith Expr.isShallow_isLocal
  · intro q q' h
    have hexprs := (mapExprs_eq_ok.mp h).forall₂_exprs
    refine mapExprs_eq_ok.mpr ((pointwise_refl q').imp ?_)
    rintro e' he' _ rfl
    obtain ⟨e, -, he⟩ := hexprs.flip.exists_of_mem he'
    exact Expr.evaluateWith_of_evaluateWith Expr.isShallow_isLocal he

/-- `-(1 + 2) + n` becomes `-3 + n` in one pass.  Where no operator of one operand is accepted it becomes
`-(3) + n`, and the negation is kept again although a constant is all that is left below it. -/
theorem evaluate_idempotent_negation :
    let number : Ty := .scalar .int32
    let literal (i : Int64) : Expr := .constant (.int i) number
    let n : Parameter := ⟨"n", number⟩
    let plus (e : Expr) : Expr := .binary .add e n.reference
    let e := plus (.unary .negate (.binary .add (literal 1) (literal 2)))
    let kept := plus (.unary .negate (literal 3))
    let folded := plus (literal (-3))
    let numbers (e : Expr) : Query := .select (.table "Order") ⟨[n], e⟩
    let kinds := ["unary", "parameter"]
    (e.evaluateWith (Expr.isNoneOf kinds) = .ok kept ∧
      kept.evaluateWith (Expr.isNoneOf kinds) = .ok kept) ∧
    (e.evaluate = .ok folded ∧ folded.evaluate = .ok folded) ∧
    (numbers e).evaluate = .ok (numbers folded) ∧
      (numbers folded).evaluate = .ok (numbers folded) := by
  intro number literal n plus e kept folded numbers kinds
  have hkept : e.evaluateWith (Expr.isNoneOf kinds) = .ok kept := rfl
  have hfolded : e.evaluate = .ok folded := rfl
  have hnumbers : (numbers e).evaluate = .ok (numbers folded) := rfl
  obtain ⟨hkinds, hdefault, hquery⟩ := evaluate_idempotent
  exact ⟨⟨hkept, hkinds _ _ _ hkept⟩, ⟨hfolded, hdefault _ _ hfolded⟩, hnumbers, hquery _ _ hnumbers⟩

end Query

end ChainQuery
