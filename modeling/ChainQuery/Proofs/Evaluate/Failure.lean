import ChainQuery.Proofs.Evaluate.Folding
import ChainQuery.Proofs.Query.Traversal
/-!
# Where partial evaluation fails

Partial evaluation computes the value of every maximal closed sub-tree, and fails if one of them has none.
Inside such a sub-tree only what is needed is computed, as everywhere: a conjunction stops at `false`.  But
the maximal sub-trees themselves are all computed, from left to right, whether or not the node above would
have needed them.

So the failure is that of the first one without a value (`Expr.FailsFirstAt`), and says which it was and
why (`Expr.evaluate_eq_error_iff`).  In a query the sub-trees are those of its expressions, in the order in
which `Query.exprs` lists them.
-/

namespace ChainQuery

namespace Expr

variable {e c n : Expr} {p : List Nat} {i : Nat} {reason : Failure} {error : Error}

/-! ## 1. Failures of sub-trees -/

/-- **The first maximal closed sub-tree that has no value**, with the reason.  Positions are compared
lexicographically, and that is from left to right: none of them leads through another one. -/
structure FailsFirstAt (e : Expr) (p : List Nat) (n : Expr) (reason : Failure) : Prop where
  maximal : e.IsMaximal p n
  reason : n.eval = .error reason
  before : ∀ q m, q < p → e.IsMaximal q m → ∃ v, m.eval = .ok v

/-- In a closed expression nothing but the whole can fail. -/
theorem failsFirstAt_of_closed (he : e.Closed) :
    e.FailsFirstAt p n reason ↔ p = [] ∧ n = e ∧ e.eval = .error reason := by
  constructor
  · intro h
    obtain rfl := h.maximal.eq_nil he
    obtain rfl : e = n := Option.some.inj h.maximal.subtree
    exact ⟨rfl, rfl, h.reason⟩
  · rintro ⟨rfl, rfl, hreason⟩
    exact ⟨he.isMaximal, hreason, fun q m hq _ => absurd hq (List.not_lt_nil q)⟩

/-- **The first failure in an expression that is not closed is the first one in a child**, and there is none
in the children before. -/
theorem failsFirstAt_cons_iff (he : ¬ e.Closed) (hc : e.children[i]? = some c) :
    e.FailsFirstAt (i :: p) n reason ↔ c.FailsFirstAt p n reason ∧
      ∀ j < i, ∀ d, e.children[j]? = some d → ∀ q m, d.IsMaximal q m → ∃ v, m.eval = .ok v := by
  constructor
  · intro h
    refine ⟨⟨(isMaximal_cons_iff he hc).mp h.maximal, h.reason, ?_⟩, ?_⟩
    · intro q m hq hm
      exact h.before (i :: q) m (List.cons_lt_cons_iff.mpr (Or.inr ⟨rfl, hq⟩))
        ((isMaximal_cons_iff he hc).mpr hm)
    · intro j hj d hd q m hm
      exact h.before (j :: q) m (List.cons_lt_cons_iff.mpr (Or.inl hj))
        ((isMaximal_cons_iff he hd).mpr hm)
  · rintro ⟨h, hbefore⟩
    refine ⟨(isMaximal_cons_iff he hc).mpr h.maximal, h.reason, ?_⟩
    intro q m hq hm
    cases q with
    | nil => exact absurd (Option.some.inj hm.subtree ▸ hm.closed) he
    | cons j q =>
      obtain ⟨d, hd, -⟩ := Option.bind_eq_some_iff.mp hm.subtree
      have hm' : d.IsMaximal q m := (isMaximal_cons_iff he hd).mp hm
      rcases List.cons_lt_cons_iff.mp hq with hj | ⟨rfl, hbelow⟩
      · exact hbefore j hj d hd q m hm'
      · obtain rfl : c = d := Option.some.inj (hc.symm.trans hd)
        exact h.before q m hbelow hm'

/-! ## 2. Failures of partial evaluation -/

/-- **Partial evaluation succeeds iff every maximal closed sub-tree has a value.** -/
theorem exists_evaluate_eq_ok_iff :
    (∃ e', e.evaluate = .ok e') ↔ ∀ p n, e.IsMaximal p n → ∃ v, n.eval = .ok v := by
  constructor
  · rintro ⟨e', h⟩ p n hn
    obtain ⟨v, hv, -⟩ := (evaluate_eq_ok_iff.mp h).folded p n hn
    exact ⟨v, hv⟩
  · intro h
    cases hevaluate : e.evaluate with
    | ok e' => exact ⟨e', rfl⟩
    | error error =>
      exfalso
      induction e using children_induction generalizing error with
      | node e ih =>
        rw [evaluate, evaluateWith_eq] at hevaluate
        split at hevaluate
        · rename_i hclosed
          obtain ⟨reason, hreason, -⟩ := evaluated_eq_error_iff.mp hevaluate
          obtain ⟨v, hv⟩ := h [] e (closedFor_isLocal_iff.mp hclosed).isMaximal
          rw [hreason] at hv
          cases hv
        · rename_i hopen
          have he : ¬ e.Closed := fun he => hopen (closedFor_isLocal_iff.mpr he)
          obtain ⟨i, c, hc, hfail, -⟩ :=
            Except.mapM_eq_error.mp (traverseChildren_eq_error.mp hevaluate)
          refine ih c (List.mem_of_getElem? hc) ?_ error hfail
          intro p n hn
          exact h (i :: p) n ((isMaximal_cons_iff he hc).mpr hn)

/-- **Partial evaluation fails with the first maximal closed sub-tree that has no value**: the error has its
text, and the reason why it has none. -/
theorem evaluate_eq_error_iff :
    e.evaluate = .error error ↔ ∃ p n reason, e.FailsFirstAt p n reason ∧
      error = .invalidLocalEvaluation n.text reason := by
  induction e using children_induction with
  | node e ih =>
    rw [evaluate, evaluateWith_eq]
    by_cases he : e.Closed
    · rw [if_pos (closedFor_isLocal_iff.mpr he), evaluated_eq_error_iff]
      constructor
      · rintro ⟨reason, hreason, rfl⟩
        exact ⟨[], e, reason, (failsFirstAt_of_closed he).mpr ⟨rfl, rfl, hreason⟩, rfl⟩
      · rintro ⟨p, n, reason, h, rfl⟩
        obtain ⟨-, rfl, hreason⟩ := (failsFirstAt_of_closed he).mp h
        exact ⟨reason, hreason, rfl⟩
    · rw [if_neg (mt closedFor_isLocal_iff.mp he), traverseChildren_eq_error, Except.mapM_eq_error]
      constructor
      · rintro ⟨i, c, hc, hfail, hbefore⟩
        obtain ⟨p, n, reason, h, rfl⟩ := (ih c (List.mem_of_getElem? hc)).mp hfail
        refine ⟨i :: p, n, reason, (failsFirstAt_cons_iff he hc).mpr ⟨h, ?_⟩, rfl⟩
        exact fun j hj d hd => exists_evaluate_eq_ok_iff.mp (hbefore j hj d hd)
      · rintro ⟨_ | ⟨i, p⟩, n, reason, h, rfl⟩
        · exact absurd (Option.some.inj h.maximal.subtree ▸ h.maximal.closed) he
        · obtain ⟨c, hc, -⟩ := Option.bind_eq_some_iff.mp h.maximal.subtree
          obtain ⟨hfirst, hbefore⟩ := (failsFirstAt_cons_iff he hc).mp h
          refine ⟨i, c, hc, (ih c (List.mem_of_getElem? hc)).mpr ⟨p, n, reason, hfirst, rfl⟩, ?_⟩
          exact fun j hj d hd => exists_evaluate_eq_ok_iff.mpr (hbefore j hj d hd)

end Expr

namespace Query

variable {q : Query} {error : Error}

/-! ## 3. Queries -/

/-- A query is evaluated iff each of its expressions is. -/
theorem exists_evaluate_eq_error_iff :
    (∃ error, q.evaluate = .error error) ↔ ∃ e ∈ q.exprs, ∃ error, e.evaluate = .error error := by
  constructor
  · rintro ⟨error, h⟩
    obtain ⟨e, he, hfail⟩ := Except.exists_of_mapM_eq_error (mapExprs_eq_error.mp h)
    exact ⟨e, he, error, hfail⟩
  · rintro ⟨e, he, error, hfail⟩
    cases hevaluate : q.evaluate with
    | error error' => exact ⟨error', rfl⟩
    | ok q' =>
      obtain ⟨e', -, hok⟩ := (mapExprs_eq_ok.mp hevaluate).forall₂_exprs.exists_of_mem he
      rw [hfail] at hok
      cases hok

/-- **Partial evaluation fails exactly on the first bad closed sub-tree.**  An expression is not evaluated
iff one of its maximal closed sub-trees has no value, and the error tells the first of them and why it has
none.  A query is not evaluated iff one of its expressions is not, and the error is that of the first of
them: the sources of an operator come before its own lambdas. -/
theorem evaluate_fails_first (e : Expr) (q : Query) (error : Error) :
    ((∃ error, e.evaluate = .error error) ↔
      ∃ p n reason, e.IsMaximal p n ∧ n.eval = .error reason) ∧
    (e.evaluate = .error error ↔ ∃ p n reason, e.FailsFirstAt p n reason ∧
      error = .invalidLocalEvaluation n.text reason) ∧
    ((∃ error, q.evaluate = .error error) ↔ ∃ e ∈ q.exprs, ∃ error, e.evaluate = .error error) ∧
    (q.evaluate = .error error ↔ ∃ (i : Nat) (e : Expr), q.exprs[i]? = some e ∧
      e.evaluate = .error error ∧
        ∀ j < i, ∀ d, q.exprs[j]? = some d → ∃ d', d.evaluate = .ok d') := by
  refine ⟨?_, Expr.evaluate_eq_error_iff, exists_evaluate_eq_error_iff,
    mapExprs_eq_error.trans Except.mapM_eq_error⟩
  constructor
  · rintro ⟨error, h⟩
    obtain ⟨p, n, reason, h, -⟩ := Expr.evaluate_eq_error_iff.mp h
    exact ⟨p, n, reason, h.maximal, h.reason⟩
  · rintro ⟨p, n, reason, hn, hreason⟩
    cases hevaluate : e.evaluate with
    | error error => exact ⟨error, rfl⟩
    | ok e' =>
      obtain ⟨v, hv⟩ := Expr.exists_evaluate_eq_ok_iff.mp ⟨e', hevaluate⟩ p n hn
      rw [hreason] at hv
      cases hv

/-- In `(false && 1 / 0 == 1) || n < 2 / 0` the conjunction has the value `false`, so the first bad sub-tree
is `2 / 0`.  A join with this filter on its inner source fails with it, although the key of the outer source
is `3 / 0`. -/
theorem evaluate_fails_first_division :
    let number : Ty := .scalar .int32
    let literal (i : Int64) : Expr := .constant (.int i) number
    let quotient (i : Int64) : Expr := .binary .divide (literal i) (literal 0)
    let n : Parameter := ⟨"n", number⟩
    let e : Expr := .binary .or
      (.binary .and (.constant (.bool false) .boolean) (.binary .equal (quotient 1) (literal 1)))
      (.binary .lessThan n.reference (quotient 2))
    let inner : Query := .filter (.table "Order") ⟨[n], e⟩
    let q : Query := .join (.table "Customer") inner ⟨[n], quotient 3⟩ (.identity n) (.identity n)
    let error := Error.invalidLocalEvaluation "(2 / 0)" .divisionByZero
    e.evaluate = .error error ∧
    (∃ p n reason, e.FailsFirstAt p n reason ∧ error = .invalidLocalEvaluation n.text reason) ∧
    q.evaluate = .error error ∧
    ∃ (i : Nat) (e : Expr), q.exprs[i]? = some e ∧ e.evaluate = .error error ∧
      ∀ j < i, ∀ d, q.exprs[j]? = some d → ∃ d', d.evaluate = .ok d' := by
  intro number literal quotient n e inner q error
  have he : e.evaluate = .error error := rfl
  have hq : q.evaluate = .error error := rfl
  obtain ⟨-, hfirst, -, hquery⟩ := evaluate_fails_first e q error
  exact ⟨he, hfirst.mp he, hq, hquery.mp hq⟩

end Query

end ChainQuery
