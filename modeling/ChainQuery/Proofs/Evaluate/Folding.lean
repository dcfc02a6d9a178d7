import ChainQuery.Proofs.Evaluate.Meaning
/-!
# Which parts of an expression are folded

Partial evaluation is written in two passes, one from the leaves that nominates and one from the root that
replaces.  Here its result is described without recursion, by positions in the tree (`FoldedTo`):

* at the position of a maximal closed sub-tree stands one constant, with the value and the type of that
  sub-tree;
* at the position of a sub-tree that is not closed stands the same node over other children;
* there is nothing else.

A sub-tree is closed if none of its nodes blocks: if it is made without parameters, without anything that
binds or calls through them, and without conversions (`blockers`).  The description fixes the result, and
partial evaluation has a result exactly if there is one to describe (`evaluate_eq_ok_iff`).
-/

namespace ChainQuery.Expr

/-! ## 1. Sub-trees -/

/-- The sub-tree at a position.  A position is the path to it: which child of the root, which child of
that, and so on. -/
def subtree? : List Nat → Expr → Option Expr
  | [], e => some e
  | i :: p, e => e.children[i]?.bind (subtree? p)

@[simp] theorem subtree?_nil (e : Expr) : e.subtree? [] = some e := rfl

theorem subtree?_cons (e : Expr) (i : Nat) (p : List Nat) :
    e.subtree? (i :: p) = e.children[i]?.bind (subtree? p) := rfl

theorem subtree?_cons_of_child {e c : Expr} {i : Nat} (hc : e.children[i]? = some c) (p : List Nat) :
    e.subtree? (i :: p) = c.subtree? p := by
  rw [subtree?_cons, hc, Option.bind_some]

/-- A constant has no sub-tree but itself. -/
theorem eq_constant_of_subtree? {v : Literal} {t : Ty} {p : List Nat} {n : Expr}
    (h : (constant v t).subtree? p = some n) : p = [] ∧ n = constant v t := by
  cases p with
  | nil => exact ⟨rfl, (Option.some.inj h).symm⟩
  | cons i p => cases h

/-! ## 2. Blocking nodes -/

/-- A node that keeps an expression from being evaluated before compilation, with its own data. -/
inductive Blocker where
  | parameter (name : String) (type : Ty)
  | lambda (params : List Parameter)
  | invoke (type : Ty)
  | convert (target : Ty)
  deriving Repr, DecidableEq

/-- What the root of an expression blocks with, if it does. -/
def blocker? : Expr → Option Blocker
  | .parameter name t => some (.parameter name t)
  | .lambda params _ => some (.lambda params)
  | .invoke _ _ t => some (.invoke t)
  | .unary (.convert target) _ => some (.convert target)
  | _ => none

/-- **The blocking nodes of an expression**, from left to right, a node before those below it. -/
def blockers (e : Expr) : List Blocker :=
  e.fold fun node below => node.blocker?.toList ++ below.flatten

/-- **An expression without blocking nodes.** -/
def Closed (e : Expr) : Prop := e.blockers = []

instance (e : Expr) : Decidable e.Closed := inferInstanceAs (Decidable (e.blockers = []))

theorem blockers_eq (e : Expr) :
    e.blockers = e.blocker?.toList ++ e.children.flatMap blockers := by
  unfold blockers
  rw [fold_eq]
  rfl

theorem closed_iff {e : Expr} : e.Closed ↔ e.blocker? = none ∧ ∀ c ∈ e.children, c.Closed := by
  unfold Closed
  rw [blockers_eq, List.append_eq_nil_iff, Option.toList_eq_nil_iff, List.flatMap_eq_nil_iff]

/-- A node may be evaluated before compilation iff it does not block. -/
theorem isLocal_iff {e : Expr} : e.isLocal = true ↔ e.blocker? = none := by
  cases e with
  | unary op operand => cases op <;> simp [isLocal, blocker?]
  | _ => simp [isLocal, blocker?]

/-- **The expressions that are folded whole are the closed ones.** -/
theorem closedFor_isLocal_iff {e : Expr} : e.closedFor isLocal = true ↔ e.Closed := by
  induction e using children_induction with
  | node e ih =>
    rw [closedFor_eq, Bool.and_eq_true, List.all_eq_true, isLocal_iff, closed_iff, and_comm]
    exact and_congr_right fun _ => forall₂_congr fun c hc => ih c hc

/-- Sub-trees of closed expressions are closed. -/
theorem Closed.subtree {e n : Expr} (he : e.Closed) {p : List Nat} (h : e.subtree? p = some n) :
    n.Closed := by
  induction p generalizing e with
  | nil => exact Option.some.inj h ▸ he
  | cons i p ih =>
    obtain ⟨c, hc, hn⟩ := Option.bind_eq_some_iff.mp h
    exact ih ((closed_iff.mp he).2 c (List.mem_of_getElem? hc)) hn

theorem closed_constant (v : Literal) (t : Ty) : (constant v t).Closed := rfl

/-- Other children do not change what the root of an expression blocks with. -/
theorem blocker?_withChildren {e : Expr} {cs : List Expr} (h : cs.length = e.children.length) :
    (e.withChildren cs).blocker? = e.blocker? := by
  cases e with
  | constant | parameter | new | memberInit | listInit | newArray => rfl
  | unary op operand =>
    obtain ⟨c, rfl⟩ := List.length_eq_one_iff.mp h
    cases op <;> rfl
  | member | lambda | typeIs =>
    obtain ⟨c, rfl⟩ := List.length_eq_one_iff.mp h
    rfl
  | binary =>
    obtain ⟨c, d, rfl⟩ := List.length_eq_two.mp h
    rfl
  | conditional =>
    obtain ⟨c, d, f, rfl⟩ := List.length_eq_three.mp h
    rfl
  | call m receiver args t =>
    cases receiver with
    | none => rfl
    | some r =>
      obtain ⟨c, cs, rfl⟩ := List.exists_cons_of_length_eq_add_one h
      rfl
  | invoke target args t =>
    obtain ⟨c, cs, rfl⟩ := List.exists_cons_of_length_eq_add_one h
    rfl

/-! ## 3. The folded tree -/

/-- **A maximal closed sub-tree**: `n` stands at the position `p` of `e`, is closed, and no sub-tree
around it is. -/
structure IsMaximal (e : Expr) (p : List Nat) (n : Expr) : Prop where
  subtree : e.subtree? p = some n
  closed : n.Closed
  around : ∀ q m, q <+: p → q ≠ p → e.subtree? q = some m → ¬ m.Closed

/-- **`e'` is `e` with every maximal closed sub-tree folded** and every other node left in place. -/
structure FoldedTo (e e' : Expr) : Prop where
  /-- A maximal closed sub-tree has become a constant of its value and its type. -/
  folded : ∀ p n, e.IsMaximal p n →
    ∃ v, n.eval = .ok v ∧ e'.subtree? p = some (.constant v n.type)
  /-- Every other node is the same, over as many children. -/
  kept : ∀ p n, e.subtree? p = some n → ¬ n.Closed →
    ∃ cs, cs.length = n.children.length ∧ e'.subtree? p = some (n.withChildren cs)
  /-- There is nothing else. -/
  only : ∀ p n', e'.subtree? p = some n' →
    ∃ n, e.subtree? p = some n ∧ (e.IsMaximal p n ∨ ¬ n.Closed)

variable {e e' : Expr}

/-- In a closed expression only the whole is maximal. -/
theorem IsMaximal.eq_nil (he : e.Closed) {p : List Nat} {n : Expr} (h : e.IsMaximal p n) : p = [] := by
  by_contra hp
  exact h.around [] e List.nil_prefix (Ne.symm hp) rfl he

theorem Closed.isMaximal (he : e.Closed) : e.IsMaximal [] e := by
  refine ⟨rfl, he, ?_⟩
  intro q m hq hne
  exact absurd (List.prefix_nil.mp hq) hne

/-- **In an expression that is not closed the maximal sub-trees are those of its children.** -/
theorem isMaximal_cons_iff (he : ¬ e.Closed) {c : Expr} {i : Nat} (hc : e.children[i]? = some c)
    {p : List Nat} {n : Expr} : e.IsMaximal (i :: p) n ↔ c.IsMaximal p n := by
  constructor
  · intro h
    refine ⟨(subtree?_cons_of_child hc p).symm.trans h.subtree, h.closed, ?_⟩
    intro q m hq hne hm
    refine h.around (i :: q) m (List.cons_prefix_cons.mpr ⟨rfl, hq⟩) ?_ ?_
    · exact fun heq => hne (List.cons.inj heq).2
    · exact (subtree?_cons_of_child hc q).trans hm
  · intro h
    refine ⟨(subtree?_cons_of_child hc p).trans h.subtree, h.closed, ?_⟩
    intro q m hq hne hm
    cases q with
    | nil => exact Option.some.inj hm ▸ he
    | cons j q =>
      obtain ⟨rfl, hq'⟩ := List.cons_prefix_cons.mp hq
      refine h.around q m hq' ?_ ?_
      · exact fun heq => hne (congrArg (j :: ·) heq)
      · exact (subtree?_cons_of_child hc q).symm.trans hm

/-- A closed expression is folded to a constant. -/
theorem foldedTo_constant (he : e.Closed) {v : Literal} (hv : e.eval = .ok v) :
    e.FoldedTo (.constant v e.type) where
  folded p n hn := by
    obtain rfl := hn.eq_nil he
    obtain rfl : e = n := Option.some.inj hn.subtree
    exact ⟨v, hv, rfl⟩
  kept p n hn hopen := absurd (he.subtree hn) hopen
  only p n' hn' := by
    obtain ⟨rfl, rfl⟩ := eq_constant_of_subtree? hn'
    exact ⟨e, rfl, Or.inl he.isMaximal⟩

/-- **An expression that is not closed keeps its root**, over children that are folded each. -/
theorem foldedTo_withChildren (he : ¬ e.Closed) {cs : List Expr}
    (h : List.Forall₂ FoldedTo e.children cs) : e.FoldedTo (e.withChildren cs) := by
  have hlength : cs.length = e.children.length := h.length_eq.symm
  have hchildren : (e.withChildren cs).children = cs := children_withChildren hlength
  -- a child of the one stands where a child of the other does
  have hchild : ∀ {i : Nat} {c c' : Expr}, e.children[i]? = some c → cs[i]? = some c' →
      c.FoldedTo c' := by
    intro i c c' hc hc'
    obtain ⟨hi, rfl⟩ := List.getElem?_eq_some_iff.mp hc
    obtain ⟨hi', rfl⟩ := List.getElem?_eq_some_iff.mp hc'
    exact List.Forall₂.get h hi hi'
  have hfind : ∀ {i : Nat} {c : Expr}, e.children[i]? = some c →
      ∃ c', cs[i]? = some c' ∧ ∀ p, (e.withChildren cs).subtree? (i :: p) = c'.subtree? p := by
    intro i c hc
    obtain ⟨hi, -⟩ := List.getElem?_eq_some_iff.mp hc
    obtain ⟨c', hc'⟩ : ∃ c', cs[i]? = some c' := ⟨_, List.getElem?_eq_getElem (hlength ▸ hi)⟩
    exact ⟨c', hc', fun p => subtree?_cons_of_child (by rw [hchildren, hc']) p⟩
  constructor
  · intro p n hn
    cases p with
    | nil => exact absurd (Option.some.inj hn.subtree ▸ hn.closed) he
    | cons i p =>
      obtain ⟨c, hc, -⟩ := Option.bind_eq_some_iff.mp hn.subtree
      obtain ⟨c', hc', hsubtree⟩ := hfind hc
      rw [hsubtree]
      exact (hchild hc hc').folded p n ((isMaximal_cons_iff he hc).mp hn)
  · intro p n hn hopen
    cases p with
    | nil =>
      obtain rfl : e = n := Option.some.inj hn
      exact ⟨cs, hlength, rfl⟩
    | cons i p =>
      obtain ⟨c, hc, hn⟩ := Option.bind_eq_some_iff.mp hn
      obtain ⟨c', hc', hsubtree⟩ := hfind hc
      rw [hsubtree]
      exact (hchild hc hc').kept p n hn hopen
  · intro p n' hn'
    cases p with
    | nil => exact ⟨e, rfl, Or.inr he⟩
    | cons i p =>
      rw [subtree?_cons, hchildren] at hn'
      obtain ⟨c', hc', hn'⟩ := Option.bind_eq_some_iff.mp hn'
      obtain ⟨hi, -⟩ := List.getElem?_eq_some_iff.mp hc'
      obtain ⟨c, hc⟩ : ∃ c, e.children[i]? = some c :=
        ⟨_, List.getElem?_eq_getElem (hlength ▸ hi)⟩
      obtain ⟨n, hn, hcase⟩ := (hchild hc hc').only p n' hn'
      refine ⟨n, (subtree?_cons_of_child hc p).trans hn, ?_⟩
      exact hcase.imp_left (isMaximal_cons_iff he hc).mpr

/-- What stands in the place of a child is that child folded. -/
theorem FoldedTo.child (h : e.FoldedTo e') (he : ¬ e.Closed) {i : Nat} {c c' : Expr}
    (hc : e.children[i]? = some c) (hc' : e'.children[i]? = some c') : c.FoldedTo c' where
  folded p n hn := by
    rw [← subtree?_cons_of_child hc' p]
    exact h.folded (i :: p) n ((isMaximal_cons_iff he hc).mpr hn)
  kept p n hn hopen := by
    rw [← subtree?_cons_of_child hc' p]
    exact h.kept (i :: p) n ((subtree?_cons_of_child hc p).trans hn) hopen
  only p n' hn' := by
    obtain ⟨n, hn, hcase⟩ := h.only (i :: p) n' ((subtree?_cons_of_child hc' p).trans hn')
    exact ⟨n, (subtree?_cons_of_child hc p).symm.trans hn,
      hcase.imp_left (isMaximal_cons_iff he hc).mp⟩

/-- What stands in the place of any sub-tree that is not closed is that sub-tree folded. -/
theorem FoldedTo.subtree (h : e.FoldedTo e') {p : List Nat} {n n' : Expr} (hn : e.subtree? p = some n)
    (hn' : e'.subtree? p = some n') (hopen : ¬ n.Closed) : n.FoldedTo n' := by
  induction p generalizing e e' with
  | nil =>
    obtain rfl : e = n := Option.some.inj hn
    obtain rfl : e' = n' := Option.some.inj hn'
    exact h
  | cons i p ih =>
    have he : ¬ e.Closed := fun he => hopen (he.subtree hn)
    obtain ⟨c, hc, hn⟩ := Option.bind_eq_some_iff.mp hn
    obtain ⟨c', hc', hn'⟩ := Option.bind_eq_some_iff.mp hn'
    exact ih (h.child he hc hc') hn hn'

/-! ## 4. Partial evaluation -/

/-- **Partial evaluation has the folded expression for its result, and none if there is no such
expression.** -/
theorem evaluate_eq_ok_iff : e.evaluate = .ok e' ↔ e.FoldedTo e' := by
  constructor
  · refine evaluateWith_rel ?_ ?_
    · intro e e' hclosed h
      obtain ⟨v, hv, rfl⟩ := evaluated_eq_ok_iff.mp h
      exact foldedTo_constant (closedFor_isLocal_iff.mp hclosed) hv
    · intro e cs hopen hcs
      refine foldedTo_withChildren ?_ hcs
      rw [← closedFor_isLocal_iff, hopen]
      exact Bool.false_ne_true
  · induction e using children_induction generalizing e' with
    | node e ih =>
      intro h
      rw [evaluate, evaluateWith_eq]
      by_cases he : e.Closed
      · rw [if_pos (closedFor_isLocal_iff.mpr he)]
        obtain ⟨v, hv, h⟩ := h.folded [] e he.isMaximal
        exact evaluated_eq_ok_iff.mpr ⟨v, hv, Option.some.inj h⟩
      · rw [if_neg (mt closedFor_isLocal_iff.mp he)]
        obtain ⟨cs, hlength, hroot⟩ := h.kept [] e rfl he
        obtain rfl : e' = e.withChildren cs := Option.some.inj hroot
        have hchildren : (e.withChildren cs).children = cs := children_withChildren hlength
        refine traverseChildren_eq_ok.mpr ⟨cs, ?_, rfl⟩
        refine List.forall₂_iff_get.mpr ⟨hlength.symm, ?_⟩
        intro i hi hi'
        refine ih _ (List.getElem_mem hi) ?_
        exact h.child he (List.getElem?_eq_getElem hi) (by rw [hchildren]; exact List.getElem?_eq_getElem hi')

/-- **Partial evaluation keeps the blocking nodes.** -/
theorem blockers_evaluate (h : e.evaluate = .ok e') : e'.blockers = e.blockers := by
  refine evaluateWith_rel (R := fun e e' => e'.blockers = e.blockers) ?_ ?_ h
  · intro e e' hclosed h
    obtain ⟨v, -, rfl⟩ := evaluated_eq_ok_iff.mp h
    exact (closedFor_isLocal_iff.mp hclosed).symm
  · intro e cs _ hcs
    have hlength : cs.length = e.children.length := hcs.length_eq.symm
    have hbelow : ∀ {xs ys : List Expr}, List.Forall₂ (fun x y => y.blockers = x.blockers) xs ys →
        ys.flatMap blockers = xs.flatMap blockers := by
      intro xs ys hxs
      induction hxs with
      | nil => rfl
      | cons hx _ ih => rw [List.flatMap_cons, List.flatMap_cons, hx, ih]
    rw [blockers_eq, blockers_eq, blocker?_withChildren hlength, children_withChildren hlength,
      hbelow hcs]

/-- What is left closed is a constant: a node that was kept still has a blocking node below it or at
it. -/
theorem FoldedTo.eq_constant (h : e.FoldedTo e') {p : List Nat} {n' : Expr}
    (hn' : e'.subtree? p = some n') (hclosed : n'.Closed) : ∃ v t, n' = .constant v t := by
  obtain ⟨n, hn, hmaximal | hopen⟩ := h.only p n' hn'
  · obtain ⟨v, -, hv⟩ := h.folded p n hmaximal
    exact ⟨v, n.type, Option.some.inj (hn'.symm.trans hv)⟩
  · have hblockers := blockers_evaluate (evaluate_eq_ok_iff.mpr (h.subtree hn hn' hopen))
    exact absurd (hblockers.symm.trans hclosed) hopen

/-- **Partial evaluation folds exactly the maximal closed sub-trees**: each becomes one constant, and
every other node stays where it is with its own data.  So a closed expression becomes a constant, nothing
but constants is left closed, and the blocking nodes are those of the expression, in the same order. -/
theorem foldedTo_of_evaluate (h : e.evaluate = .ok e') :
    e.FoldedTo e' ∧
    (e.Closed → ∃ v, e' = .constant v e.type) ∧
    (∀ p n, e'.subtree? p = some n → n.Closed → ∃ v t, n = .constant v t) ∧
    e'.blockers = e.blockers := by
  have hfolded : e.FoldedTo e' := evaluate_eq_ok_iff.mp h
  refine ⟨hfolded, ?_, fun p n => hfolded.eq_constant, blockers_evaluate h⟩
  intro he
  obtain ⟨v, -, hv⟩ := hfolded.folded [] e he.isMaximal
  exact ⟨v, Option.some.inj hv⟩

/-- `(long)(1 + 2) < n && orders.Any(o => o < 4 * 5)` is folded to `(long)3 < n && orders.Any(o => o < 20)`:
the sum below the conversion is a maximal closed sub-tree, and so is the product below the lambda.  The
conversion, both parameters and the lambda stay. -/
theorem foldedTo_of_evaluate_sample :
    let number : Ty := .scalar .int32
    let long : Ty := .scalar .int64
    let literal (i : Int64) : Expr := constant (.int i) number
    let order : Parameter := ⟨"o", number⟩
    let whole (sum product : Expr) : Expr :=
      binary .and (binary .lessThan (unary (.convert long) sum) (parameter "n" long))
        (call (.other "Enumerable" "Any") none [parameter "orders" (.collection number),
          lambda [order] (binary .lessThan order.reference product)] .boolean)
    let e := whole (binary .add (literal 1) (literal 2)) (binary .multiply (literal 4) (literal 5))
    let e' := whole (literal 3) (literal 20)
    e.evaluate = .ok e' ∧ e.FoldedTo e' ∧
    e.IsMaximal [0, 0, 0] (binary .add (literal 1) (literal 2)) ∧
    e'.blockers = [.convert long, .parameter "n" long, .parameter "orders" (.collection number),
      .lambda [order], .parameter "o" number] := by
  intro number long literal order whole e e'
  have h : e.evaluate = .ok e' := rfl
  obtain ⟨hfolded, -, -, hblockers⟩ := foldedTo_of_evaluate h
  have hmaximal : e.IsMaximal [0, 0, 0] (binary .add (literal 1) (literal 2)) := by
    refine (isMaximal_cons_iff (by decide) rfl).mpr ?_
    refine (isMaximal_cons_iff (by decide) rfl).mpr ?_
    refine (isMaximal_cons_iff (by decide) rfl).mpr ?_
    exact Closed.isMaximal rfl
  exact ⟨h, hfolded, hmaximal, hblockers⟩

end ChainQuery.Expr
