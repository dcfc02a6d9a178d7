import ChainQuery.Compile.Plan
import ChainQuery.Proofs.Evaluate.Meaning
import ChainQuery.Proofs.Query.Traversal
import ChainQuery.Schema.Shop
/-!
# Partial evaluation keeps static types

The type of a node is computed from some of its children only: the left operand, the first branch, the body
of a lambda.  A folded part is stamped with the type that it had (`Expr.type_evaluated`), and a node that
stays reads its children through their types (`Expr.type_withChildren`), so no type moves, whatever nodes
are accepted.  The rows of a query are typed by its projections, and so is the plan that a query is compiled
to after it was evaluated: the plan names the type of the query as it was written
(`Query.evaluate_keeps_types`).
-/

namespace ChainQuery

namespace Expr

/-! ## 1. Expressions -/

/-- A folded part is a constant of its type. -/
theorem type_evaluated {e e' : Expr} (h : e.evaluated = .ok e') : e'.type = e.type := by
  obtain ⟨v, -, rfl⟩ := evaluated_eq_ok_iff.mp h
  rfl

/-- **The type of a node depends on its children through their types only.** -/
theorem type_withChildren {e : Expr} {cs : List Expr}
    (h : List.Forall₂ (fun c c' => c'.type = c.type) e.children cs) :
    (e.withChildren cs).type = e.type := by
  cases e with
  | constant | parameter | new | memberInit | listInit | newArray => rfl
  | binary op left right =>
    match cs, h with
    | [_, _], .cons hleft _ => rw [withChildren, type, type, hleft]
  | unary op operand =>
    match cs, h with
    | [_], .cons hoperand _ =>
      cases op with
      | negate => exact hoperand
      | not | convert => rfl
  | conditional test ifTrue ifFalse =>
    match cs, h with
    | [_, _, _], .cons _ (.cons hifTrue _) => exact hifTrue
  | lambda params body =>
    match cs, h with
    | [_], .cons hbody _ => exact hbody
  | member | typeIs =>
    match cs, h with
    | [_], _ => rfl
  | call m receiver args t =>
    cases receiver with
    | none => rfl
    | some r =>
      match cs, h with
      | _ :: _, _ => rfl
  | invoke target args t =>
    match cs, h with
    | _ :: _, _ => rfl

/-- **Partial evaluation keeps the type of an expression**, whatever nodes are accepted. -/
theorem type_evaluateWith {accept : Expr → Bool} {e e' : Expr}
    (h : e.evaluateWith accept = .ok e') : e'.type = e.type :=
  evaluateWith_rel (R := fun e e' => e'.type = e.type) (fun _ _ _ => type_evaluated)
    (fun _ _ _ => type_withChildren) h

end Expr

namespace Query

/-! ## 2. Queries -/

/-- **The rows of a query are typed by the types in its lambdas.** -/
theorem Pointwise.elementType_eq {R : Expr → Expr → Prop} {q q' : Query} (h : q.Pointwise R q')
    (hR : ∀ e e', R e e' → e'.type = e.type) : q'.elementType = q.elementType := by
  induction h with
  | table rowType => rfl
  | select _ hselector _ => exact hR _ _ hselector.body
  | join _ _ _ _ hresult _ _ => exact hR _ _ hresult.body
  | crossJoin _ _ hresult _ _ => exact hR _ _ hresult.body
  | filter _ _ ih => exact ih
  | orderBy _ _ _ ih => exact ih
  | call _ _ _ ih => exact ih

theorem elementType_evaluate {q q' : Query} (h : q.evaluate = .ok q') :
    q'.elementType = q.elementType :=
  (mapExprs_eq_ok.mp h).elementType_eq fun _ _ => Expr.type_evaluateWith

/-- **Partial evaluation keeps static types**: that of an expression whatever nodes are accepted, and that
of the rows of a query.  So the plan of a query names the type of its rows as the query was written, and not
only as it was after evaluation. -/
theorem evaluate_keeps_types :
    (∀ (accept : Expr → Bool) (e e' : Expr), e.evaluateWith accept = .ok e' → e'.type = e.type) ∧
    (∀ q q' : Query, q.evaluate = .ok q' → q'.elementType = q.elementType) ∧
    ∀ (env : Env) (q : Query) (plan : Plan), q.compile env = .ok plan →
      plan.rowType = q.elementType.text := by
  refine ⟨fun _ _ _ => Expr.type_evaluateWith, fun _ _ => elementType_evaluate, ?_⟩
  intro env q plan h
  obtain ⟨q', hevaluate, h⟩ := Except.bind_eq_ok.mp h
  obtain ⟨select, _, h⟩ := Except.bind_eq_ok.mp h
  cases h
  exact congrArg Ty.text (elementType_evaluate hevaluate)

/-- `(long)(1 + 2)` is the long `3` where conversions are accepted.  The cards of
`Table<Customer>.Select(c => new Card { Name = c.Name, Limit = 2 * 50 })` have the type that was written,
with a limit of `100`. -/
theorem evaluate_keeps_types_cards :
    let number : Ty := .scalar .int32
    let literal (i : Int64) : Expr := .constant (.int i) number
    let sum := Expr.unary (.convert (.scalar .int64)) (.binary .add (literal 1) (literal 2))
    let c : Parameter := ⟨"c", .row "Customer"⟩
    let cards (limit : Expr) := Query.select (.table "Customer")
      ⟨[c], Expr.record "Card" [("Name", Shop.field c "Name"), ("Limit", limit)]⟩
    let q := cards (.binary .multiply (literal 2) (literal 50))
    let q' := cards (literal 100)
    let plan : Plan :=
      { rowType := "Card"
        select := { list := .plain [.bareColumn "Name"]
                    source := some (.table (.table "Customer") (some (Sql.depthAlias 0)))
                    joins := []
                    filter := .always
                    orderBy := [] } }
    let three := Expr.constant (.int 3) (.scalar .int64)
    (sum.evaluateWith (fun _ => true) = .ok three ∧ three.type = sum.type) ∧
    (q.evaluate = .ok q' ∧ q'.elementType = q.elementType) ∧
    q.compile ⟨Shop.schema, {}⟩ = .ok plan ∧ plan.rowType = q.elementType.text := by
  intro number literal sum c cards q q' plan three
  have hsum : sum.evaluateWith (fun _ => true) = .ok three := rfl
  have hq : q.evaluate = .ok q' := rfl
  have hplan : q.compile ⟨Shop.schema, {}⟩ = .ok plan := by
    rw [compile, hq]
    rfl
  obtain ⟨hexpr, hquery, hcompile⟩ := evaluate_keeps_types
  exact ⟨⟨hsum, hexpr _ _ _ hsum⟩, ⟨hq, hquery _ _ hq⟩, hplan, hcompile _ _ _ hplan⟩

end Query

end ChainQuery
