import ChainQuery.Evaluate.Partial
import ChainQuery.Proofs.Expr.Children
/-!
# Children, their replacement and their nominations are aligned

The children of a node are enumerated in two places: `Expr.children` lists them, and
`Expr.traverseChildren` goes through them to rebuild the node.  Partial evaluation relies on the two to
agree, since it nominates along the list and then, while it rebuilds, takes the nominations one after
another.

They agree if the traversal

* applies its function to the listed children in their order, and to none after the first that fails
  (`Expr.run_traverseChildren_noting`);
* puts the results where the children were, and changes nothing else (`Expr.SameNode`).

Then every child meets the nomination that was made for it, and none is ever left without.
-/

namespace ChainQuery.Expr

variable {ε : Type}

/-! ## 1. The same node over other children -/

/-- **`e'` is the node `e` over children that may be others**: of the same kind, with the same operator,
the same names and the same types. -/
inductive SameNode : Expr → Expr → Prop where
  | binary {op left right left' right'} : SameNode (.binary op left right) (.binary op left' right')
  | unary {op operand operand'} : SameNode (.unary op operand) (.unary op operand')
  | member {object name t object'} : SameNode (.member object name t) (.member object' name t)
  | constant {value t} : SameNode (.constant value t) (.constant value t)
  | parameter {name t} : SameNode (.parameter name t) (.parameter name t)
  | new {t members members'} (names : members'.map Prod.fst = members.map Prod.fst) :
    SameNode (.new t members) (.new t members')
  | call {m receiver args t receiver' args'} (receivers : receiver'.isSome = receiver.isSome) :
    SameNode (.call m receiver args t) (.call m receiver' args' t)
  | conditional {test ifTrue ifFalse test' ifTrue' ifFalse'} :
    SameNode (.conditional test ifTrue ifFalse) (.conditional test' ifTrue' ifFalse')
  | lambda {params body body'} : SameNode (.lambda params body) (.lambda params body')
  | memberInit {t bindings bindings'} (names : bindings'.map Prod.fst = bindings.map Prod.fst) :
    SameNode (.memberInit t bindings) (.memberInit t bindings')
  | listInit {t elements elements'} : SameNode (.listInit t elements) (.listInit t elements')
  | newArray {t elements elements'} : SameNode (.newArray t elements) (.newArray t elements')
  | invoke {target args t target' args'} : SameNode (.invoke target args t) (.invoke target' args' t)
  | typeIs {operand target operand'} : SameNode (.typeIs operand target) (.typeIs operand' target)

/-- Renaming gives members the names that they had. -/
theorem map_fst_rename {members : List (String × Expr)} {values : List Expr}
    (h : values.length = members.length) :
    (rename members values).map Prod.fst = members.map Prod.fst := by
  induction members generalizing values with
  | nil => rfl
  | cons m rest ih =>
    cases values with
    | nil => cases h
    | cons v vs => exact congrArg (m.1 :: ·) (ih (Nat.succ.inj h))

/-- Members are their names with their expressions. -/
theorem rename_eq {members members' : List (String × Expr)}
    (h : members'.map Prod.fst = members.map Prod.fst) :
    rename members (members'.map Prod.snd) = members' := by
  induction members generalizing members' with
  | nil => exact (List.map_eq_nil_iff.mp h).symm ▸ rfl
  | cons m rest ih =>
    cases members' with
    | nil => cases h
    | cons m' rest' =>
      obtain ⟨hname, hrest⟩ := List.cons.inj h
      exact congrArg₂ List.cons (Prod.ext hname.symm rfl) (ih hrest)

/-- **A rebuilt node is the same node.** -/
theorem sameNode_withChildren {e : Expr} {cs : List Expr} (h : cs.length = e.children.length) :
    e.SameNode (e.withChildren cs) := by
  cases e with
  | constant => exact .constant
  | parameter => exact .parameter
  | listInit => exact .listInit
  | newArray => exact .newArray
  | new t members => exact .new (map_fst_rename (h.trans (List.length_map ..)))
  | memberInit t bindings => exact .memberInit (map_fst_rename (h.trans (List.length_map ..)))
  | unary =>
    obtain ⟨c, rfl⟩ := List.length_eq_one_iff.mp h
    exact .unary
  | member =>
    obtain ⟨c, rfl⟩ := List.length_eq_one_iff.mp h
    exact .member
  | lambda =>
    obtain ⟨c, rfl⟩ := List.length_eq_one_iff.mp h
    exact .lambda
  | typeIs =>
    obtain ⟨c, rfl⟩ := List.length_eq_one_iff.mp h
    exact .typeIs
  | binary =>
    obtain ⟨c, d, rfl⟩ := List.length_eq_two.mp h
    exact .binary
  | conditional =>
    obtain ⟨c, d, f, rfl⟩ := List.length_eq_three.mp h
    exact .conditional
  | call m receiver args t =>
    cases receiver with
    | none => exact .call rfl
    | some r =>
      obtain ⟨c, cs, rfl⟩ := List.exists_cons_of_length_eq_add_one h
      exact .call rfl
  | invoke =>
    obtain ⟨c, cs, rfl⟩ := List.exists_cons_of_length_eq_add_one h
    exact .invoke

/-- **The node and the children are all there is to an expression.** -/
theorem SameNode.eq_withChildren {e e' : Expr} (h : e.SameNode e') : e' = e.withChildren e'.children := by
  cases h with
  | new names => exact congrArg _ (rename_eq names).symm
  | memberInit names => exact congrArg _ (rename_eq names).symm
  | call receivers =>
    rename_i receiver _ _ receiver' _
    cases receiver <;> cases receiver' <;> first | rfl | cases receivers
  | _ => rfl

/-! ## 2. What a traversal is applied to -/

/-- `f`, with a note of every expression that it is applied to. -/
def noting (f : Expr → Except ε Expr) (e : Expr) : ExceptT ε (StateM (List Expr)) Expr :=
  ExceptT.mk do
    modify (· ++ [e])
    return f e

/-- The expressions of a list up to the first one for which `f` fails. -/
def upToFailure (f : Expr → Except ε Expr) (es : List Expr) : List Expr :=
  es.take ((es.takeWhile fun e => (f e).isOk).length + 1)

theorem upToFailure_cons_of_ok {f : Expr → Except ε Expr} {e e' : Expr} (h : f e = .ok e')
    (es : List Expr) : upToFailure f (e :: es) = e :: upToFailure f es := by
  simp [upToFailure, h, Except.isOk, Except.toBool]

theorem upToFailure_cons_of_error {f : Expr → Except ε Expr} {e : Expr} {error : ε}
    (h : f e = .error error) (es : List Expr) : upToFailure f (e :: es) = [e] := by
  simp [upToFailure, h, Except.isOk, Except.toBool]

/-- **Going through a list applies the function to its elements in their order, up to the first
failure.** -/
theorem run_mapM_noting (f : Expr → Except ε Expr) (es noted : List Expr) :
    (es.mapM (noting f)).run.run noted = (es.mapM f, noted ++ upToFailure f es) := by
  induction es generalizing noted with
  | nil => simp [upToFailure]; rfl
  | cons e es ih =>
    have hfirst : (noting f e).run.run noted = (f e, noted ++ [e]) := rfl
    rw [List.mapM_cons, List.mapM_cons, ExceptT.run_bind, StateT.run_bind, hfirst]
    cases he : f e with
    | error error =>
      rw [upToFailure_cons_of_error he]
      rfl
    | ok e' =>
      have hrest : ((e' :: ·) <$> es.mapM (noting f)).run.run (noted ++ [e])
          = ((e' :: ·) <$> es.mapM f, noted ++ e :: upToFailure f es) := by
        rw [ExceptT.run_map, StateT.run_map, ih, List.append_assoc]
        rfl
      simp only [upToFailure_cons_of_ok he, bind_pure_comp]
      exact hrest

/-- **A traversal applies its function to the children in their order, up to the first failure.** -/
theorem run_traverseChildren_noting (f : Expr → Except ε Expr) (e : Expr) :
    (e.traverseChildren (noting f)).run.run [] = (e.traverseChildren f, upToFailure f e.children) := by
  rw [traverseChildren_eq, traverseChildren_eq, ExceptT.run_map, StateT.run_map, run_mapM_noting,
    List.nil_append]
  rfl

/-- **A traversal succeeds with exactly the results as children**, and the same node around them. -/
theorem forall₂_iff_traverseChildren {f : Expr → Except ε Expr} {e : Expr} {cs : List Expr} :
    List.Forall₂ (fun c c' => f c = .ok c') e.children cs ↔
      ∃ e', e.traverseChildren f = .ok e' ∧ e'.children = cs ∧ e.SameNode e' := by
  constructor
  · intro h
    have hlength : cs.length = e.children.length := h.length_eq.symm
    exact ⟨e.withChildren cs, traverseChildren_eq_ok.mpr ⟨cs, h, rfl⟩, children_withChildren hlength,
      sameNode_withChildren hlength⟩
  · rintro ⟨e', he, rfl, -⟩
    obtain ⟨cs, h, rfl⟩ := traverseChildren_eq_ok.mp he
    rwa [children_withChildren h.length_eq.symm]

/-- A traversal that changes no child changes nothing. -/
theorem traverseChildren_ok (e : Expr) : e.traverseChildren (Except.ok : Expr → Except ε Expr) = .ok e :=
  traverseChildren_eq_ok.mpr
    ⟨e.children, List.forall₂_same.mpr fun _ _ => rfl, (withChildren_children e).symm⟩

/-- Traversals agree if they make the same of each child. -/
theorem traverseChildren_congr {f g : Expr → Except ε Expr} {e : Expr} (h : ∀ c ∈ e.children, f c = g c) :
    e.traverseChildren f = e.traverseChildren g := by
  rw [traverseChildren_eq, traverseChildren_eq, List.mapM_congr h]

/-! ## 3. What partial evaluation does with its nominations -/

/-- **What is done `otherwise` is never done**, at whatever depth. -/
theorem evaluate_nominate_eq_evaluateWith (accept : Expr → Bool) (otherwise : Expr → Except Error Expr)
    (e : Expr) : (e.nominate accept).evaluate otherwise e = e.evaluateWith accept := by
  induction e using children_induction with
  | node e ih =>
    rw [evaluate_nominate, evaluateWith_eq, traverseChildren_congr ih]

/-- **Children, their replacement and their nominations are aligned.**  A traversal applies its function to
the children in their order, and to none after the first that fails.  It succeeds with exactly the results
as children and the same node around them, or fails with the error of that first one; so one that changes
no child changes nothing.  What is nominated below a node is what is nominated for the children, in their
order; each child is evaluated by its own nomination, and what is done `otherwise` never happens. -/
theorem traverseChildren_aligned (f : Expr → Except ε Expr) (e : Expr) :
    (e.traverseChildren (noting f)).run.run [] = (e.traverseChildren f, upToFailure f e.children) ∧
    (∀ cs, List.Forall₂ (fun c c' => f c = .ok c') e.children cs ↔
      ∃ e', e.traverseChildren f = .ok e' ∧ e'.children = cs ∧ e.SameNode e') ∧
    (∀ error, e.traverseChildren f = .error error ↔
      ∃ (i : Nat) (c : Expr), e.children[i]? = some c ∧ f c = .error error ∧
        ∀ j < i, ∀ d, e.children[j]? = some d → ∃ d', f d = .ok d') ∧
    e.traverseChildren (Except.ok : Expr → Except ε Expr) = .ok e ∧
    ∀ accept otherwise,
      (e.nominate accept).children = e.children.map (nominate accept) ∧
      ((e.nominate accept).evaluate otherwise e =
        if (e.nominate accept).candidate then e.evaluated
        else e.traverseChildren fun c => (c.nominate accept).evaluate otherwise c) ∧
      (e.nominate accept).evaluate otherwise e = e.evaluateWith accept := by
  refine ⟨run_traverseChildren_noting f e, fun _ => forall₂_iff_traverseChildren, fun _ => ?_,
    traverseChildren_ok e, fun accept otherwise => ⟨?_, ?_, ?_⟩⟩
  · rw [traverseChildren_eq_error, Except.mapM_eq_error]
  · rw [nominate_eq]
    rfl
  · exact evaluate_nominate accept otherwise e
  · exact evaluate_nominate_eq_evaluateWith accept otherwise e

end ChainQuery.Expr
