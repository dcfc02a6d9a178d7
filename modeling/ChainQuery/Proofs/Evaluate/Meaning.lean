import ChainQuery.Evaluate.Partial
import ChainQuery.Proofs.Expr.Children
/-!
# Partial evaluation keeps the meaning of an expression

The meaning of an expression is its value under an assignment of values to parameters, or the reason
why it has none (`Expr.evalWith`).  Partial evaluation replaces parts of an expression by constants,
and `Expr.evalWith_evaluateWith` says that this moves no meaning, whatever parts are accepted.

Two facts carry the argument, one for each thing that partial evaluation does to a node.

* **A folded part.**  It has a value without any assignment, and a value that was reached without
  asking for a parameter is the value under every assignment (`evalWith_mono`).
* **A node that stays.**  The value of a node depends on its children through their meanings only
  (`evalWith_withChildren`), so new children of the same meaning do not show.

The induction that joins them is stated for any relation between an expression and its result
(`evaluateWith_rel`).
-/

namespace ChainQuery.Expr

-- every node is evaluated, and given new children, by the rule of its kind
attribute [local simp] evalWith evalList evalMembers children withChildren

/-! ## 1. The induction of partial evaluation -/

/-- A folded part is the constant of its value and its type: a constant is that already. -/
theorem evaluated_eq (e : Expr) :
    e.evaluated = match e.eval with
      | .ok v => .ok (.constant v e.type)
      | .error reason => .error (.invalidLocalEvaluation e.text reason) := by
  cases e <;> rfl

theorem evaluated_eq_ok_iff {e e' : Expr} :
    e.evaluated = .ok e' ↔ ∃ v, e.eval = .ok v ∧ e' = .constant v e.type := by
  rw [evaluated_eq]
  cases e.eval with
  | ok v => simp [eq_comm]
  | error reason => simp

theorem evaluated_eq_error_iff {e : Expr} {error : Error} :
    e.evaluated = .error error ↔
      ∃ reason, e.eval = .error reason ∧ error = .invalidLocalEvaluation e.text reason := by
  rw [evaluated_eq]
  cases e.eval with
  | ok v => simp
  | error reason => simp [eq_comm]

/-- **What holds between every folded part and its constant, and passes from children to nodes,
holds between an expression and its partial evaluation.** -/
theorem evaluateWith_rel {accept : Expr → Bool} {R : Expr → Expr → Prop}
    (folded : ∀ e e', e.closedFor accept = true → e.evaluated = .ok e' → R e e')
    (kept : ∀ e cs, e.closedFor accept = false → List.Forall₂ R e.children cs →
      R e (e.withChildren cs)) :
    ∀ {e e' : Expr}, e.evaluateWith accept = .ok e' → R e e' := by
  intro e
  induction e using children_induction with
  | node e ih =>
    intro e' h
    rw [evaluateWith_eq] at h
    split at h
    · rename_i hclosed
      exact folded e e' hclosed h
    · rename_i hopen
      obtain ⟨cs, hcs, rfl⟩ := traverseChildren_eq_ok.mp h
      refine kept e cs (by simpa using hopen) ?_
      have hrel : List.Forall₂ (fun c c' => c ∈ e.children ∧ evaluateWith accept c = .ok c')
          e.children cs := (List.forall₂_and_left _ _).mpr ⟨fun _ hc => hc, hcs⟩
      exact hrel.imp fun c c' hc => ih c hc.1 hc.2

/-! ## 2. A value that needs no parameter -/

/-- `y` has the value of `x` whenever `x` has one. -/
def Extends {α : Type} (x y : Except Failure α) : Prop := ∀ v, x = .ok v → y = .ok v

theorem Extends.refl {α : Type} (x : Except Failure α) : Extends x x := fun _ h => h

theorem Extends.bind {α β : Type} {x y : Except Failure α} {f g : α → Except Failure β}
    (hxy : Extends x y) (hfg : ∀ a, Extends (f a) (g a)) : Extends (x >>= f) (y >>= g) := by
  intro v hv
  obtain ⟨a, hx, hf⟩ := Except.bind_eq_ok.mp hv
  exact Except.bind_eq_ok.mpr ⟨a, hxy a hx, hfg a v hf⟩

section Assignments

variable {ρ ρ' : String → Except Failure Literal}

theorem evalList_mono {es : List Expr}
    (h : ∀ e ∈ es, Extends (e.evalWith ρ) (e.evalWith ρ')) :
    Extends (evalList ρ es) (evalList ρ' es) := by
  induction es with
  | nil => exact Extends.refl _
  | cons e rest ih =>
    have hrest : ∀ c ∈ rest, Extends (c.evalWith ρ) (c.evalWith ρ') :=
      fun c hc => h c (List.mem_cons_of_mem _ hc)
    simp only [evalList]
    exact (h e List.mem_cons_self).bind fun v => (ih hrest).bind fun vs => Extends.refl _

theorem evalMembers_mono {members : List (String × Expr)}
    (h : ∀ e ∈ members.map Prod.snd, Extends (e.evalWith ρ) (e.evalWith ρ')) :
    Extends (evalMembers ρ members) (evalMembers ρ' members) := by
  induction members with
  | nil => exact Extends.refl _
  | cons m rest ih =>
    obtain ⟨name, e⟩ := m
    have hrest : ∀ c ∈ rest.map Prod.snd, Extends (c.evalWith ρ) (c.evalWith ρ') :=
      fun c hc => h c (List.mem_cons_of_mem _ hc)
    simp only [evalMembers]
    exact (h e List.mem_cons_self).bind fun v => (ih hrest).bind fun vs => Extends.refl _

/-- **An assignment that gives more parameters a value takes none away.** -/
theorem evalWith_mono (hρ : ∀ name, Extends (ρ name) (ρ' name)) (e : Expr) :
    Extends (e.evalWith ρ) (e.evalWith ρ') := by
  induction e using children_induction with
  | node e ih =>
    cases e with
    | constant value t => exact Extends.refl _
    | parameter name t => exact hρ name
    | binary op left right =>
      simp only [evalWith]
      refine (ih left (by simp)).bind fun l => ?_
      have hright : ∀ f : Literal → Except Failure Literal,
          Extends (right.evalWith ρ >>= f) (right.evalWith ρ' >>= f) :=
        fun f => (ih right (by simp)).bind fun r => Extends.refl _
      split
      · exact Extends.refl _
      · exact Extends.refl _
      · exact hright _
    | unary op operand =>
      simp only [evalWith]
      exact (ih operand (by simp)).bind fun v => Extends.refl _
    | member object name t =>
      simp only [evalWith]
      exact (ih object (by simp)).bind fun v => Extends.refl _
    | new t members =>
      simp only [evalWith]
      exact (evalMembers_mono ih).bind fun vs => Extends.refl _
    | memberInit t members =>
      simp only [evalWith]
      exact (evalMembers_mono ih).bind fun vs => Extends.refl _
    | listInit t elements =>
      simp only [evalWith]
      exact (evalList_mono ih).bind fun vs => Extends.refl _
    | newArray t elements =>
      simp only [evalWith]
      exact (evalList_mono ih).bind fun vs => Extends.refl _
    | conditional test ifTrue ifFalse =>
      simp only [evalWith]
      refine (ih test (by simp)).bind fun v => ?_
      split
      · exact ih ifTrue (by simp)
      · exact ih ifFalse (by simp)
      · exact Extends.refl _
    | call m receiver args t =>
      have hargs : ∀ e ∈ args, Extends (e.evalWith ρ) (e.evalWith ρ') :=
        fun e he => ih e (by simp [he])
      cases m with
      | string m =>
        cases receiver with
        | none => exact Extends.refl _
        | some r =>
          simp only [evalWith]
          refine (ih r (by simp)).bind fun v => ?_
          split
          · exact (evalList_mono hargs).bind fun vs => Extends.refl _
          · exact Extends.refl _
      | aggregate a =>
        match args, hargs with
        | [], _ => exact Extends.refl _
        | [source], hargs =>
          simp only [evalWith]
          exact (hargs source List.mem_cons_self).bind fun v => Extends.refl _
        | _ :: _ :: _, _ => exact Extends.refl _
      | other declaringType name => exact Extends.refl _
    | lambda params body => exact Extends.refl _
    | invoke target args t => exact Extends.refl _
    | typeIs operand target =>
      simp only [evalWith]
      exact (ih operand (by simp)).bind fun v => Extends.refl _

/-- **A value without an assignment is the value under every assignment.** -/
theorem evalWith_of_eval {e : Expr} {v : Literal} (h : e.eval = .ok v)
    (ρ : String → Except Failure Literal) : e.evalWith ρ = .ok v :=
  evalWith_mono (fun _ _ hname => by cases hname) e v h

end Assignments

/-! ## 3. A node depends on the meanings of its children -/

/-- Two expressions with the same meaning. -/
def SameMeaning (ρ : String → Except Failure Literal) (c c' : Expr) : Prop :=
  c'.evalWith ρ = c.evalWith ρ

theorem evalList_congr {ρ : String → Except Failure Literal} {es cs : List Expr}
    (h : List.Forall₂ (SameMeaning ρ) es cs) : evalList ρ cs = evalList ρ es := by
  induction h with
  | nil => rfl
  | cons hc _ ih =>
    rw [evalList, evalList, ih, hc]

theorem evalMembers_rename {ρ : String → Except Failure Literal} {members : List (String × Expr)}
    {cs : List Expr} (h : List.Forall₂ (SameMeaning ρ) (members.map Prod.snd) cs) :
    evalMembers ρ (rename members cs) = evalMembers ρ members := by
  induction members generalizing cs with
  | nil => rfl
  | cons m rest ih =>
    obtain ⟨name, e⟩ := m
    obtain ⟨c, cs', hc, hrest, rfl⟩ := List.forall₂_cons_left_iff.mp h
    have hrename : rename ((name, e) :: rest) (c :: cs') = (name, c) :: rename rest cs' := rfl
    rw [hrename, evalMembers, evalMembers, ih hrest, hc]

/-- An aggregate reads its arguments, and through their meanings only. -/
theorem evalWith_aggregate {ρ : String → Except Failure Literal} {args cs : List Expr}
    (h : List.Forall₂ (SameMeaning ρ) args cs) (a : Aggregate) (receiver receiver' : Option Expr)
    (t : Ty) :
    SameMeaning ρ (call (.aggregate a) receiver args t) (call (.aggregate a) receiver' cs t) := by
  unfold SameMeaning
  match args, cs, h with
  | [], [], _ => rfl
  | [_], [_], .cons hc .nil =>
    simp only [evalWith]
    rw [hc]
  | _ :: _ :: _, _ :: _ :: _, _ => rfl

/-- A call reads its receiver and its arguments, and through their meanings only. -/
theorem evalWith_call {ρ : String → Except Failure Literal} {m : Method} {receiver : Option Expr}
    {args cs : List Expr} {t : Ty}
    (h : List.Forall₂ (SameMeaning ρ) (call m receiver args t).children cs) :
    SameMeaning ρ (call m receiver args t) ((call m receiver args t).withChildren cs) := by
  match receiver, cs, h with
  | none, _, h =>
    cases m with
    | string m => rfl
    | aggregate a => exact evalWith_aggregate h a none none t
    | other declaringType name => rfl
  | some r, r' :: cs, .cons hr hargs =>
    cases m with
    | string m =>
      have hlist : evalList ρ cs = evalList ρ args := evalList_congr hargs
      unfold SameMeaning
      simp only [withChildren, evalWith]
      rw [hr, hlist]
    | aggregate a => exact evalWith_aggregate hargs a (some r) (some r') t
    | other declaringType name => rfl

/-- **The value of a node depends on its children through their meanings only.** -/
theorem evalWith_withChildren {ρ : String → Except Failure Literal} {e : Expr} {cs : List Expr}
    (h : List.Forall₂ (SameMeaning ρ) e.children cs) : SameMeaning ρ e (e.withChildren cs) := by
  unfold SameMeaning
  cases e with
  | constant | parameter => rfl
  | lambda params body =>
    match cs, h with
    | [_], _ => rfl
  | unary | member | typeIs =>
    match cs, h with
    | [_], .cons hc .nil =>
      simp only [withChildren, evalWith]
      rw [hc]
  | binary op left right =>
    match cs, h with
    | [_, _], .cons hl (.cons hr .nil) =>
      simp only [withChildren, evalWith]
      rw [hl, hr]
  | conditional test ifTrue ifFalse =>
    match cs, h with
    | [_, _, _], .cons ht (.cons ha (.cons hb .nil)) =>
      simp only [withChildren, evalWith]
      rw [ht, ha, hb]
  | new | memberInit =>
    simp only [withChildren, evalWith]
    rw [evalMembers_rename h]
  | listInit | newArray =>
    rename_i t elements
    have helements : evalList ρ cs = evalList ρ elements := evalList_congr h
    simp only [withChildren, evalWith]
    rw [helements]
  | invoke target args t =>
    match cs, h with
    | _ :: _, _ => rfl
  | call m receiver args t => exact evalWith_call h

/-! ## 4. Partial evaluation -/

/-- A folded part has the meaning of its constant. -/
theorem evalWith_evaluated {e e' : Expr} (h : e.evaluated = .ok e')
    (ρ : String → Except Failure Literal) : e'.evalWith ρ = e.evalWith ρ := by
  obtain ⟨v, hv, rfl⟩ := evaluated_eq_ok_iff.mp h
  rw [evalWith_of_eval hv ρ, evalWith]

/-- **Partial evaluation keeps the meaning of an expression**: whatever nodes are accepted, and
under every assignment, the result has the same value, or fails for the same reason. -/
theorem evalWith_evaluateWith (accept : Expr → Bool) (ρ : String → Except Failure Literal)
    {e e' : Expr} (h : e.evaluateWith accept = .ok e') : e'.evalWith ρ = e.evalWith ρ :=
  evaluateWith_rel (R := SameMeaning ρ) (fun _ _ _ he => evalWith_evaluated he ρ)
    (fun _ _ _ hcs => evalWith_withChildren hcs) h

/-- `(1 + 2 < n) && ("a" + "b").StartsWith(s)` is folded to `(3 < n) && "ab".StartsWith(s)`, and has
the same meaning where `n` is `7` and `s` has no value. -/
theorem evalWith_evaluateWith_sample :
    let number : Ty := .scalar .int64
    let string : Ty := .scalar .string
    let text (s : String) : Expr := constant (.string s) string
    let tail (receiver : Expr) : Expr :=
      call (.string .startsWith) (some receiver) [parameter "s" string] .boolean
    let e := binary .and
      (binary .lessThan
        (binary .add (constant (.int 1) number) (constant (.int 2) number)) (parameter "n" number))
      (tail (binary .add (text "a") (text "b")))
    let e' := binary .and
      (binary .lessThan (constant (.int 3) number) (parameter "n" number)) (tail (text "ab"))
    let ρ : String → Except Failure Literal := fun name =>
      if name == "n" then .ok (.int 7) else .error (.dependsOnParameter name)
    e.evaluateWith isLocal = .ok e' ∧ e'.evalWith ρ = e.evalWith ρ := by
  intro number string text tail e e' ρ
  have h : e.evaluateWith isLocal = .ok e' := rfl
  exact ⟨h, evalWith_evaluateWith isLocal ρ h⟩

end ChainQuery.Expr
