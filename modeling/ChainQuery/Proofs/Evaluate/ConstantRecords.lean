import ChainQuery.Evaluate.Partial
import ChainQuery.Proofs.Compile.Reads
import ChainQuery.Proofs.Query.Traversal
/-!
# Records of constants

A record whose members are constants, or such records again, depends on no row: partial evaluation
replaces it by its value (`Expr.folded`).  Where it has nothing else to evaluate
(`Expr.foldsRecordsOnly`), this is all that it does (`Query.evaluate_eq_folded`).
-/

namespace ChainQuery

namespace Expr

/-! ## 1. Records of constants -/

/-- Whether an expression is a constant, or a record whose members are, recursively. -/
def isConstant (e : Expr) : Bool :=
  e.fold fun node below =>
    match node with
    | .constant .. => true
    | .new .. => below.all id
    | _ => false

/-- Whether every largest part that depends on no row is a constant or a record of constants. -/
def foldsRecordsOnly (e : Expr) : Bool :=
  e.fold fun node below => if node.closedFor isLocal then node.isConstant else below.all id

/-- **An expression with its records of constants replaced by their values.** -/
def folded (e : Expr) : Expr :=
  e.fold fun node children =>
    if node.isConstant then node.evaluated.toOption.getD node else node.withChildren children

/-- The members of the records of constants in an expression, each with the type of the record. -/
def foldedMembers (e : Expr) : List (Ty × String) :=
  e.fold fun node below => (if node.isConstant then node.ownMembers else []) ++ below.flatten

@[simp] theorem isConstant_new (t : Ty) (members : List (String × Expr)) :
    (new t members).isConstant = (members.map Prod.snd).all isConstant := by
  rw [isConstant, fold_eq]
  simp [children, Function.comp_def, isConstant]

/-- A constant is one, or a record. -/
theorem cases_of_isConstant {e : Expr} (h : e.isConstant = true) :
    (∃ value t, e = .constant value t) ∨
      ∃ t members, e = .new t members ∧ ∀ m ∈ members, m.2.isConstant = true := by
  cases e with
  | constant value t => exact Or.inl ⟨value, t, rfl⟩
  | new t members =>
    rw [isConstant_new, List.all_map, List.all_eq_true] at h
    exact Or.inr ⟨t, members, rfl, h⟩
  | _ =>
    rw [isConstant, fold_eq] at h
    cases h

/-- What a record of constants consists of are such records again. -/
theorem isConstant_of_mem_children {e c : Expr} (h : e.isConstant = true) (hc : c ∈ e.children) :
    c.isConstant = true := by
  rcases cases_of_isConstant h with ⟨value, t, rfl⟩ | ⟨t, members, rfl, hmembers⟩
  · cases hc
  · obtain ⟨m, hm, rfl⟩ := List.mem_map.mp hc
    exact hmembers m hm

/-- Records of constants are evaluated before compilation. -/
theorem closedFor_isLocal_of_isConstant {e : Expr} (h : e.isConstant = true) :
    e.closedFor isLocal = true := by
  induction e using children_induction with
  | node e ih =>
    have hlocal : e.isLocal = true := by
      rcases cases_of_isConstant h with ⟨value, t, rfl⟩ | ⟨t, members, rfl, _⟩ <;> rfl
    rw [closedFor_eq, Bool.and_eq_true, List.all_eq_true]
    exact ⟨fun c hc => ih c hc (isConstant_of_mem_children h hc), hlocal⟩

/-! ## 2. Values -/

/-- Members that have values have them together. -/
theorem exists_evalMembers {ρ : String → Except Failure Literal} {members : List (String × Expr)}
    (h : ∀ m ∈ members, ∃ v, m.2.evalWith ρ = .ok v) :
    ∃ values, evalMembers ρ members = .ok values := by
  induction members with
  | nil => exact ⟨[], rfl⟩
  | cons m rest ih =>
    obtain ⟨⟨v, hv⟩, hrest⟩ := List.forall_mem_cons.mp h
    obtain ⟨values, hvalues⟩ := ih hrest
    exact ⟨(m.1, v) :: values, by rw [evalMembers, hv, hvalues]; rfl⟩

/-- A record whose members have values is an object of these. -/
theorem eval_new {t : Ty} {members : List (String × Expr)} (h : ∀ m ∈ members, ∃ v, m.2.eval = .ok v) :
    ∃ entries, (new t members).eval = .ok (.object entries) := by
  obtain ⟨values, hvalues⟩ := exists_evalMembers h
  exact ⟨_, by rw [eval, evalWith, hvalues]; rfl⟩

/-- **A record of constants has a value.** -/
theorem exists_eval_of_isConstant {e : Expr} (h : e.isConstant = true) : ∃ v, e.eval = .ok v := by
  induction e using children_induction with
  | node e ih =>
    rcases cases_of_isConstant h with ⟨value, t, rfl⟩ | ⟨t, members, rfl, hmembers⟩
    · exact ⟨value, rfl⟩
    · obtain ⟨entries, hentries⟩ := eval_new (t := t) fun m hm =>
        ih m.2 (List.mem_map_of_mem hm) (hmembers m hm)
      exact ⟨_, hentries⟩

/-- A record of constants becomes an object. -/
theorem folded_new {t : Ty} {members : List (String × Expr)}
    (h : (new t members).isConstant = true) :
    ∃ entries, (new t members).evaluated = .ok (.constant (.object entries) t) ∧
      (new t members).folded = .constant (.object entries) t := by
  have hmembers : ∀ m ∈ members, ∃ v, m.2.eval = .ok v := by
    rw [isConstant_new, List.all_map, List.all_eq_true] at h
    exact fun m hm => exists_eval_of_isConstant (h m hm)
  obtain ⟨entries, hentries⟩ := eval_new (t := t) hmembers
  have hvalue : (new t members).evaluated = .ok (.constant (.object entries) t) := by
    simp only [evaluated, hentries]
    rfl
  refine ⟨entries, hvalue, ?_⟩
  rw [folded, fold_eq, if_pos h, hvalue]
  rfl

/-- **A record of constants becomes a constant of its type.** -/
theorem folded_of_isConstant {e : Expr} (h : e.isConstant = true) :
    ∃ value, e.folded = .constant value e.type := by
  rcases cases_of_isConstant h with ⟨value, t, rfl⟩ | ⟨t, members, rfl, _⟩
  · exact ⟨value, rfl⟩
  · obtain ⟨entries, _, hfolded⟩ := folded_new h
    exact ⟨_, hfolded⟩

/-- Any other node stays, over what becomes of its children. -/
theorem folded_eq {e : Expr} (h : e.isConstant = false) :
    e.folded = e.withChildren (e.children.map folded) := by
  rw [folded, fold_eq, h]
  rfl

theorem folded_call (m : Method) (receiver : Option Expr) (args : List Expr) (t : Ty) :
    (call m receiver args t).folded = call m (receiver.map folded) (args.map folded) t := by
  have hconstant : (call m receiver args t).isConstant = false := by
    rw [isConstant, fold_eq]
  rw [folded_eq hconstant]
  cases receiver <;> rfl

theorem children_folded {e : Expr} (h : e.isConstant = false) :
    e.folded.children = e.children.map folded := by
  rw [folded_eq h]
  exact children_withChildren (List.length_map _)

/-- **Partial evaluation folds records of constants**, if there is nothing else to evaluate. -/
theorem evaluate_eq_folded {e : Expr} (h : e.foldsRecordsOnly = true) : e.evaluate = .ok e.folded := by
  induction e using children_induction with
  | node e ih =>
    rw [foldsRecordsOnly, fold_eq] at h
    rw [evaluate, evaluateWith_eq]
    cases hclosed : e.closedFor isLocal with
    | true =>
      rw [hclosed, if_pos rfl] at h
      rw [if_pos rfl]
      rcases cases_of_isConstant h with ⟨value, t, rfl⟩ | ⟨t, members, rfl, _⟩
      · rfl
      · obtain ⟨entries, hvalue, hfolded⟩ := folded_new h
        rw [hvalue, hfolded]
    | false =>
      have hconstant : e.isConstant = false := by
        cases hconstant : e.isConstant with
        | false => rfl
        | true =>
          rw [closedFor_isLocal_of_isConstant hconstant] at hclosed
          cases hclosed
      rw [hclosed] at h
      simp only [Bool.false_eq_true, if_false, List.all_map, List.all_eq_true] at h ⊢
      rw [folded_eq hconstant]
      refine traverseChildren_eq_ok.mpr ⟨_, ?_, rfl⟩
      exact List.forall₂_map_right_iff.mpr (List.forall₂_same.mpr fun c hc => ih c hc (h c hc))

/-! ## 3. What stays the same -/

theorem isConstant_eq_false {e : Expr} (h : ∀ value t, e ≠ .constant value t)
    (h' : ∀ t members, e ≠ .new t members) : e.isConstant = false := by
  cases hconstant : e.isConstant with
  | false => rfl
  | true =>
    rcases cases_of_isConstant hconstant with ⟨value, t, rfl⟩ | ⟨t, members, rfl, _⟩
    · exact absurd rfl (h value t)
    · exact absurd rfl (h' t members)

@[simp] theorem type_folded (e : Expr) : e.folded.type = e.type := by
  induction e using children_induction with
  | node e ih =>
    cases hconstant : e.isConstant with
    | true =>
      obtain ⟨value, hfolded⟩ := folded_of_isConstant hconstant
      rw [hfolded]
      rfl
    | false =>
      rw [folded_eq hconstant]
      cases e with
      | binary op left right =>
        change (if op.isLogical || op.isComparison then .boolean else left.folded.type) = _
        rw [ih left (by simp [children]), type]
      | unary op operand =>
        cases op with
        | not | convert => rfl
        | negate => exact ih operand (by simp [children])
      | conditional test ifTrue ifFalse => exact ih ifTrue (by simp [children])
      | lambda params body => exact ih body (by simp [children])
      | call m receiver args t => cases receiver <;> rfl
      | _ => rfl

/-- What is reached from a parameter has nothing to fold. -/
theorem folded_of_memberPath? : ∀ {e : Expr} {path : List Ty}, e.memberPath? = some path →
    e.folded = e
  | .parameter _ _, _, _ => rfl
  | .unary (.convert t) operand, _, h => congrArg (Expr.unary (.convert t))
    (folded_of_memberPath? (e := operand) h)
  | .member object name t, _, h => by
    obtain ⟨path, hpath, _⟩ := Option.map_eq_some_iff.mp h
    exact congrArg (Expr.member · name t) (folded_of_memberPath? hpath)

@[simp] theorem memberPath?_folded : ∀ e : Expr, e.folded.memberPath? = e.memberPath?
  | .unary (.convert _) operand => memberPath?_folded operand
  | .member object _ t => congrArg (Option.map (· ++ [t])) (memberPath?_folded object)
  | .new t members => by
    cases hconstant : (new t members).isConstant with
    | true =>
      obtain ⟨value, hfolded⟩ := folded_of_isConstant hconstant
      rw [hfolded]
      rfl
    | false =>
      rw [folded_eq hconstant]
      rfl
  | .call _ none _ _ | .call _ (some _) _ _ => rfl
  | .unary .not _ | .unary .negate _ | .binary .. | .constant .. | .parameter ..
  | .conditional .. | .lambda .. | .memberInit .. | .listInit .. | .newArray .. | .invoke ..
  | .typeIs .. => rfl

/-- A record of constants is no aggregate. -/
theorem isAggregate_of_isConstant {e : Expr} (h : e.isConstant = true) : e.isAggregate = false := by
  rcases cases_of_isConstant h with ⟨value, t, rfl⟩ | ⟨t, members, rfl, _⟩ <;> rfl

@[simp] theorem isAggregate_folded (e : Expr) : e.folded.isAggregate = e.isAggregate := by
  cases hconstant : e.isConstant with
  | true =>
    obtain ⟨value, hfolded⟩ := folded_of_isConstant hconstant
    rw [hfolded, isAggregate_of_isConstant hconstant]
    rfl
  | false =>
    rw [folded_eq hconstant]
    cases e with
    | call m receiver args t => cases m <;> cases receiver <;> rfl
    | _ => rfl

/-- A record of constants calls no aggregate. -/
theorem aggregateDepth_of_isConstant {e : Expr} (h : e.isConstant = true) : e.aggregateDepth = 0 := by
  induction e using children_induction with
  | node e ih =>
    exact Nat.le_zero.mp (aggregateDepth_le (isAggregate_of_isConstant h) fun c hc =>
      Nat.le_zero.mpr (ih c hc (isConstant_of_mem_children h hc)))

@[simp] theorem aggregateDepth_folded (e : Expr) : e.folded.aggregateDepth = e.aggregateDepth := by
  induction e using children_induction with
  | node e ih =>
    cases hconstant : e.isConstant with
    | true =>
      obtain ⟨value, hfolded⟩ := folded_of_isConstant hconstant
      rw [hfolded, aggregateDepth_of_isConstant hconstant]
      rfl
    | false =>
      rw [aggregateDepth_eq, aggregateDepth_eq e, children_folded hconstant, List.map_map,
        isAggregate_folded, List.map_congr_left (f := aggregateDepth ∘ folded) ih]

/-- Folding builds no member of a record that was not built. -/
theorem built_folded_subset (e : Expr) : e.folded.built ⊆ e.built := by
  induction e using children_induction with
  | node e ih =>
    cases hconstant : e.isConstant with
    | true =>
      obtain ⟨value, hfolded⟩ := folded_of_isConstant hconstant
      rw [hfolded]
      exact List.nil_subset _
    | false =>
      rw [folded_eq hconstant]
      cases hwhole : e.isReadWhole with
      | true =>
        rw [built_of_isReadWhole (by rw [isReadWhole_withChildren, hwhole])]
        exact List.nil_subset _
      | false =>
        rw [built_eq (by rw [isReadWhole_withChildren, hwhole]), built_eq hwhole,
          children_withChildren (List.length_map _), ownMembers_withChildren (List.length_map _)]
        refine List.append_subset.mpr ⟨List.subset_append_left _ _,
          List.subset_append_of_subset_right _ fun key hkey => ?_⟩
        obtain ⟨_, hmem, hkey⟩ := List.mem_flatMap.mp hkey
        obtain ⟨c, hc, rfl⟩ := List.mem_map.mp hmem
        exact List.mem_flatMap.mpr ⟨c, hc, ih c hc hkey⟩

/-- The members of the records of constants in an expression are those of the record at its root, and
those in its children. -/
theorem foldedMembers_eq (e : Expr) :
    e.foldedMembers
      = (if e.isConstant then e.ownMembers else []) ++ e.children.flatMap foldedMembers := by
  rw [foldedMembers, fold_eq, List.flatMap_def]
  rfl

theorem foldedMembers_subset {e c : Expr} (hc : c ∈ e.children) :
    c.foldedMembers ⊆ e.foldedMembers := by
  rw [foldedMembers_eq e]
  exact List.subset_append_of_subset_right _ fun key hkey => List.mem_flatMap.mpr ⟨c, hc, hkey⟩

end Expr

/-! ## 4. Queries -/

/-- A lambda with its records of constants replaced by their values. -/
def Lambda.folded (l : Lambda) : Lambda := { l with body := l.body.folded }

namespace Query

/-- **A query with its records of constants replaced by their values.** -/
def folded : Query → Query
  | .table rowType => .table rowType
  | .select source selector => .select source.folded selector.folded
  | .filter source predicate => .filter source.folded predicate.folded
  | .join outer inner outerKey innerKey result =>
    .join outer.folded inner.folded outerKey.folded innerKey.folded result.folded
  | .crossJoin source collection result => .crossJoin source.folded collection.folded result.folded
  | .orderBy source key kind => .orderBy source.folded key.folded kind
  | .call method source args => .call method source.folded (args.map Expr.folded)

theorem pointwise_folded (q : Query) : q.Pointwise (fun e e' => e' = e.folded) q.folded := by
  induction q with
  | table rowType => exact .table rowType
  | select source selector ih => exact .select ih ⟨rfl, rfl⟩
  | filter source predicate ih => exact .filter ih ⟨rfl, rfl⟩
  | join outer inner outerKey innerKey result ihl ihr =>
    exact .join ihl ihr ⟨rfl, rfl⟩ ⟨rfl, rfl⟩ ⟨rfl, rfl⟩
  | crossJoin source collection result ihl ihr => exact .crossJoin ihl ihr ⟨rfl, rfl⟩
  | orderBy source key kind ih => exact .orderBy kind ih ⟨rfl, rfl⟩
  | call method source args ih =>
    exact .call method ih (List.forall₂_map_right_iff.mpr (List.forall₂_same.mpr fun _ _ => rfl))

/-- **Partial evaluation folds the records of constants in a query**, if there is nothing else to
evaluate. -/
theorem evaluate_eq_folded {q : Query} (h : ∀ e ∈ q.exprs, e.foldsRecordsOnly = true) :
    q.evaluate = .ok q.folded := by
  refine mapExprs_eq_ok.mpr (q.pointwise_folded.imp fun e he e' hfolded => ?_)
  rw [hfolded]
  exact Expr.evaluate_eq_folded (h e he)

@[simp] theorem aggregateDepth_folded (q : Query) : q.folded.aggregateDepth = q.aggregateDepth := by
  induction q <;> simp_all [folded, aggregateDepth, Lambda.folded]

end Query

end ChainQuery
