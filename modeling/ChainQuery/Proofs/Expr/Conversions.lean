import ChainQuery.Proofs.Expr.Strings
/-!
# Expressions without conversions

A conversion to a scalar has no SQL of its own.  `Expr.unconverted` is an expression with each of them
replaced by its operand, `Query.unconverted` a query with such lambdas.  How members are reached and
how deep aggregates are nested stays the same (`Expr.memberPath?_unconverted`,
`Expr.aggregateDepth_unconverted`), and what is equal stays equal (`Query.beq_unconverted`).
-/

namespace ChainQuery

namespace Expr

/-! ## 1. Expressions -/

/-- What a conversion to a scalar converts. -/
def converted? : Expr → Option Expr
  | .unary (.convert t) operand => if t.isScalar then some operand else none
  | _ => none

theorem converted?_eq_some {e operand : Expr} :
    e.converted? = some operand ↔ ∃ t, t.isScalar = true ∧ e = .unary (.convert t) operand := by
  constructor
  · intro h
    unfold converted? at h
    split at h
    · rename_i t operand'
      split at h
      · rename_i ht
        cases h
        exact ⟨t, ht, rfl⟩
      · cases h
    · cases h
  · rintro ⟨t, ht, rfl⟩
    rw [converted?, if_pos ht]

/-- **An expression with every conversion to a scalar replaced by its operand.** -/
def unconverted (e : Expr) : Expr :=
  e.fold fun node children =>
    if node.converted?.isSome then children.headD node else node.withChildren children

theorem unconverted_convert {t : Ty} (ht : t.isScalar = true) (operand : Expr) :
    (unary (.convert t) operand).unconverted = operand.unconverted := by
  rw [unconverted, fold_eq, converted?, if_pos ht]
  rfl

theorem unconverted_eq {e : Expr} (h : e.converted? = none) :
    e.unconverted = e.withChildren (e.children.map unconverted) := by
  rw [unconverted, fold_eq, h]
  rfl

theorem children_unconverted {e : Expr} (h : e.converted? = none) :
    e.unconverted.children = e.children.map unconverted := by
  rw [unconverted_eq h]
  exact children_withChildren (List.length_map _)

@[simp] theorem unconverted_binary (op : BinaryOp) (left right : Expr) :
    (binary op left right).unconverted = .binary op left.unconverted right.unconverted :=
  unconverted_eq rfl

@[simp] theorem unconverted_not (operand : Expr) :
    (unary .not operand).unconverted = .unary .not operand.unconverted := unconverted_eq rfl

@[simp] theorem unconverted_negate (operand : Expr) :
    (unary .negate operand).unconverted = .unary .negate operand.unconverted := unconverted_eq rfl

@[simp] theorem unconverted_member (object : Expr) (name : String) (t : Ty) :
    (member object name t).unconverted = .member object.unconverted name t := unconverted_eq rfl

@[simp] theorem unconverted_constant (value : Literal) (t : Ty) :
    (constant value t).unconverted = .constant value t := unconverted_eq rfl

@[simp] theorem unconverted_parameter (name : String) (t : Ty) :
    (parameter name t).unconverted = .parameter name t := unconverted_eq rfl

@[simp] theorem unconverted_new (t : Ty) (members : List (String × Expr)) :
    (new t members).unconverted = .new t (members.map fun m => (m.1, m.2.unconverted)) := by
  rw [unconverted_eq rfl, withChildren, children, rename_map]

@[simp] theorem unconverted_call (m : Method) (receiver : Option Expr) (args : List Expr) (t : Ty) :
    (call m receiver args t).unconverted
      = .call m (receiver.map unconverted) (args.map unconverted) t := by
  cases receiver with
  | none => exact unconverted_eq rfl
  | some r => exact unconverted_eq rfl

@[simp] theorem unconverted_conditional (test ifTrue ifFalse : Expr) :
    (conditional test ifTrue ifFalse).unconverted
      = .conditional test.unconverted ifTrue.unconverted ifFalse.unconverted := unconverted_eq rfl

@[simp] theorem unconverted_lambda (params : List Parameter) (body : Expr) :
    (lambda params body).unconverted = .lambda params body.unconverted := unconverted_eq rfl

@[simp] theorem unconverted_memberInit (t : Ty) (bindings : List (String × Expr)) :
    (memberInit t bindings).unconverted
      = .memberInit t (bindings.map fun m => (m.1, m.2.unconverted)) := by
  rw [unconverted_eq rfl, withChildren, children, rename_map]

@[simp] theorem unconverted_listInit (t : Ty) (elements : List Expr) :
    (listInit t elements).unconverted = .listInit t (elements.map unconverted) := unconverted_eq rfl

@[simp] theorem unconverted_newArray (t : Ty) (elements : List Expr) :
    (newArray t elements).unconverted = .newArray t (elements.map unconverted) := unconverted_eq rfl

@[simp] theorem unconverted_invoke (target : Expr) (args : List Expr) (t : Ty) :
    (invoke target args t).unconverted
      = .invoke target.unconverted (args.map unconverted) t := unconverted_eq rfl

@[simp] theorem unconverted_typeIs (operand : Expr) (target : Ty) :
    (typeIs operand target).unconverted = .typeIs operand.unconverted target := unconverted_eq rfl

/-- A conversion to something else stays. -/
theorem unconverted_convert_of_not {t : Ty} (ht : t.isScalar = false) (operand : Expr) :
    (unary (.convert t) operand).unconverted = .unary (.convert t) operand.unconverted :=
  unconverted_eq (by simp [converted?, ht])

/-! ## 2. What stays the same -/

@[simp] theorem memberPath?_unconverted : ∀ e : Expr, e.unconverted.memberPath? = e.memberPath?
  | .unary (.convert t) operand => by
    rw [memberPath?, ← memberPath?_unconverted operand]
    cases ht : t.isScalar with
    | true => rw [unconverted_convert ht]
    | false => rw [unconverted_convert_of_not ht, memberPath?]
  | .member object _ _ => by
    rw [unconverted_member, memberPath?, memberPath?, memberPath?_unconverted object]
  | .unary .not _ | .unary .negate _ | .binary .. | .constant .. | .parameter .. | .new ..
  | .call .. | .conditional .. | .lambda .. | .memberInit .. | .listInit .. | .newArray ..
  | .invoke .. | .typeIs .. => by simp [memberPath?]

theorem isAggregate_unconverted {e : Expr} (h : e.converted? = none) :
    e.unconverted.isAggregate = e.isAggregate := by
  cases e with
  | unary op operand =>
    rw [unconverted_eq h]
    rfl
  | call m receiver args t =>
    rw [unconverted_call]
    cases m <;> rfl
  | _ => simp [isAggregate]

@[simp] theorem aggregateDepth_unconverted (e : Expr) :
    e.unconverted.aggregateDepth = e.aggregateDepth := by
  induction e using children_induction with
  | node e ih =>
    cases hconverted : e.converted? with
    | none =>
      rw [aggregateDepth_eq, aggregateDepth_eq e, children_unconverted hconverted, List.map_map,
        isAggregate_unconverted hconverted,
        List.map_congr_left (f := aggregateDepth ∘ unconverted) ih]
    | some operand =>
      obtain ⟨t, ht, rfl⟩ := converted?_eq_some.mp hconverted
      rw [unconverted_convert ht, ih operand (by simp [children]), aggregateDepth_eq (unary _ _)]
      simp [children, isAggregate]

/-! ## 3. Equality -/

mutual
/-- **Equal expressions are equal without their conversions.** -/
theorem beq_unconverted : ∀ {e e' : Expr}, e.beq e' = true → e.unconverted.beq e'.unconverted = true
  | .binary _ l r, e', h => by
    cases e' with
    | binary =>
      simp only [beq, Bool.and_eq_true] at h
      simp [beq, h.1.1, beq_unconverted h.1.2, beq_unconverted h.2]
    | _ => cases h
  | .unary op operand, e', h => by
    cases e' with
    | unary op' operand' =>
      simp only [beq, Bool.and_eq_true, beq_iff_eq] at h
      obtain ⟨rfl, h⟩ := h
      have hoperand := beq_unconverted h
      cases op with
      | not | negate => simpa [beq] using hoperand
      | convert t =>
        cases ht : t.isScalar with
        | true => rw [unconverted_convert ht, unconverted_convert ht, hoperand]
        | false =>
          rw [unconverted_convert_of_not ht, unconverted_convert_of_not ht]
          simpa [beq] using hoperand
    | _ => cases h
  | .member object _ _, e', h => by
    cases e' with
    | member =>
      simp only [beq, Bool.and_eq_true] at h
      simp [beq, h.1.2, h.2, beq_unconverted h.1.1]
    | _ => cases h
  | .constant _ _, e', h => by
    cases e' with
    | constant => simpa using h
    | _ => cases h
  | .parameter _ _, e', h => by
    cases e' with
    | parameter => simpa using h
    | _ => cases h
  | .new _ members, e', h => by
    cases e' with
    | new =>
      simp only [beq, Bool.and_eq_true] at h
      simp [beq, h.1, beqMembers_unconverted h.2]
    | _ => cases h
  | .call _ none args _, e', h => by
    cases e' with
    | call _ receiver' args' _ =>
      cases receiver' with
      | none =>
        simp only [beq, Bool.and_eq_true] at h
        simp [beq, h.1.1.1, h.2, beqList_unconverted h.1.2]
      | some r' => simp [beq] at h
    | _ => cases h
  | .call _ (some r) args _, e', h => by
    cases e' with
    | call _ receiver' args' _ =>
      cases receiver' with
      | none => simp [beq] at h
      | some r' =>
        simp only [beq, Bool.and_eq_true] at h
        simp [beq, h.1.1.1, h.2, beq_unconverted h.1.1.2, beqList_unconverted h.1.2]
    | _ => cases h
  | .conditional a b c, e', h => by
    cases e' with
    | conditional =>
      simp only [beq, Bool.and_eq_true] at h
      simp [beq, beq_unconverted h.1.1, beq_unconverted h.1.2, beq_unconverted h.2]
    | _ => cases h
  | .lambda _ body, e', h => by
    cases e' with
    | lambda =>
      simp only [beq, Bool.and_eq_true] at h
      simp [beq, h.1, beq_unconverted h.2]
    | _ => cases h
  | .memberInit _ bindings, e', h => by
    cases e' with
    | memberInit =>
      simp only [beq, Bool.and_eq_true] at h
      simp [beq, h.1, beqMembers_unconverted h.2]
    | _ => cases h
  | .listInit _ elements, e', h => by
    cases e' with
    | listInit =>
      simp only [beq, Bool.and_eq_true] at h
      simp [beq, h.1, beqList_unconverted h.2]
    | _ => cases h
  | .newArray _ elements, e', h => by
    cases e' with
    | newArray =>
      simp only [beq, Bool.and_eq_true] at h
      simp [beq, h.1, beqList_unconverted h.2]
    | _ => cases h
  | .invoke target args _, e', h => by
    cases e' with
    | invoke =>
      simp only [beq, Bool.and_eq_true] at h
      simp [beq, h.2, beq_unconverted h.1.1, beqList_unconverted h.1.2]
    | _ => cases h
  | .typeIs operand _, e', h => by
    cases e' with
    | typeIs =>
      simp only [beq, Bool.and_eq_true] at h
      simp [beq, h.2, beq_unconverted h.1]
    | _ => cases h

theorem beqList_unconverted : ∀ {es es' : List Expr}, beqList es es' = true →
    beqList (es.map unconverted) (es'.map unconverted) = true
  | [], [], _ => rfl
  | e :: es, e' :: es', h => by
    simp only [beqList, Bool.and_eq_true] at h
    simp [beqList, beq_unconverted h.1, beqList_unconverted h.2]

theorem beqMembers_unconverted : ∀ {ms ms' : List (String × Expr)}, beqMembers ms ms' = true →
    beqMembers (ms.map fun m => (m.1, m.2.unconverted)) (ms'.map fun m => (m.1, m.2.unconverted))
      = true
  | [], [], _ => rfl
  | (_, e) :: ms, (_, e') :: ms', h => by
    simp only [beqMembers, Bool.and_eq_true] at h
    simp [beqMembers, h.1.1, beq_unconverted h.1.2, beqMembers_unconverted h.2]
end

theorem list_beq_unconverted {es es' : List Expr} (h : (es == es') = true) :
    (es.map unconverted == es'.map unconverted) = true := by
  induction es generalizing es' with
  | nil =>
    cases es' with
    | nil => rfl
    | cons => cases h
  | cons e es ih =>
    cases es' with
    | nil => cases h
    | cons e' es' =>
      rw [List.cons_beq_cons, Bool.and_eq_true] at h
      rw [List.map_cons, List.map_cons, List.cons_beq_cons, Bool.and_eq_true]
      exact ⟨beq_unconverted h.1, ih h.2⟩

end Expr

/-! ## 4. Queries -/

/-- A lambda with every conversion to a scalar replaced by its operand. -/
def Lambda.unconverted (l : Lambda) : Lambda := { l with body := l.body.unconverted }

theorem Lambda.beq_unconverted {l l' : Lambda} (h : (l == l') = true) :
    (l.unconverted == l'.unconverted) = true := by
  have h : (l.params == l'.params && l.body.beq l'.body) = true := h
  obtain ⟨hparams, hbody⟩ := Bool.and_eq_true_iff.mp h
  exact Bool.and_eq_true_iff.mpr ⟨hparams, Expr.beq_unconverted hbody⟩

namespace Query

/-- **A query with every conversion to a scalar replaced by its operand.** -/
def unconverted : Query → Query
  | .table rowType => .table rowType
  | .select source selector => .select source.unconverted selector.unconverted
  | .filter source predicate => .filter source.unconverted predicate.unconverted
  | .join outer inner outerKey innerKey result =>
    .join outer.unconverted inner.unconverted outerKey.unconverted innerKey.unconverted
      result.unconverted
  | .crossJoin source collection result =>
    .crossJoin source.unconverted collection.unconverted result.unconverted
  | .orderBy source key kind => .orderBy source.unconverted key.unconverted kind
  | .call method source args => .call method source.unconverted (args.map Expr.unconverted)

@[simp] theorem aggregateDepth_unconverted (q : Query) :
    q.unconverted.aggregateDepth = q.aggregateDepth := by
  induction q <;> simp_all [unconverted, aggregateDepth, Lambda.unconverted]

/-- **Equal queries are equal without their conversions.** -/
theorem beq_unconverted {q q' : Query} (h : q.beq q' = true) :
    q.unconverted.beq q'.unconverted = true := by
  induction q generalizing q' with
  | table rowType =>
    cases q' with
    | table => exact h
    | _ => cases h
  | select source selector ih =>
    cases q' with
    | select =>
      simp only [beq, Bool.and_eq_true] at h
      simp [unconverted, beq, ih h.1, Lambda.beq_unconverted h.2]
    | _ => cases h
  | filter source predicate ih =>
    cases q' with
    | filter =>
      simp only [beq, Bool.and_eq_true] at h
      simp [unconverted, beq, ih h.1, Lambda.beq_unconverted h.2]
    | _ => cases h
  | orderBy source key kind ih =>
    cases q' with
    | orderBy =>
      simp only [beq, Bool.and_eq_true] at h
      simp [unconverted, beq, ih h.1.1, Lambda.beq_unconverted h.1.2, h.2]
    | _ => cases h
  | join outer inner outerKey innerKey result ihl ihr =>
    cases q' with
    | join =>
      simp only [beq, Bool.and_eq_true] at h
      obtain ⟨⟨⟨⟨houter, hinner⟩, houterKey⟩, hinnerKey⟩, hresult⟩ := h
      simp [unconverted, beq, ihl houter, ihr hinner, Lambda.beq_unconverted houterKey,
        Lambda.beq_unconverted hinnerKey, Lambda.beq_unconverted hresult]
    | _ => cases h
  | crossJoin source collection result ihl ihr =>
    cases q' with
    | crossJoin =>
      simp only [beq, Bool.and_eq_true] at h
      simp [unconverted, beq, ihl h.1.1, ihr h.1.2, Lambda.beq_unconverted h.2]
    | _ => cases h
  | call method source args ih =>
    cases q' with
    | call =>
      simp only [beq, Bool.and_eq_true] at h
      simp [unconverted, beq, h.1.1, ih h.1.2, Expr.list_beq_unconverted h.2]
    | _ => cases h

end Query

/-- An aggregate with every conversion to a scalar replaced by its operand. -/
def Correlated.unconverted (c : Correlated) : Correlated :=
  { c with query := c.query.unconverted }

theorem Correlated.beq_unconverted {c d : Correlated} (h : (c == d) = true) :
    (c.unconverted == d.unconverted) = true := by
  have h : (c.query.beq d.query && c.aggregate == d.aggregate && c.nested == d.nested) = true := h
  simp only [Bool.and_eq_true] at h
  have hquery := Query.beq_unconverted h.1.1
  change (c.query.unconverted.beq d.query.unconverted && c.aggregate == d.aggregate
    && c.nested == d.nested) = true
  rw [hquery, h.1.2, h.2]
  rfl

end ChainQuery
