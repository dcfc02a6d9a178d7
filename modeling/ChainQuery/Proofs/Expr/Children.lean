import ChainQuery.Proofs.Outcome
/-!
# Expressions and their children

Every law of expressions that does not care which node it meets is proved along the children: it
holds of a node if it holds of the node's direct sub-expressions (`Expr.children_induction`).  The
second half says what a traversal of the children returns (`Expr.traverseChildren_eq_ok`) and where it fails
(`Expr.traverseChildren_eq_error`).
-/

namespace ChainQuery.Expr

/-! ## 1. Children are smaller -/

theorem sizeOf_lt_of_mem_values {name : String} {c : Expr} {members : List (String × Expr)}
    (h : (name, c) ∈ members) : sizeOf c < sizeOf members := by
  have hpair : sizeOf (name, c) < sizeOf members := List.sizeOf_lt_of_mem h
  simp only [Prod.mk.sizeOf_spec] at hpair
  omega

theorem sizeOf_lt_of_mem_children {e c : Expr} (h : c ∈ e.children) : sizeOf c < sizeOf e := by
  cases e with
  | constant | parameter => simp [children] at h
  | new t members =>
    obtain ⟨⟨name, c⟩, hm, rfl⟩ := List.mem_map.mp h
    have := sizeOf_lt_of_mem_values hm
    simp only [new.sizeOf_spec]
    omega
  | memberInit t members =>
    obtain ⟨⟨name, c⟩, hm, rfl⟩ := List.mem_map.mp h
    have := sizeOf_lt_of_mem_values hm
    simp only [memberInit.sizeOf_spec]
    omega
  | call m receiver args t =>
    rcases List.mem_append.mp h with hr | ha
    · cases receiver with
      | none => simp at hr
      | some r =>
        have : c = r := by simpa using hr
        subst this
        simp only [call.sizeOf_spec, Option.some.sizeOf_spec]
        omega
    · have := List.sizeOf_lt_of_mem ha
      simp only [call.sizeOf_spec]
      omega
  | listInit t elements =>
    have : sizeOf c < sizeOf elements := List.sizeOf_lt_of_mem h
    simp only [listInit.sizeOf_spec]
    omega
  | newArray t elements =>
    have : sizeOf c < sizeOf elements := List.sizeOf_lt_of_mem h
    simp only [newArray.sizeOf_spec]
    omega
  | invoke target args t =>
    rcases List.mem_cons.mp h with rfl | ha
    · simp only [invoke.sizeOf_spec]
      omega
    · have := List.sizeOf_lt_of_mem ha
      simp only [invoke.sizeOf_spec]
      omega
  | binary op left right =>
    have : c = left ∨ c = right := by simpa [children] using h
    rcases this with rfl | rfl <;> simp only [binary.sizeOf_spec] <;> omega
  | conditional test ifTrue ifFalse =>
    have : c = test ∨ c = ifTrue ∨ c = ifFalse := by simpa [children] using h
    rcases this with rfl | rfl | rfl <;> simp only [conditional.sizeOf_spec] <;> omega
  | unary | member | lambda | typeIs =>
    rw [List.mem_singleton.mp h]
    simp +arith

/-- **Induction along the children.** -/
@[elab_as_elim]
theorem children_induction {P : Expr → Prop} (node : ∀ e, (∀ c ∈ e.children, P c) → P e)
    (e : Expr) : P e :=
  node e fun c _ => children_induction node c
termination_by sizeOf e
decreasing_by exact sizeOf_lt_of_mem_children ‹_›

/-- How deep aggregates are nested: one more at an aggregate than in its arguments. -/
theorem aggregateDepth_eq (e : Expr) :
    e.aggregateDepth =
      (e.children.map aggregateDepth).foldl max 0 + if e.isAggregate then 1 else 0 := by
  rw [aggregateDepth, fold_eq]
  change _ = (e.children.map (fold _)).foldl max 0 + _
  cases e with
  | call m receiver args t => cases m <;> rfl
  | _ => rfl

/-- What is no aggregate is nested as deep as its children. -/
theorem aggregateDepth_le {e : Expr} (he : e.isAggregate = false) {n : Nat}
    (h : ∀ c ∈ e.children, c.aggregateDepth ≤ n) : e.aggregateDepth ≤ n := by
  rw [aggregateDepth_eq, he]
  have hfold : ∀ (xs : List Nat) (start : Nat), start ≤ n → (∀ x ∈ xs, x ≤ n) →
      xs.foldl max start ≤ n := by
    intro xs
    induction xs with
    | nil => exact fun _ hstart _ => hstart
    | cons x xs ih =>
      intro start hstart hxs
      obtain ⟨hx, hxs⟩ := List.forall_mem_cons.mp hxs
      exact ih _ (Nat.max_le.mpr ⟨hstart, hx⟩) hxs
  exact hfold _ 0 (Nat.zero_le n) (List.forall_mem_map.mpr h)

/-! ## 2. Traversals of the children -/

theorem rename_map (f : Expr → Expr) (members : List (String × Expr)) :
    rename members ((members.map Prod.snd).map f) = members.map fun m => (m.1, f m.2) := by
  induction members with
  | nil => rfl
  | cons m rest ih =>
    rw [List.map_cons, List.map_cons, List.map_cons, ← ih]
    rfl

/-- **A traversal returns the node over what became of each child**, and has a value iff each of
them has. -/
theorem traverseChildren_eq_ok {ε : Type} {f : Expr → Except ε Expr} {e e' : Expr} :
    e.traverseChildren f = .ok e' ↔
      ∃ cs, List.Forall₂ (fun c c' => f c = .ok c') e.children cs ∧ e' = e.withChildren cs := by
  rw [traverseChildren_eq, ← bind_pure_comp, Except.bind_eq_ok]
  constructor
  · rintro ⟨cs, hcs, h⟩
    cases h
    exact ⟨cs, Except.mapM_eq_ok.mp hcs, rfl⟩
  · rintro ⟨cs, hcs, rfl⟩
    exact ⟨cs, Except.mapM_eq_ok.mpr hcs, rfl⟩

/-- **A traversal fails where the first child does.** -/
theorem traverseChildren_eq_error {ε : Type} {f : Expr → Except ε Expr} {e : Expr} {error : ε} :
    e.traverseChildren f = .error error ↔ e.children.mapM f = .error error := by
  rw [traverseChildren_eq, ← bind_pure_comp, Except.bind_eq_error]
  refine or_iff_left ?_
  rintro ⟨cs, _, h⟩
  cases h

end ChainQuery.Expr
