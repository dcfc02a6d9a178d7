import ChainQuery.Proofs.Compile.Unbounded
import ChainQuery.Schema.Shop
/-!
# Records are looked through by substitution

A column behind layers of records is bound in one pass: the first layer that has it says what it was
built from, and that is bound behind the layers below.  The same comes out if the layers are taken off
one at a time, each by writing what its members were built from in the place of the columns
(`Aliases.target`, `Scalar.substitute`) and forgetting the layer (`Frame.resolve_layer`,
`Frame.resolve_layers`).  It does not matter whether layers have records of the same type, hide each
other's members, or are built from their own: a substitution is made once, and what it brings in is
looked up below only.

Two things do not go through a substitution.  An aggregate is compiled in the scope where it stands, so
the scalar must hold none.  And a comparison with null is a test for null only if null stands there
from the start, so no member may be null itself.
-/

namespace ChainQuery

/-! ## 1. Substitution -/

namespace Scalar

mutual
/-- **A scalar with a scalar in the place of each column.**  An aggregate stays as it is. -/
def substitute (σ : ColumnToken → Scalar) : Scalar → Scalar
  | .column token => σ token
  | .binary op left right => .binary op (left.substitute σ) (right.substitute σ)
  | .not operand => .not (operand.substitute σ)
  | .negate operand => .negate (operand.substitute σ)
  | .function f args => .function f (substituteList σ args)
  | .like subject pattern wildcards =>
    .like (subject.substitute σ) (pattern.substitute σ) wildcards
  | .case test ifTrue ifFalse =>
    .case (test.substitute σ) (ifTrue.substitute σ) (ifFalse.substitute σ)
  | .value v => .value v
  | .null => .null
  | .subquery c => .subquery c
  | .composite text => .composite text

/-- A list of scalars with a scalar in the place of each column. -/
def substituteList (σ : ColumnToken → Scalar) : List Scalar → List Scalar
  | [] => []
  | s :: rest => s.substitute σ :: substituteList σ rest
end

variable {σ : ColumnToken → Scalar}

theorem substituteList_eq_map (xs : List Scalar) : substituteList σ xs = xs.map (substitute σ) := by
  induction xs with
  | nil => rfl
  | cons x xs ih => rw [substituteList, ih, List.map_cons]

/-- Unless null is put in the place of a column, a scalar is null iff it was. -/
theorem isNull_substitute (hσ : ∀ token, (σ token).isNull = false) (x : Scalar) :
    (x.substitute σ).isNull = x.isNull := by
  cases x with
  | column token => exact hσ token
  | _ => rfl

/-- A substitution brings in no aggregate that is not in what it puts in the place of columns. -/
theorem subquery_notMem_parts_substitute (hσ : ∀ token c, .subquery c ∉ (σ token).parts) {x : Scalar}
    (hx : ∀ c, .subquery c ∉ x.parts) (c : Correlated) : .subquery c ∉ (x.substitute σ).parts := by
  induction x using operands_induction with
  | node x ih =>
    have hoperand : ∀ y ∈ x.operands, .subquery c ∉ (y.substitute σ).parts :=
      fun y hy => ih y hy fun d hd => hx d (parts_operand hy hd)
    cases x with
    | column token => exact hσ token c
    | subquery d => exact (hx d (mem_parts_self _)).elim
    | function f args =>
      have hargs : ∀ y ∈ args, .subquery c ∉ (y.substitute σ).parts := hoperand
      rw [substitute, parts_eq, operands, substituteList_eq_map]
      simpa [List.mem_flatMap] using hargs
    | value | null | composite => simp [substitute, parts]
    | binary | not | negate | like | case =>
      rw [substitute, parts_eq]
      simpa [operands] using hoperand

/-! ## 2. Binding after a substitution -/

variable {dialect : Dialect} {subqueries : Subqueries} {scope below : Scope} {position : Position}

theorem resolveList_substitute {xs : List Scalar}
    (h : ∀ x ∈ xs, (x.substitute σ).resolve dialect subqueries below position
      = x.resolve dialect subqueries scope position) :
    resolveList dialect subqueries below position (substituteList σ xs)
      = resolveList dialect subqueries scope position xs := by
  induction xs with
  | nil => rfl
  | cons x xs ih =>
    obtain ⟨hx, hxs⟩ := List.forall_mem_cons.mp h
    rw [substituteList, resolveList, resolveList, hx, ih hxs]

/-- **Binding a scalar after a substitution** is binding the scalar in a scope where each column is what
was put in its place. -/
theorem resolve_substitute (hσ : ∀ token, (σ token).isNull = false)
    (hcolumn : ∀ token, scope.column token position
      = (σ token).resolve dialect subqueries below position)
    {x : Scalar} (hx : ∀ c, .subquery c ∉ x.parts) :
    (x.substitute σ).resolve dialect subqueries below position
      = x.resolve dialect subqueries scope position := by
  induction x using operands_induction with
  | node x ih =>
    have hoperand : ∀ y ∈ x.operands, (y.substitute σ).resolve dialect subqueries below position
        = y.resolve dialect subqueries scope position :=
      fun y hy => ih y hy fun c hc => hx c (parts_operand hy hc)
    cases x with
    | column token => exact (hcolumn token).symm
    | value | null | composite => rfl
    | subquery c => exact (hx c (mem_parts_self _)).elim
    | function f args =>
      have hargs : ∀ y ∈ args, (y.substitute σ).resolve dialect subqueries below position
          = y.resolve dialect subqueries scope position := hoperand
      rw [substitute, resolve, resolve, resolveList_substitute hargs]
    | not operand | negate operand =>
      rw [substitute, resolve, resolve, hoperand operand (by simp [operands])]
    | like subject pattern wildcards =>
      rw [substitute, resolve, resolve, hoperand subject (by simp [operands]),
        hoperand pattern (by simp [operands])]
    | case test ifTrue ifFalse =>
      rw [substitute, resolve, resolve, hoperand test (by simp [operands]),
        hoperand ifTrue (by simp [operands]), hoperand ifFalse (by simp [operands])]
    | binary op left right =>
      -- which side is tested for null is decided by the sides before they are bound
      simp only [substitute, resolve, isNull_substitute hσ, hoperand left (by simp [operands]),
        hoperand right (by simp [operands])]

end Scalar

/-! ## 3. Layers of records -/

/-- **What a column stands for in a layer of records**: what the member of the record was built from, or
the column itself if no record of the layer has it. -/
def Aliases.target (layer : Aliases) (token : ColumnToken) : Scalar :=
  (token.owner?.bind fun owner => layer.lookup (owner, token.member)).getD (.column token)

/-- What holds of columns and of all that a layer's members are built from holds of what columns stand
for. -/
theorem Aliases.target_of_forall {layer : Aliases} (P : Scalar → Prop) (h : ∀ a ∈ layer, P a.2)
    {token : ColumnToken} (hcolumn : P (.column token)) : P (layer.target token) := by
  unfold target
  cases hlookup : token.owner?.bind fun owner => layer.lookup (owner, token.member) with
  | none => exact hcolumn
  | some target =>
    obtain ⟨owner, _, hlookup⟩ := Option.bind_eq_some_iff.mp hlookup
    exact h _ (Assoc.mem_of_lookup hlookup)

/-- What a column stands for in a layer is not null itself, if no member of the layer is. -/
theorem Aliases.isNull_target {layer : Aliases} (h : ∀ a ∈ layer, a.2.isNull = false)
    (token : ColumnToken) : (layer.target token).isNull = false :=
  target_of_forall (fun x => x.isNull = false) h rfl

namespace Frame

variable {env : Env} {subqueries : Subqueries} {frame : Frame} {layer : Aliases} {below : List Aliases}

/-- **A column behind a layer is what it stands for in the layer**, bound behind the layers below. -/
theorem scope_cons_column (token : ColumnToken) (position : Position) :
    (frame.scope env subqueries (layer :: below)).column token position
      = (layer.target token).resolve env.dialect subqueries (frame.scope env subqueries below)
          position := by
  change frame.bindThrough env subqueries (layer :: below) token position = _
  rw [bindThrough, Aliases.target]
  cases token.owner?.bind fun owner => layer.lookup (owner, token.member) with
  | none => rfl
  | some target => rfl

/-- **A layer of records is taken off by substitution.**  A scalar that holds no aggregate is bound
behind a layer as it is bound behind the layers below after each column was replaced, once, by what it
stands for in the layer, if that is never null itself. -/
theorem resolve_layer (hnull : ∀ a ∈ layer, a.2.isNull = false) (position : Position) {x : Scalar}
    (hx : ∀ c, .subquery c ∉ x.parts) :
    x.resolve env.dialect subqueries (frame.scope env subqueries (layer :: below)) position
      = (x.substitute layer.target).resolve env.dialect subqueries
          (frame.scope env subqueries below) position :=
  (Scalar.resolve_substitute (Aliases.isNull_target hnull)
    (fun token => scope_cons_column token position) hx).symm

/-- Cards over cards over customers: the name of the outer card is the name of the inner one in capitals,
under the same type and member, and its city is left to the layer below. -/
theorem resolve_layer_cards :
    let env : Env := ⟨Shop.schema, {}⟩
    let card : Ty := .record "Card" [("Name", .scalar .string), ("City", .scalar .string)]
    let name : ColumnToken := ⟨[card], "Name"⟩
    let city : ColumnToken := ⟨[card], "City"⟩
    let outer : Aliases := [((card, "Name"), .function .upper [.column name])]
    let inner : Aliases := [((card, "Name"), .column ⟨[.row "Customer"], "Name"⟩),
      ((card, "City"), .column ⟨[.row "Customer"], "City"⟩)]
    let frame : Frame := ⟨0, .table "Customer" "t0", none⟩
    let subqueries := Correlated.toSelect env 0
    let x : Scalar := .binary .and (.binary .equal (.column name) (.value (.string "ADA")))
      (.binary .notEqual .null (.column city))
    (∀ a ∈ outer, a.2.isNull = false) ∧ (∀ c, .subquery c ∉ x.parts) ∧
      x.substitute outer.target
        = .binary .and (.binary .equal (.function .upper [.column name]) (.value (.string "ADA")))
            (.binary .notEqual .null (.column city)) ∧
      (x.resolve env.dialect subqueries (frame.scope env subqueries [outer, inner])
          .predicate).outcome
        = .ok (.and (.op (.call .upper [.aliasedColumn "t0" "Name"]) "=" (.param (.string "ADA")))
            (.isNotNull (.aliasedColumn "t0" "City"))) ∧
      x.resolve env.dialect subqueries (frame.scope env subqueries [outer, inner]) .predicate
        = (x.substitute outer.target).resolve env.dialect subqueries
            (frame.scope env subqueries [inner]) .predicate := by
  intro env card name city outer inner frame subqueries x
  have hnull : ∀ a ∈ outer, a.2.isNull = false := by simp [outer, Scalar.isNull]
  have hx : ∀ c, .subquery c ∉ x.parts := by simp [x, Scalar.parts]
  exact ⟨hnull, hx, rfl, rfl, resolve_layer hnull .predicate hx⟩

/-- **Layers of records are taken off one at a time**, from the outermost to the source, if none of
their members is null or holds an aggregate. -/
theorem resolve_layers {layers : List Aliases} (hnull : ∀ layer ∈ layers, ∀ a ∈ layer, a.2.isNull = false)
    (hsubquery : ∀ layer ∈ layers, ∀ a ∈ layer, ∀ c, .subquery c ∉ a.2.parts) (position : Position)
    {x : Scalar} (hx : ∀ c, .subquery c ∉ x.parts) :
    x.resolve env.dialect subqueries (frame.scope env subqueries layers) position
      = (layers.foldl (fun x layer => x.substitute layer.target) x).resolve env.dialect subqueries
          (frame.scope env subqueries []) position := by
  induction layers generalizing x with
  | nil => rfl
  | cons layer below ih =>
    obtain ⟨hnull, hnullBelow⟩ := List.forall_mem_cons.mp hnull
    obtain ⟨hsubquery, hsubqueryBelow⟩ := List.forall_mem_cons.mp hsubquery
    have htarget : ∀ token c, .subquery c ∉ (layer.target token).parts := fun _ =>
      Aliases.target_of_forall (fun x => ∀ c, .subquery c ∉ x.parts) hsubquery (by simp [Scalar.parts])
    rw [List.foldl_cons, ← ih hnullBelow hsubqueryBelow
      (Scalar.subquery_notMem_parts_substitute htarget hx)]
    exact (Scalar.resolve_substitute (Aliases.isNull_target hnull)
      (fun token => scope_cons_column token position) hx).symm

end Frame

end ChainQuery
