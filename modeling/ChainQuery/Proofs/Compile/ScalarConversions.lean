import ChainQuery.Evaluate.Partial
import ChainQuery.Proofs.Compile.Aggregates
import ChainQuery.Proofs.Coupling.Selection
import ChainQuery.Proofs.Expr.Conversions
import ChainQuery.Schema.Shop
/-!
# Conversions to scalars

Conversions to scalars are left to the database: an expression is read as its operand.  But the
compiler looks at expressions before they are read, too: at the types of what is returned, at what an
aggregate is taken of, and at whether two aggregates are equal.  Where these do not hang on a
conversion, a query compiles to the same selection without its conversions
(`Query.toSelect_unconverted`).

An aggregate of converted aggregates is not seen to be one of aggregates, and compiles to another
selection (`Query.toSelect_convertedSum`).
-/

namespace ChainQuery

/-! ## 1. Where conversions are not looked at -/

namespace Expr

theorem closedFor_eq_true {accept : Expr → Bool} {e : Expr} :
    e.closedFor accept = true ↔
      (∀ c ∈ e.children, c.closedFor accept = true) ∧ accept e = true := by
  rw [closedFor_eq, Bool.and_eq_true, List.all_eq_true]

/-- **Whether a node is looked at alike without conversions**: only scalars are converted to scalars,
no record has the type of a scalar, and what an aggregate is taken of does not become an aggregate
itself. -/
def isTransparent : Expr → Bool
  | .unary (.convert t) operand => !t.isScalar || operand.type.isScalar
  | .new t _ => !t.isScalar
  | .call (.aggregate a) _ [_, .lambda _ body] _ =>
    a == .count || body.isAggregate || !body.unconverted.isAggregate
  | _ => true

variable {schema : Schema} {A : Correlated → Prop}

/-- **Conversions in an expression are not looked at**, and its aggregates are of `A`. -/
structure Fits (schema : Schema) (A : Correlated → Prop) (e : Expr) : Prop where
  transparent : e.closedFor isTransparent = true
  aggregates : ∀ c ∈ e.aggregates schema, A c

namespace Fits

theorem child {e c : Expr} (h : e.Fits schema A) (hc : c ∈ e.children) : c.Fits schema A :=
  ⟨(closedFor_eq_true.mp h.transparent).1 c hc,
    fun d hd => h.aggregates d (aggregates_subset hc hd)⟩

/-- A node that is no aggregate fits if its children do. -/
theorem of_children {e : Expr} (h : ∀ c ∈ e.children, c.Fits schema A)
    (he : e.isTransparent = true) (haggregate : e.isAggregate = false) : e.Fits schema A := by
  refine ⟨closedFor_eq_true.mpr ⟨fun c hc => (h c hc).transparent, he⟩, fun c hc => ?_⟩
  rcases mem_aggregates_cases hc with ⟨a, receiver, args, t, rfl, _⟩ | ⟨child, hchild, hc⟩
  · cases haggregate
  · exact (h child hchild).aggregates c hc

end Fits

end Expr

/-! ## 2. Types -/

namespace Expr

/-- **Without conversions an expression has the same type, or both are scalars.** -/
theorem alike_unconverted (e : Expr) (h : e.closedFor isTransparent = true) :
    e.type.Alike e.unconverted.type := by
  induction e using children_induction with
  | node e ih =>
    obtain ⟨hchildren, hnode⟩ := closedFor_eq_true.mp h
    have hchild : ∀ c ∈ e.children, c.type.Alike c.unconverted.type :=
      fun c hc => ih c hc (hchildren c hc)
    cases e with
    | binary op left right =>
      rw [unconverted_binary, type, type]
      split
      · exact Or.inl rfl
      · exact hchild left (by simp [children])
    | unary op operand =>
      have hoperand := hchild operand (by simp [children])
      cases op with
      | not => exact Or.inl rfl
      | negate => exact hoperand
      | convert t =>
        cases ht : t.isScalar with
        | true =>
          rw [isTransparent, ht] at hnode
          rw [unconverted_convert ht]
          exact Or.inr ⟨ht, hoperand.isScalar_eq ▸ hnode⟩
        | false =>
          rw [unconverted_convert_of_not ht]
          exact Or.inl rfl
    | conditional test ifTrue ifFalse =>
      rw [unconverted_conditional, type, type]
      exact hchild ifTrue (by simp [children])
    | lambda params body =>
      rw [unconverted_lambda, type, type]
      exact hchild body (by simp [children])
    | _ => exact Or.inl (by simp [type])

/-- An aggregate stays one, of the same type. -/
theorem unconverted_of_isAggregate {e : Expr} (h : e.isAggregate = true) :
    e.unconverted.isAggregate = true ∧ e.unconverted.type = e.type := by
  cases e with
  | call m receiver args t =>
    rw [unconverted_call]
    cases m with
    | aggregate a => exact ⟨rfl, rfl⟩
    | string | other => cases h
  | _ => cases h

/-- No record that is built has the type of a scalar. -/
theorem isScalar_of_mem_built {e : Expr} (h : e.closedFor isTransparent = true) :
    ∀ key ∈ e.built, key.1.isScalar = false := by
  induction e using children_induction with
  | node e ih =>
    obtain ⟨hchildren, hnode⟩ := closedFor_eq_true.mp h
    cases hwhole : e.isReadWhole with
    | true => simp [built_of_isReadWhole hwhole]
    | false =>
      rw [built_eq hwhole]
      refine List.forall_mem_append.mpr ⟨fun key hkey => ?_, fun key hkey => ?_⟩
      · cases e with
        | new t members =>
          obtain ⟨m, _, rfl⟩ := List.mem_map.mp hkey
          simpa [isTransparent] using hnode
        | _ => cases hkey
      · obtain ⟨child, hchild, hkey⟩ := List.mem_flatMap.mp hkey
        exact ih child hchild (hchildren child hchild) key hkey

end Expr

/-! ## 3. Aggregates -/

namespace Correlated

variable {schema : Schema} {args : List Expr}

/-- **The filter and the projection of related rows are chosen alike without conversions.** -/
theorem clauses_unconverted {text : String} (text' : String) {a : Aggregate} {row : Parameter}
    {reference correlation : Expr} (hreference : reference.unconverted = reference)
    {selector : Option Lambda}
    (hselector : ∀ l, selector = some l → a ≠ .count → l.body.isAggregate = false →
      l.body.unconverted.isAggregate = false)
    {predicate : Expr} {projection : Lambda} {nested : Bool}
    (h : clauses text a row reference correlation selector = .ok (predicate, projection, nested)) :
    clauses text' a row reference correlation.unconverted (selector.map Lambda.unconverted)
      = .ok (predicate.unconverted, projection.unconverted, nested) := by
  cases selector with
  | none =>
    cases a with
    | count =>
      cases h
      rfl
    | sum | min | max | average => cases h
  | some l =>
    cases a with
    | count =>
      cases h
      rw [Expr.unconverted_binary]
      rfl
    | sum | min | max | average =>
      simp only [clauses] at h
      simp only [clauses, Option.map_some, Lambda.unconverted]
      split at h
      · rename_i haggregate
        obtain ⟨haggregate', htype⟩ := Expr.unconverted_of_isAggregate haggregate
        cases h
        rw [if_pos haggregate', Expr.record, Expr.record, Expr.unconverted_new]
        simp [htype, hreference]
      · rename_i haggregate
        have haggregate' := hselector l rfl (by simp) (by simpa using haggregate)
        cases h
        rw [if_neg (by simp [haggregate'])]

/-- What fits of all arguments fits of the row at hand and of the body of the selector. -/
theorem Call.fits {A : Correlated → Prop} (k : Call schema args)
    (h : ∀ arg ∈ args, arg.Fits schema A) :
    k.object.Fits schema A ∧ ∀ l, k.selector = some l → l.body.Fits schema A := by
  refine ⟨(h _ k.collection_mem).child List.mem_cons_self, fun l hl => ?_⟩
  exact (h _ (k.selector_mem hl)).child List.mem_cons_self

/-- The arguments of an aggregate over a navigation, without conversions. -/
def Call.unconverted {A : Correlated → Prop} (k : Call schema args)
    (h : ∀ arg ∈ args, arg.Fits schema A) : Call schema (args.map Expr.unconverted) where
  navigation := k.navigation
  object := k.object.unconverted
  path := k.path
  selector := k.selector.map Lambda.unconverted
  args_eq := by
    rw [arguments?_map_of_lambda Expr.unconverted_lambda k.args_eq, Navigation.collection,
      Expr.unconverted_member]
    rfl
  type_eq := by
    -- a row is no scalar, so its type stays the same
    rcases k.object.alike_unconverted (k.fits h).1.transparent with hsame | ⟨hscalar, _⟩
    · rw [← hsame, k.type_eq]
    · rw [k.type_eq] at hscalar
      cases hscalar
  path_eq := by rw [Expr.memberPath?_unconverted, k.path_eq]
  arity := by
    intro l hl
    obtain ⟨l', hl', rfl⟩ := Option.map_eq_some_iff.mp hl
    exact k.arity l' hl'

theorem Call.row_unconverted {A : Correlated → Prop} (k : Call schema args)
    (h : ∀ arg ∈ args, arg.Fits schema A) : (k.unconverted h).row = k.row :=
  Call.row_eq rfl (by rw [Call.unconverted, Option.map_map]; rfl)

theorem Call.reference_unconverted {A : Correlated → Prop} (k : Call schema args)
    (h : ∀ arg ∈ args, arg.Fits schema A) : (k.unconverted h).reference = k.reference := by
  unfold Call.reference
  rw [k.row_unconverted h]
  rfl

theorem Call.key_unconverted {A : Correlated → Prop} (k : Call schema args)
    (h : ∀ arg ∈ args, arg.Fits schema A) : (k.unconverted h).key = k.key.unconverted := by
  unfold Call.key
  rw [Expr.unconverted_member]
  rfl

theorem Call.query_unconverted {A : Correlated → Prop} (k : Call schema args)
    (h : ∀ arg ∈ args, arg.Fits schema A) (predicate : Expr) (projection : Lambda) :
    (k.unconverted h).query predicate.unconverted projection.unconverted
      = (k.query predicate projection).unconverted := by
  unfold Call.query
  rw [k.row_unconverted h]
  rfl

/-- **The query of an aggregate without conversions is the query of the aggregate without them.** -/
theorem ofCall_unconverted {A : Correlated → Prop} {a : Aggregate} {receiver : Option Expr} {t : Ty}
    (h : (Expr.call (.aggregate a) receiver args t).Fits schema A) {text : String} (text' : String)
    {c : Correlated} (hc : (ofCall schema text a args).outcome = .ok c) :
    (ofCall schema text' a (args.map Expr.unconverted)).outcome = .ok c.unconverted := by
  have hargs : ∀ arg ∈ args, arg.Fits schema A :=
    fun arg harg => h.child (by simp [Expr.children, harg])
  have hnode := (Expr.closedFor_eq_true.mp h.transparent).2
  obtain ⟨k, predicate, projection, nested, hclauses, rfl⟩ := ofCall_eq_ok.mp hc
  have hreference : k.reference.unconverted = k.reference := rfl
  have hselector : ∀ l, k.selector = some l → a ≠ .count → l.body.isAggregate = false →
      l.body.unconverted.isAggregate = false := by
    intro l hl ha haggregate
    have hlambda : args = [_, l.toExpr] := eq_of_arguments?_eq_some (hl ▸ k.args_eq)
    rw [hlambda] at hnode
    simpa [Expr.isTransparent, Lambda.toExpr, ha, haggregate] using hnode
  have hclauses' := clauses_unconverted text' hreference hselector hclauses
  rw [Expr.unconverted_binary, hreference] at hclauses'
  refine ofCall_eq_ok.mpr ⟨k.unconverted hargs, predicate.unconverted, projection.unconverted, nested,
    ?_, ?_⟩
  · rw [k.row_unconverted, k.reference_unconverted, k.key_unconverted]
    exact hclauses'
  · rw [Correlated.unconverted, k.query_unconverted]

/-- **What fits of an aggregate fits of the lambdas of its query.** -/
theorem fits_query {A : Correlated → Prop} {a : Aggregate} {text : String} {c : Correlated}
    (h : ∀ arg ∈ args, arg.Fits schema A) (hc : (ofCall schema text a args).outcome = .ok c) :
    ∀ body ∈ c.query.bodies, body.Fits schema A :=
  forall_bodies_query hc
    (fun p => .of_children (by simp [Parameter.reference, Expr.children]) rfl rfl)
    (fun _ _ _ hobject => .of_children (List.forall_mem_singleton.mpr hobject) rfl rfl)
    (fun _ _ _ hleft hright =>
      .of_children (by simpa [Expr.children] using ⟨hleft, hright⟩) rfl rfl)
    (fun _ _ _ _ hkey hvalue => .of_children
      (by simpa [Expr.record, Expr.children] using ⟨hkey, hvalue⟩) rfl rfl)
    (fun k => (k.fits h).1) fun k l hl => (k.fits h).2 l hl

end Correlated

/-- What fits of an expression fits of the lambdas of its aggregates. -/
theorem Expr.Fits.query {schema : Schema} {A : Correlated → Prop} {e : Expr} (h : e.Fits schema A)
    {c : Correlated} (hc : c ∈ e.aggregates schema) : ∀ body ∈ c.query.bodies, body.Fits schema A := by
  induction e using children_induction with
  | node e ih =>
    rcases mem_aggregates_cases hc with ⟨a, receiver, args, t, rfl, hcall⟩ | ⟨child, hchild, hc⟩
    · exact Correlated.fits_query (fun arg harg => h.child (by simp [children, harg])) hcall
    · exact ih child hchild (h.child hchild) hc

/-! ## 4. Reading -/

/-- **A run beside the run without conversions**, on aggregates of `A` that it does not confuse. -/
def Coupling.unconverted (env : Env) (A : Correlated → Prop)
    (hA : ∀ c d, A c → A d → (c.unconverted == d.unconverted) = true → (c == d) = true) :
    Coupling :=
  .ofAggregates env (fun c c' => A c ∧ c' = c.unconverted) <| by
    rintro c _ d _ ⟨hc, rfl⟩ ⟨hd, rfl⟩
    exact Bool.eq_iff_iff.mpr ⟨Correlated.beq_unconverted, hA c d hc hd⟩

section Reading

variable {env : Env} {A : Correlated → Prop}
  {hA : ∀ c d, A c → A d → (c.unconverted == d.unconverted) = true → (c == d) = true}

/-- **An expression is read alike without its conversions.** -/
theorem Expr.coupled_unconverted (e : Expr) (h : e.Fits env.schema A) :
    e.Coupled (.unconverted env A hA) e.unconverted := by
  induction e using children_induction with
  | node e ih =>
    have hchild : ∀ c ∈ e.children, c.Coupled (.unconverted env A hA) c.unconverted :=
      fun c hc => ih c hc (h.child hc)
    cases hconverted : e.converted? with
    | some operand =>
      obtain ⟨t, ht, rfl⟩ := converted?_eq_some.mp hconverted
      unfold Coupled
      rw [toScalar, if_pos ht, unconverted_convert ht]
      exact hchild operand (by simp [children])
    | none =>
      cases hwhole : e.isReadWhole with
      | false =>
        rw [unconverted_eq hconverted]
        exact .withChildren rfl hwhole (List.forall₂_map_right_iff.mpr (List.forall₂_same.mpr hchild))
      | true =>
        cases e with
        | member object name t =>
          rw [unconverted_member]
          have hobject : object.Fits env.schema A := h.child (by simp [children])
          exact .member name t (fun _ _ _ => trivial) object.memberPath?_unconverted
            (object.alike_unconverted hobject.transparent).isScalar_eq.symm
        | call m receiver args t =>
          cases m with
          | aggregate a =>
            rw [unconverted_call]
            refine .aggregate (.of_exists id fun c hc => ⟨c.unconverted, ?_, ?_, rfl⟩)
            · exact Correlated.ofCall_unconverted h _ hc
            · exact h.aggregates c (mem_aggregates hc)
          | string | other => cases hwhole
        | _ => cases hwhole

theorem Lambda.coupled_unconverted {l : Lambda} (h : l.body.Fits env.schema A) :
    l.Coupled (.unconverted env A hA) l.unconverted :=
  Lambda.coupled_of_body rfl (l.body.coupled_unconverted h) (l.body.alike_unconverted h.transparent)
    fun _ => Expr.isScalar_of_mem_built h.transparent

/-- **A query is read alike without its conversions.** -/
theorem Query.coupled_unconverted {q : Query} (h : ∀ body ∈ q.bodies, body.Fits env.schema A) :
    q.Coupled (.unconverted env A hA) q.unconverted := by
  induction q with
  | table rowType => exact .table rowType
  | select source selector ih =>
    obtain ⟨hbody, hsource⟩ := List.forall_mem_cons.mp h
    exact .select (ih hsource) (Lambda.coupled_unconverted hbody)
  | filter source predicate ih =>
    obtain ⟨hbody, hsource⟩ := List.forall_mem_cons.mp h
    exact .filter (ih hsource) (Lambda.coupled_unconverted hbody)
  | orderBy source key kind ih =>
    obtain ⟨hbody, hsource⟩ := List.forall_mem_cons.mp h
    exact .orderBy (ih hsource) (Lambda.coupled_unconverted hbody) kind
  | join outer inner outerKey innerKey result ihl ihr =>
    simp only [bodies, List.forall_mem_append, List.forall_mem_cons] at h
    obtain ⟨⟨⟨houterKey, hinnerKey, hresult, _⟩, houter⟩, hinner⟩ := h
    exact .join (ihl houter) (ihr hinner) (Lambda.coupled_unconverted houterKey)
      (Lambda.coupled_unconverted hinnerKey) (Lambda.coupled_unconverted hresult)
  | crossJoin source collection result ihl ihr =>
    simp only [bodies, List.forall_mem_append, List.forall_mem_cons] at h
    obtain ⟨⟨hresult, hsource⟩, hcollection⟩ := h
    exact .crossJoin (ihl hsource) (ihr hcollection) (.of_shows (fun _ _ _ => rfl) fun _ => trivial)
      (.of_shows (fun _ _ _ => rfl) fun _ => trivial) (Lambda.coupled_unconverted hresult)
  | call method source args ih => exact .call method (ih h) _ _

end Reading

/-! ## 5. The theorem -/

/-- **Scalar conversions are transparent**: a query compiles to the same selection without them, if
only scalars are converted to scalars, no record has the type of a scalar, no aggregate is taken of a
converted aggregate, and no two of its aggregates are equal but for conversions. -/
theorem Query.toSelect_unconverted {env : Env} {q : Query}
    (htransparent : ∀ body ∈ q.bodies, body.closedFor Expr.isTransparent = true)
    (hapart : ∀ c ∈ q.aggregates env.schema, ∀ d ∈ q.aggregates env.schema,
      (c.unconverted == d.unconverted) = true → (c == d) = true)
    {select : Sql.Select} (h : (q.toSelect env).outcome = .ok select) :
    (q.unconverted.toSelect env).outcome = .ok select := by
  have hfits : ∀ body ∈ q.bodies, body.Fits env.schema (· ∈ q.aggregates env.schema) :=
    fun body hbody => ⟨htransparent body hbody,
      fun c hc => List.mem_flatMap.mpr ⟨body, hbody, hc⟩⟩
  let C : Coupling := .unconverted env (· ∈ q.aggregates env.schema)
    fun c d hc hd => hapart c hc d hd
  have hsound : C.Sound := by
    rintro c _ ⟨hc, rfl⟩
    obtain ⟨body, hbody, hc⟩ := List.mem_flatMap.mp hc
    exact ⟨Query.coupled_unconverted ((hfits body hbody).query hc), rfl, rfl,
      fun _ => .of_shows (fun _ _ _ => rfl) fun _ => trivial⟩
  have hq : q.Coupled C q.unconverted := Query.coupled_unconverted hfits
  exact hq.toSelect_eq hsound rfl q.aggregateDepth_unconverted h

/-! ## 6. Sums -/

namespace Shop

/-- A conversion to decimal numbers. -/
def toDecimal (e : Expr) : Expr := .unary (.convert (.scalar .decimal)) e

/-- The sum over the orders of a customer. -/
def sumOfOrders (c o : Parameter) (body : Expr) : Expr :=
  .aggregate .sum (field c "Orders") (some ⟨[o], body⟩) (.scalar .decimal)

/-- The customers with a number above three, each with the sum over its orders of the customer's
number. -/
def customerSums : Query :=
  let c : Parameter := ⟨"c", .row "Customer"⟩
  let o : Parameter := ⟨"o", .row "Order"⟩
  .select
    (.filter (.table "Customer") ⟨[c], .binary .greaterThan (toDecimal (field c "Id"))
      (.constant (.int 3) (.scalar .int64))⟩)
    ⟨[c], sumOfOrders c o (toDecimal (field o "CustomerId"))⟩

/-- The customers, each with the sum over its orders of the quantities of their lines, converted to
decimal numbers order by order. -/
def quantitySums : Query :=
  let c : Parameter := ⟨"c", .row "Customer"⟩
  let o : Parameter := ⟨"o", .row "Order"⟩
  let l : Parameter := ⟨"l", .row "OrderLine"⟩
  .select (.table "Customer") ⟨[c], sumOfOrders c o (toDecimal
    (.aggregate .sum (field o "Lines") (some ⟨[l], field l "Quantity"⟩) (.scalar .int32)))⟩

/-- The sum of the quantities of the lines of an order. -/
def linesSum (lines order : String) : Sql.Expr :=
  .subselect {
    list := .plain [.call .sum [.bareColumn "Quantity"]]
    source := some (.table (.table "OrderLine") (some lines))
    joins := []
    filter := .op (.aliasedColumn lines "OrderId") "=" (.aliasedColumn order "Id")
    orderBy := [] }

/-- A selection from the orders of the customer in the statement around it. -/
def ordersSelect (orders : String) (list : Sql.SelectList) : Sql.Select where
  list := list
  source := some (.table (.table "Order") (some orders))
  joins := []
  filter := .op (.aliasedColumn orders "CustomerId") "=" (.aliasedColumn "t0" "Id")
  orderBy := []

/-- The sum of the values of pairs. -/
def valuesSum (label : String) (pairs : Sql.Select) : Sql.Select where
  list := .plain [.call .sum [.bareColumn "Value"]]
  source := some (.derived pairs label)
  joins := []
  filter := .always
  orderBy := []

/-- A selection of one value for every customer. -/
def customersSelect (item : Sql.Expr) : Sql.Select where
  list := .plain [item]
  source := some (.table (.table "Customer") (some "t0"))
  joins := []
  filter := .always
  orderBy := []

end Shop

/-- Converted numbers in a filter and in a sum. -/
theorem Query.toSelect_customerSums :
    let env : Env := ⟨Shop.schema, {}⟩
    (∀ body ∈ Shop.customerSums.bodies, body.closedFor Expr.isTransparent = true) ∧
    (∀ c ∈ Shop.customerSums.aggregates env.schema, ∀ d ∈ Shop.customerSums.aggregates env.schema,
      (c.unconverted == d.unconverted) = true → (c == d) = true) ∧
    (Shop.customerSums.bodies == Shop.customerSums.unconverted.bodies) = false ∧
    ∃ select, (Shop.customerSums.toSelect env).outcome = .ok select ∧
      (Shop.customerSums.unconverted.toSelect env).outcome = .ok select := by
  intro env
  have htransparent : ∀ body ∈ Shop.customerSums.bodies,
      body.closedFor Expr.isTransparent = true := by decide
  have hapart : ∀ c ∈ Shop.customerSums.aggregates env.schema,
      ∀ d ∈ Shop.customerSums.aggregates env.schema,
      (c.unconverted == d.unconverted) = true → (c == d) = true := by decide
  exact ⟨htransparent, hapart, by decide, _, rfl,
    Query.toSelect_unconverted htransparent hapart rfl⟩

/-- **A sum of converted sums is not compiled as a sum of sums.**  Without the conversion, the sums are
selected in pairs with the keys of their orders and added up from there. -/
theorem Query.toSelect_convertedSum :
    let env : Env := ⟨Shop.schema, {}⟩
    let select : Sql.Select := Shop.customersSelect
      (.subselect (Shop.ordersSelect "t1" (.plain [.call .sum [Shop.linesSum "t2" "t1"]])))
    let select' : Sql.Select := Shop.customersSelect
      (.subselect (Shop.valuesSum "t1" (Shop.ordersSelect "t2"
        (.aliased [("Key", .bareColumn "CustomerId"), ("Value", Shop.linesSum "t3" "t2")]))))
    (Shop.quantitySums.toSelect env).outcome = .ok select ∧
      (Shop.quantitySums.unconverted.toSelect env).outcome = .ok select' ∧ select ≠ select' := by
  refine ⟨rfl, rfl, fun h => ?_⟩
  -- One inner selection is from a table, the other from the pairs.
  simp [Shop.customersSelect, Shop.ordersSelect, Shop.valuesSum] at h

end ChainQuery
