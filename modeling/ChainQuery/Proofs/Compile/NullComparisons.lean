import ChainQuery.Compile.Plan
import ChainQuery.Proofs.Compile.AggregateDepth
import ChainQuery.Proofs.Compile.ReadingRules
import ChainQuery.Proofs.Compile.Scalars
import ChainQuery.Schema.Shop
/-!
# Comparisons with null

`x = NULL` is never true, so a comparison with null becomes a test for null.  The compiler looks for null
among the two operands as they were read.  An operand that is a column is no null then, but it can still
become one: if it is the member of a record that was built from null, `NULL` is put in its place when it is
bound, and the comparison stays.

A member may be null if a record of the query builds it from null, or from another such member
(`Query.NullMember`).  `Query.compile_comparesNoNull` says that this is the only way: a query whose
comparisons leave such members alone is compiled to a statement in which nothing is compared with `NULL`.
-/

namespace ChainQuery

/-! ## 1. Statements -/

namespace Sql

/-- **A comparison with `NULL`**, which is never true. -/
def Expr.ComparesNull (n : Expr) : Prop :=
  ∃ left token right, n = .op left token right ∧ (token = "=" ∨ token = "<>") ∧
    (left = .null ∨ right = .null)

/-- A selection that compares nothing with `NULL` itself. -/
def Select.ComparesNoNull (s : Select) : Prop := ∀ e ∈ s.exprs, e.AllNodes fun n => ¬n.ComparesNull

/-- A node that neither compares something with `NULL` nor stands for a selection that does. -/
def Expr.NullSafe (n : Expr) : Prop :=
  ¬n.ComparesNull ∧ ∀ t, n = .subselect t → t.Everywhere Select.ComparesNoNull

/-- Whether a node is neither an operation nor a selection. -/
def Expr.isOther : Expr → Bool
  | .op _ _ _ | .subselect _ => false
  | _ => true

theorem Expr.nullSafe_of_isOther {n : Expr} (h : n.isOther = true) : n.NullSafe := by
  refine ⟨?_, ?_⟩
  · rintro ⟨_, _, _, rfl, _⟩
    cases h
  · rintro _ rfl
    cases h

theorem Expr.nullSafe_op {left right : Expr} {token : String}
    (h : token = "=" ∨ token = "<>" → left ≠ .null ∧ right ≠ .null) :
    (Expr.op left token right).NullSafe := by
  refine ⟨?_, by rintro _ ⟨⟩⟩
  rintro ⟨_, _, _, ⟨⟩, htoken, hnull⟩
  obtain ⟨hleft, hright⟩ := h htoken
  exact hnull.elim hleft hright

theorem Expr.allNodes_nullSafe {n : Expr} {below : List Expr} (hn : n.isOther = true)
    (hnodes : n.nodes = n :: below) (hbelow : ∀ m ∈ below, m.NullSafe) : n.AllNodes NullSafe := by
  rw [AllNodes, hnodes]
  exact List.forall_mem_cons.mpr ⟨nullSafe_of_isOther hn, hbelow⟩

/-- **A selection compares nothing with `NULL` anywhere** if its derived tables do not, and its expressions
have no node that does. -/
theorem Select.everywhere_comparesNoNull_iff {s : Select} :
    s.Everywhere Select.ComparesNoNull ↔
      (∀ t ∈ s.derived, t.Everywhere Select.ComparesNoNull) ∧
        ∀ e ∈ s.exprs, e.AllNodes Expr.NullSafe := by
  rw [everywhere_iff, forall_mem_parts]
  constructor
  · rintro ⟨hown, hderived, hparts⟩
    exact ⟨hderived, fun e he n hn => ⟨hown e he n hn, hparts e he n hn⟩⟩
  · rintro ⟨hderived, hnodes⟩
    exact ⟨fun e he n hn => (hnodes e he n hn).1, hderived, fun e he n hn => (hnodes e he n hn).2⟩

end Sql

/-- An aggregate compares no more than its argument. -/
theorem Aggregate.toSql_nullSafe {argument : Sql.Expr} (h : argument.AllNodes Sql.Expr.NullSafe)
    (a : Aggregate) : (a.toSql argument).AllNodes Sql.Expr.NullSafe := by
  cases a with
  | count => exact Sql.Expr.allNodes_nullSafe rfl rfl (by simp)
  | sum | min | max | average =>
    exact Sql.Expr.allNodes_call.mpr
      ⟨Sql.Expr.nullSafe_of_isOther rfl, List.forall_mem_singleton.mpr h⟩

/-! ## 2. Scalars -/

/-- A column that is one of the members that may be null. -/
def ColumnToken.MayBeNull (N : Ty × String → Prop) (token : ColumnToken) : Prop :=
  ∃ owner, token.owner? = some owner ∧ N (owner, token.member)

/-- **A scalar that may become `NULL` itself**, if the members of `N` may be null. -/
def Scalar.MayBeNull (N : Ty × String → Prop) : Scalar → Prop
  | .null => True
  | .column token => token.MayBeNull N
  | _ => False

/-- At the root of a scalar, null is compared only as such, and an aggregate is one of `A`. -/
def Scalar.ShowsNull (N : Ty × String → Prop) (A : Correlated → Prop) : Scalar → Prop
  | .value v => v ≠ .null
  | .binary op left right =>
    (op = .equal ∨ op = .notEqual) → left.isNull = false → right.isNull = false →
      ¬left.MayBeNull N ∧ ¬right.MayBeNull N
  | .subquery c => A c
  | _ => True

/-- **A scalar in which null is compared only as such**, so that the comparison is a test for null. -/
inductive Scalar.ShowsNulls (N : Ty × String → Prop) (A : Correlated → Prop) : Scalar → Prop
  | intro {x : Scalar} (own : x.ShowsNull N A) (operands : ∀ y ∈ x.operands, ShowsNulls N A y) :
      ShowsNulls N A x

/-- **A scope binds a column to `NULL` only if it may be null**, and to nothing that is compared with
`NULL`. -/
def Scope.ShowsNulls (N : Ty × String → Prop) (scope : Scope) : Prop :=
  ∀ ⦃token : ColumnToken⦄ ⦃position : Position⦄ ⦃e : Sql.Expr⦄,
    (scope.column token position).outcome = .ok e →
      e.AllNodes Sql.Expr.NullSafe ∧ (e = .null → token.MayBeNull N)

/-- The aggregates of `A` compare nothing with `NULL`. -/
def Subqueries.ShowNulls (N : Ty × String → Prop) (A : Correlated → Prop) (subqueries : Subqueries) :
    Prop :=
  ∀ ⦃c : Correlated⦄, A c → ∀ ⦃scope : Scope⦄, scope.ShowsNulls N →
    ∀ ⦃select : Sql.Select⦄, (subqueries c scope).outcome = .ok select →
      select.Everywhere Sql.Select.ComparesNoNull

section Resolve

variable {N : Ty × String → Prop} {A : Correlated → Prop} {dialect : Dialect}
  {subqueries : Subqueries} {scope : Scope} {position : Position}

theorem Scalar.mem_resolveList {xs : List Scalar} {es : List Sql.Expr}
    (h : (resolveList dialect subqueries scope position xs).outcome = .ok es) :
    ∀ e ∈ es, ∃ x ∈ xs, (x.resolve dialect subqueries scope position).outcome = .ok e := by
  induction xs generalizing es with
  | nil =>
    cases h
    simp
  | cons x xs ih =>
    obtain ⟨e, he, h⟩ := Traced.bind_eq_ok.mp h
    obtain ⟨es', hes, h⟩ := Traced.bind_eq_ok.mp h
    cases h
    refine List.forall_mem_cons.mpr ⟨⟨x, List.mem_cons_self, he⟩, fun e he => ?_⟩
    obtain ⟨y, hy, he⟩ := ih hes e he
    exact ⟨y, List.mem_cons_of_mem _ hy, he⟩

/-- The tokens of the comparisons for equality are those of no other operator. -/
theorem BinaryOp.token_eq {op : BinaryOp} (h : op.token dialect = "=" ∨ op.token dialect = "<>") :
    op = .equal ∨ op = .notEqual := by
  cases op with
  | equal => exact Or.inl rfl
  | notEqual => exact Or.inr rfl
  | divide => cases hdivision : dialect.division <;> simp [token, hdivision, DivisionOp.token] at h
  | _ => simp [token] at h

/-- **Binding a scalar in which null is compared only as such** compares nothing with `NULL`; the result is
`NULL` itself only if the scalar may be null. -/
theorem Scalar.ShowsNulls.resolve (hscope : scope.ShowsNulls N) (hsub : subqueries.ShowNulls N A)
    {x : Scalar} (hx : x.ShowsNulls N A) {e : Sql.Expr}
    (h : (x.resolve dialect subqueries scope position).outcome = .ok e) :
    e.AllNodes Sql.Expr.NullSafe ∧ (e = .null → x.MayBeNull N) := by
  induction hx generalizing e with
  | @intro x own _ ih =>
    cases x with
    | column token => exact hscope h
    | value v =>
      cases v <;> cases h
      · exact (own rfl).elim
      all_goals exact ⟨Sql.Expr.allNodes_nullSafe rfl rfl (by simp), by rintro ⟨⟩⟩
    | null =>
      cases h
      exact ⟨Sql.Expr.allNodes_nullSafe rfl rfl (by simp), fun _ => trivial⟩
    | binary op left right =>
      have hleft := @ih left (by simp [operands])
      have hright := @ih right (by simp [operands])
      rcases resolve_binary_cases h with ⟨x, hx, he⟩ | ⟨x, y, hx, hy, he⟩
      · have hnodes : x.AllNodes Sql.Expr.NullSafe := by
          rcases hx with ⟨_, hx⟩ | ⟨_, hx⟩
          · exact (hleft hx).1
          · exact (hright hx).1
        rcases he with ⟨_, rfl⟩ | ⟨_, rfl⟩
        · exact ⟨Sql.Expr.allNodes_nullSafe rfl rfl hnodes, by rintro ⟨⟩⟩
        · exact ⟨Sql.Expr.allNodes_nullSafe rfl rfl hnodes, by rintro ⟨⟩⟩
      · have hnodes : ∀ n ∈ x.nodes ++ y.nodes, n.NullSafe :=
          List.forall_mem_append.mpr ⟨(hleft hx).1, (hright hy).1⟩
        rcases he with ⟨_, rfl⟩ | ⟨_, rfl⟩ | ⟨_, rfl, hnull⟩
        · exact ⟨Sql.Expr.allNodes_nullSafe rfl rfl hnodes, by rintro ⟨⟩⟩
        · exact ⟨Sql.Expr.allNodes_nullSafe rfl rfl hnodes, by rintro ⟨⟩⟩
        · refine ⟨List.forall_mem_cons.mpr ⟨Sql.Expr.nullSafe_op fun htoken => ?_, hnodes⟩,
            by rintro ⟨⟩⟩
          -- neither operand is null as it was read, so neither becomes it
          have hop := BinaryOp.token_eq htoken
          obtain ⟨hleftNull, hrightNull⟩ := hnull hop
          obtain ⟨hleftMay, hrightMay⟩ := own hop hleftNull hrightNull
          exact ⟨fun hx' => hleftMay ((hleft hx).2 hx'), fun hy' => hrightMay ((hright hy).2 hy')⟩
    | not operand | negate operand =>
      obtain ⟨y, hy, h⟩ := Traced.bind_eq_ok.mp h
      cases h
      exact ⟨Sql.Expr.allNodes_nullSafe rfl rfl (ih operand (by simp [operands]) hy).1, by rintro ⟨⟩⟩
    | function f args =>
      obtain ⟨es, hes, h⟩ := Traced.bind_eq_ok.mp h
      cases h
      have hnodes : ∀ n ∈ Sql.Expr.listNodes es, n.NullSafe := by
        refine Sql.Expr.allNodes_listNodes.mpr fun e he => ?_
        obtain ⟨y, hy, hresolve⟩ := mem_resolveList hes e he
        exact (ih y hy hresolve).1
      exact ⟨Sql.Expr.allNodes_nullSafe rfl rfl hnodes, by rintro ⟨⟩⟩
    | like subject pattern w =>
      obtain ⟨y, hy, h⟩ := Traced.bind_eq_ok.mp h
      obtain ⟨z, hz, h⟩ := Traced.bind_eq_ok.mp h
      cases h
      have hnodes : ∀ n ∈ y.nodes ++ z.nodes, n.NullSafe := List.forall_mem_append.mpr
        ⟨(ih subject (by simp [operands]) hy).1, (ih pattern (by simp [operands]) hz).1⟩
      exact ⟨Sql.Expr.allNodes_nullSafe rfl rfl hnodes, by rintro ⟨⟩⟩
    | case test ifTrue ifFalse =>
      obtain ⟨t, ht, h⟩ := Traced.bind_eq_ok.mp h
      obtain ⟨y, hy, h⟩ := Traced.bind_eq_ok.mp h
      obtain ⟨z, hz, h⟩ := Traced.bind_eq_ok.mp h
      cases h
      have htest := (ih test (by simp [operands]) ht).1
      have hnodes : ∀ n ∈ t.nodes ++ (y.nodes ++ z.nodes), n.NullSafe := List.forall_mem_append.mpr
        ⟨htest, List.forall_mem_append.mpr
          ⟨(ih ifTrue (by simp [operands]) hy).1, (ih ifFalse (by simp [operands]) hz).1⟩⟩
      exact ⟨Sql.Expr.allNodes_nullSafe rfl rfl hnodes, by rintro ⟨⟩⟩
    | subquery c =>
      obtain ⟨select, hselect, h⟩ := Traced.bind_eq_ok.mp h
      cases h
      refine ⟨List.forall_mem_singleton.mpr ⟨?_, ?_⟩, by rintro ⟨⟩⟩
      · rintro ⟨_, _, _, ⟨⟩, _⟩
      · rintro _ ⟨⟩
        exact hsub own hscope hselect
    | composite text => cases h

end Resolve

/-! ## 3. Selections -/

section Selections

variable {env : Env} {N : Ty × String → Prop} {A : Correlated → Prop} {subqueries : Subqueries}

/-- **The scope of a statement**: a member of a record is bound to `NULL` only if it may be null. -/
theorem Frame.scope_showsNulls (hsub : subqueries.ShowNulls N A) {frame : Frame}
    (houter : ∀ scope, frame.outer = some scope → scope.ShowsNulls N) {layers : List Aliases}
    (hlayers : ∀ layer ∈ layers, ∀ a ∈ layer, a.2.ShowsNulls N A ∧ (a.2.MayBeNull N → N a.1)) :
    (frame.scope env subqueries layers).ShowsNulls N := by
  induction layers with
  | nil =>
    intro token position e h
    obtain ⟨owner, _, hfound | ⟨_, scope, hscope, hcolumn⟩⟩ := Frame.bindToSource_eq_ok.mp h
    · obtain ⟨ref, rfl⟩ := Source.exists_column_of_column? hfound
      exact ⟨Sql.Expr.allNodes_column.mpr (Sql.Expr.nullSafe_of_isOther rfl), by rintro ⟨⟩⟩
    · exact houter scope hscope hcolumn
  | cons layer below ih =>
    obtain ⟨hlayer, hbelow⟩ := List.forall_mem_cons.mp hlayers
    intro token position e h
    rcases Frame.bindThrough_cons_eq_ok.mp h with ⟨owner, target, howner, hlookup, htarget⟩ | ⟨_, h⟩
    · obtain ⟨hshows, hmember⟩ := hlayer _ (Assoc.mem_of_lookup hlookup)
      obtain ⟨hnodes, hnull⟩ := hshows.resolve (ih hbelow) hsub htarget
      exact ⟨hnodes, fun he => ⟨owner, howner, hmember (hnull he)⟩⟩
    · exact ih hbelow h

/-- **A statement in which null is compared only as such**, and in which the members of records that may be
null are members of `N`. -/
structure Statement.ShowsNulls (N : Ty × String → Prop) (A : Correlated → Prop) (s : Statement) :
    Prop where
  scalars : ∀ x ∈ s.scalars, x.ShowsNulls N A
  aliases : ∀ a ∈ s.aliases, a.2.MayBeNull N → N a.1

theorem Statement.ShowsNulls.side {s t : Statement} (h : s.ShowsNulls N A) (ht : t ∈ s.sides) :
    t.ShowsNulls N A :=
  ⟨Statement.forall_sides h.scalars t ht, fun a ha => h.aliases a (Statement.aliases_side_subset ht ha)⟩

/-- **The selection of a statement compares nothing with `NULL`**, if null is compared only as such. -/
theorem Statement.ShowsNulls.toSelect (hsub : subqueries.ShowNulls N A) {outer : Option Scope}
    (houter : ∀ scope, outer = some scope → scope.ShowsNulls N) {s : Statement}
    (hs : s.ShowsNulls N A) {role : Role} {depth : Nat} {select : Sql.Select} {lifted : List SortKey}
    (h : (s.toSelect env subqueries outer role depth).outcome = .ok (select, lifted)) :
    select.Everywhere Sql.Select.ComparesNoNull := by
  have hexprs : ∀ {s : Statement} {role : Role} {depth : Nat} {select : Sql.Select}
      {lifted : List SortKey}, s.ShowsNulls N A →
      (s.toSelect env subqueries outer role depth).outcome = .ok (select, lifted) →
        ∀ e ∈ select.exprs, e.AllNodes Sql.Expr.NullSafe := by
    intro s role depth select lifted hs h
    obtain ⟨ground, hground, hparts⟩ := Statement.toSelect_eq_ok.mp h
    have hscope : (s.binder env subqueries outer depth ground.source).scope.ShowsNulls N :=
      Frame.scope_showsNulls hsub houter fun layer hlayer a ha =>
        ⟨Statement.forall_layers hs.scalars layer hlayer a ha,
          hs.aliases a (Statement.mem_aliases_of_layers hlayer ha)⟩
    have hbound : ∀ x ∈ s.bound, x.ShowsNulls N A :=
      Statement.forall_bound (fun _ => .intro trivial (by simp [Scalar.operands])) hs.scalars
    exact Statement.forall_exprs_of_bound hground
      (fun x hx _ _ he => ((hbound x hx).resolve hscope hsub he).1)
      (fun a _ he => Aggregate.toSql_nullSafe he a) (Sql.Expr.allNodes_nullSafe rfl rfl (by simp))
      (Sql.Expr.allNodes_nullSafe rfl rfl (by simp))
      (fun name => Sql.Expr.allNodes_nullSafe rfl rfl (by simp)) hparts
  induction s generalizing role depth select lifted with
  | table clauses rowType =>
    refine Sql.Select.everywhere_comparesNoNull_iff.mpr ⟨?_, hexprs hs h⟩
    obtain ⟨_, _, hclause, hjoins, hfrom⟩ := Statement.selectsFrom_of_toSelect h
    cases hfrom
    simp [Sql.Select.derived, hclause, hjoins, Sql.From.derived?]
  | join clauses left right outerKey innerKey result keys =>
    refine Sql.Select.everywhere_comparesNoNull_iff.mpr ⟨?_, hexprs hs h⟩
    obtain ⟨_, _, hclause, hjoins, hfrom⟩ := Statement.selectsFrom_of_toSelect h
    cases hfrom
    simp [Sql.Select.derived, hclause, hjoins, Sql.From.derived?, Sql.Join.derived?]
  | crossJoin clauses left right leftRow rightRow result ihl ihr =>
    refine Sql.Select.everywhere_comparesNoNull_iff.mpr ⟨?_, hexprs hs h⟩
    obtain ⟨_, _, hclause, hjoins, hfrom⟩ := Statement.selectsFrom_of_toSelect h
    cases hfrom with
    | crossJoin hleft hright =>
      have hleft := ihl (hs.side List.mem_cons_self) hleft
      have hright := ihr (hs.side (List.mem_cons_of_mem _ List.mem_cons_self)) hright
      simpa [Sql.Select.derived, hclause, hjoins, Sql.From.derived?, Sql.Join.derived?]
        using ⟨hleft, hright⟩

/-- **Aggregates compare nothing with `NULL`**, nested to any depth. -/
theorem Correlated.toSelect_showNulls
    (hA : ∀ c, A c → ∀ s, (c.query.toStatement env).outcome = .ok s → s.ShowsNulls N A)
    (levels : Nat) : (Correlated.toSelect env levels).ShowNulls N A := by
  induction levels with
  | zero =>
    intro c _ scope _ select h
    cases h
  | succ levels ih =>
    intro c hc scope hscope select h
    obtain ⟨statement, hstatement, hselect⟩ := Correlated.toSelect_eq_ok.mp h
    have hs := hA c hc statement hstatement
    have houter : ∀ outer, some scope = some outer → outer.ShowsNulls N := by
      rintro _ ⟨⟩
      exact hscope
    rcases hselect with ⟨_, pairs, lifted, hpairs, rfl⟩ | ⟨_, lifted, hselect⟩
    · have hpairs := hs.toSelect ih houter hpairs
      have hvalue : (c.aggregate.toSql (.bareColumn "Value")).AllNodes Sql.Expr.NullSafe :=
        Aggregate.toSql_nullSafe (Sql.Expr.allNodes_nullSafe rfl rfl (by simp)) _
      refine Sql.Select.everywhere_comparesNoNull_iff.mpr ⟨List.forall_mem_singleton.mpr hpairs, ?_⟩
      exact List.forall_mem_cons.mpr ⟨hvalue, List.forall_mem_singleton.mpr
        (Sql.Expr.allNodes_nullSafe rfl rfl (by simp))⟩
    · exact hs.toSelect ih houter hselect

end Selections

/-! ## 4. Queries -/

namespace Query

/-- The bodies of the lambdas of a query, and of those of the queries of its aggregates. -/
def allBodies (schema : Schema) (q : Query) : List Expr :=
  q.bodies ++ (q.aggregates schema).flatMap fun c => c.query.bodies

/-- The nodes that are visited when the lambdas of a query and of its aggregates are read. -/
def visited (schema : Schema) (q : Query) : List Expr := (q.allBodies schema).flatMap Expr.visited

/-- **A member of a record that may be null**: it is built from null somewhere in the query, or from another
such member. -/
inductive NullMember (schema : Schema) (q : Query) : Ty × String → Prop
  | null {t : Ty} {members : List (String × Expr)} {m : String × Expr}
      (hnew : .new t members ∈ q.visited schema) (hm : m ∈ members) (hleaf : m.2.leaf? = some .null) :
      NullMember schema q (t, propertyName m.1)
  | member {t : Ty} {members : List (String × Expr)} {m : String × Expr} {token : ColumnToken}
      {owner : Ty} (hnew : .new t members ∈ q.visited schema) (hm : m ∈ members)
      (hleaf : m.2.leaf? = some (.column token)) (howner : token.owner? = some owner)
      (hnull : NullMember schema q (owner, token.member)) : NullMember schema q (t, propertyName m.1)

/-- **A query compares a member that may be null** with something else than null. -/
def ComparesNullMember (schema : Schema) (q : Query) : Prop :=
  ∃ op left right, .binary op left right ∈ q.visited schema ∧ (op = .equal ∨ op = .notEqual) ∧
    left.leaf? ≠ some .null ∧ right.leaf? ≠ some .null ∧
    ∃ token, (left.leaf? = some (.column token) ∨ right.leaf? = some (.column token)) ∧
      token.MayBeNull (q.NullMember schema)

end Query

section Reading

variable {schema : Schema} {N : Ty × String → Prop} {A : Correlated → Prop} {nodes : List Expr}

/-- **Nodes that compare no member that may be null** with something else than null, and whose aggregates
are those of `A`. -/
structure Expr.NodesShowNull (schema : Schema) (N : Ty × String → Prop) (A : Correlated → Prop)
    (nodes : List Expr) : Prop where
  compared : ∀ ⦃op left right⦄, .binary op left right ∈ nodes → (op = .equal ∨ op = .notEqual) →
    left.leaf? ≠ some .null → right.leaf? ≠ some .null → ∀ ⦃token⦄,
      (left.leaf? = some (.column token) ∨ right.leaf? = some (.column token)) → ¬token.MayBeNull N
  called : ∀ n ∈ nodes, ∀ c, n.called? schema = some c → A c

/-- A scalar that is not null itself may be null only as a column. -/
theorem Scalar.not_mayBeNull {x : Scalar} (hnull : x.isNull = false)
    (h : ∀ token, x.leaf? = some (.column token) → ¬token.MayBeNull N) : ¬x.MayBeNull N := by
  cases x with
  | null => cases hnull
  | column token => exact h token rfl
  | _ => exact id

/-- What is read from such nodes compares null only as such. -/
theorem Expr.ReadTo.showsNulls (hnodes : Expr.NodesShowNull schema N A nodes) {e : Expr} {s : Scalar}
    (h : e.ReadTo schema s) (he : e.visited ⊆ nodes) : s.ShowsNulls N A := by
  have hchild : ∀ {e c : Expr}, e.visited ⊆ nodes → e.isReadWhole = false → c ∈ e.children →
      c.visited ⊆ nodes :=
    fun he hwhole hc => List.Subset.trans (Expr.visited_child hwhole hc) he
  have hleaf : ∀ {x : Scalar}, x.ShowsNull N A → x.operands = [] → x.ShowsNulls N A := by
    intro x own hnone
    refine .intro own ?_
    simp [hnone]
  induction h with
  | @binary op left right l r hl hr ihl ihr =>
    have hleft := ihl (hchild he rfl (by simp [Expr.children]))
    have hright := ihr (hchild he rfl (by simp [Expr.children]))
    refine .intro (fun hop hlNull hrNull => ?_) (by simpa [Scalar.operands] using ⟨hleft, hright⟩)
    have hcompared := hnodes.compared (he (Expr.mem_visited_self _)) hop
    rw [hl.leaf?_eq, hr.leaf?_eq] at hcompared
    have hnot : ∀ {x : Scalar}, x.isNull = false → x.leaf? ≠ some .null := by
      intro x hx hnull
      rw [Scalar.eq_of_leaf? hnull] at hx
      cases hx
    have htoken := hcompared (hnot hlNull) (hnot hrNull)
    exact ⟨Scalar.not_mayBeNull hlNull fun token htok => htoken (Or.inl htok),
      Scalar.not_mayBeNull hrNull fun token htok => htoken (Or.inr htok)⟩
  | not _ ih | negate _ ih =>
    have hoperand := ih (hchild he rfl (by simp [Expr.children]))
    exact .intro trivial (by simpa [Scalar.operands] using hoperand)
  | convert target _ ih => exact ih (hchild he rfl (by simp [Expr.children]))
  | value t hnull => exact hleaf hnull rfl
  | column | inner | null | object | row | record => exact hleaf trivial rfl
  | like w t _ _ ihs ihp =>
    have hs := ihs (hchild he rfl (by simp [Expr.children]))
    have hp := ihp (hchild he rfl (by simp [Expr.children]))
    exact .intro trivial (by simpa [Scalar.operands] using ⟨hs, hp⟩)
  | substring t _ _ _ ihs iha ihb =>
    have hs := ihs (hchild he rfl (by simp [Expr.children]))
    have ha := iha (hchild he rfl (by simp [Expr.children]))
    have hb := ihb (hchild he rfl (by simp [Expr.children]))
    exact .intro trivial (by simpa [Scalar.operands] using ⟨hs, ha, hb⟩)
  | changeCase f t _ ihs =>
    have hs := ihs (hchild he rfl (by simp [Expr.children]))
    exact .intro trivial (by simpa [Scalar.operands] using hs)
  | aggregate hcall => exact hleaf (hnodes.called _ (he (Expr.mem_visited_self _)) _ hcall) rfl
  | ifTrue _ _ _ _ ih => exact ih (hchild he rfl (by simp [Expr.children]))
  | ifFalse _ _ _ _ ih => exact ih (hchild he rfl (by simp [Expr.children]))
  | case _ _ _ _ iht ihx ihy =>
    have ht := iht (hchild he rfl (by simp [Expr.children]))
    have hx := ihx (hchild he rfl (by simp [Expr.children]))
    have hy := ihy (hchild he rfl (by simp [Expr.children]))
    exact .intro trivial (by simpa [Scalar.operands] using ⟨ht, hx, hy⟩)

end Reading

namespace Query

variable {env : Env} {q : Query}

/-- The bodies of an aggregate's query are among all bodies. -/
theorem bodies_subset_allBodies {schema : Schema} {c : Correlated} (hc : c ∈ q.aggregates schema) :
    c.query.bodies ⊆ q.allBodies schema :=
  fun _ hbody => List.mem_append_right _ (List.mem_flatMap.mpr ⟨c, hc, hbody⟩)

/-- No lambda of a query or of its aggregates has an aggregate that the query has not. -/
theorem aggregates_subset_of_allBodies {schema : Schema} {body : Expr}
    (hbody : body ∈ q.allBodies schema) : body.aggregates schema ⊆ q.aggregates schema := by
  have hown : ∀ {r : Query}, body ∈ r.bodies → body.aggregates schema ⊆ r.aggregates schema :=
    fun hbody _ hc => List.mem_flatMap.mpr ⟨body, hbody, hc⟩
  rcases List.mem_append.mp hbody with hbody | hbody
  · exact hown hbody
  · obtain ⟨c, hc, hbody⟩ := List.mem_flatMap.mp hbody
    exact List.Subset.trans (hown hbody) (aggregates_query_subset hc)

theorem visited_subset {schema : Schema} {body : Expr} (hbody : body ∈ q.allBodies schema) :
    body.visited ⊆ q.visited schema :=
  fun _ hn => List.mem_flatMap.mpr ⟨body, hbody, hn⟩

/-- The nodes of a query that compares no member that may be null. -/
theorem nodesShowNull {schema : Schema} (hq : ¬q.ComparesNullMember schema) :
    Expr.NodesShowNull schema (q.NullMember schema) (· ∈ q.aggregates schema) (q.visited schema) where
  compared op left right hnode hop hleft hright token htoken hmay :=
    hq ⟨op, left, right, hnode, hop, hleft, hright, token, htoken, hmay⟩
  called n hn c hc := by
    obtain ⟨body, hbody, hn⟩ := List.mem_flatMap.mp hn
    refine aggregates_subset_of_allBodies hbody (Expr.aggregates_visited_subset hn ?_)
    rw [Expr.aggregates_eq, hc]
    exact List.mem_cons_self

/-- **What a lambda is read to** compares null only as such, and records no null but for members that may
be null. -/
theorem read_showsNulls (hq : ¬q.ComparesNullMember env.schema) {l : Lambda}
    (hl : l.body ∈ q.allBodies env.schema) {arity : Nat} {p : Projection}
    (h : (l.read env arity).outcome = .ok p) :
    (∀ x ∈ p.scalars, x.ShowsNulls (q.NullMember env.schema) (· ∈ q.aggregates env.schema)) ∧
      ∀ a ∈ p.aliases, a.2.MayBeNull (q.NullMember env.schema) → q.NullMember env.schema a.1 := by
  have hvisited : l.body.visited ⊆ q.visited env.schema := visited_subset hl
  constructor
  · exact Lambda.forall_scalars_of_read h fun n hn _ hx =>
      hx.showsNulls (nodesShowNull hq) (List.Subset.trans (Expr.visited_subset hn) hvisited)
  · rintro ⟨key, x⟩ ha hmay
    obtain ⟨t, members, hnew, m, hm, rfl, hx⟩ := (Lambda.stemsFrom_of_read h).2.aliases _ ha
    cases x with
    | null => exact .null (hvisited hnew) hm hx.leaf?_eq
    | column token =>
      obtain ⟨owner, howner, hnull⟩ := hmay
      exact .member (hvisited hnew) hm hx.leaf?_eq howner hnull
    | _ => exact hmay.elim

/-- **The statement of a query, or of one of its aggregates,** compares null only as such. -/
theorem statement_showsNulls (hq : ¬q.ComparesNullMember env.schema) {r : Query}
    (hr : r.bodies ⊆ q.allBodies env.schema) {s : Statement}
    (h : (r.toStatement env).outcome = .ok s) :
    s.ShowsNulls (q.NullMember env.schema) (· ∈ q.aggregates env.schema) := by
  have hread : ∀ l ∈ r.lambdas, l.body ∈ q.allBodies env.schema := by
    intro l hl
    refine hr ?_
    rw [bodies_eq_map_lambdas]
    exact List.mem_map_of_mem hl
  refine ⟨forall_scalars_of_toStatement h fun l hl _ _ hp => (read_showsNulls hq (hread l hl) hp).1, ?_⟩
  exact (toStatement_eq_ok.mp h).forall_aliases
    (fun l hl _ _ hp => (read_showsNulls hq (hread l hl) hp).2) (by rintro _ ⟨⟩)

/-- **Nothing is compared with `NULL`** anywhere in the selection of a query that compares no member that
may be null. -/
theorem toSelect_comparesNoNull (hq : ¬q.ComparesNullMember env.schema) {select : Sql.Select}
    (h : (q.toSelect env).outcome = .ok select) : select.Everywhere Sql.Select.ComparesNoNull := by
  obtain ⟨statement, lifted, hstatement, hselect⟩ := toSelect_eq_ok.mp h
  have hs := statement_showsNulls hq (List.subset_append_left _ _) hstatement
  have hsub : (Correlated.toSelect env q.aggregateDepth).ShowNulls _ _ :=
    Correlated.toSelect_showNulls
      (fun c hc _ h => statement_showsNulls hq (bodies_subset_allBodies hc) h) _
  exact hs.toSelect hsub (by rintro _ ⟨⟩) hselect

/-- Nor is it in the plan of a query, if the query compares no such member once it is evaluated. -/
theorem compile_comparesNoNull {evaluated : Query} (hevaluate : q.evaluate = .ok evaluated)
    (hq : ¬evaluated.ComparesNullMember env.schema) {plan : Plan} (h : q.compile env = .ok plan) :
    plan.select.Everywhere Sql.Select.ComparesNoNull := by
  obtain ⟨evaluated', hevaluate', h⟩ := Except.bind_eq_ok.mp h
  cases hevaluate.symm.trans hevaluate'
  obtain ⟨select, hselect, h⟩ := Except.bind_eq_ok.mp h
  cases h
  exact toSelect_comparesNoNull hq hselect

end Query

namespace Shop

/-- The name of a customer, tagged with null. -/
def nullTagged (c : Parameter) : Expr :=
  .record "Tagged" [("Name", field c "Name"), ("Tag", .nullOf (.scalar .string))]

/-- The names of the customers of orders, tagged with null, that satisfy a predicate on name and tag. -/
def nullTaggedWhere (predicate : Expr → Expr → Expr) : Query :=
  let c : Parameter := ⟨"c", .row "Customer"⟩
  let o : Parameter := ⟨"o", .row "Order"⟩
  let r : Parameter := ⟨"r", (nullTagged c).type⟩
  .filter
    (.join (.table "Customer") (.table "Order") ⟨[c], field c "Id"⟩ ⟨[o], field o "CustomerId"⟩
      ⟨[c, o], nullTagged c⟩)
    ⟨[r], predicate (r.member "Name" (.scalar .string)) (r.member "Tag" (.scalar .string))⟩

/-- The tagged name is that of Ada, and there is no tag. -/
def untaggedAda : Query :=
  nullTaggedWhere fun name tag =>
    .binary .and (.binary .equal name (.ofLiteral (.string "Ada")))
      (.binary .equal tag (.nullOf (.scalar .string)))

/-- The nodes of the filter, of the keys of the join and of the record, each from its root. -/
theorem visited_untaggedAda :
    let c : Parameter := ⟨"c", .row "Customer"⟩
    let r : Parameter := ⟨"r", (nullTagged c).type⟩
    let name : Expr := r.member "Name" (.scalar .string)
    let tag : Expr := r.member "Tag" (.scalar .string)
    let ada : Expr := .ofLiteral (.string "Ada")
    let null : Expr := .nullOf (.scalar .string)
    untaggedAda.visited schema
      = [.binary .and (.binary .equal name ada) (.binary .equal tag null), .binary .equal name ada, name,
        ada, .binary .equal tag null, tag, null, field c "Id", field ⟨"o", .row "Order"⟩ "CustomerId",
        nullTagged c, field c "Name", null] := rfl

/-- Only the tag may be null. -/
theorem eq_tag_of_nullMember {key : Ty × String} (h : untaggedAda.NullMember schema key) :
    key.2 = "Tag" := by
  have hnew : ∀ {t : Ty} {members : List (String × Expr)}, .new t members ∈ untaggedAda.visited schema →
      members = [("Name", field ⟨"c", .row "Customer"⟩ "Name"), ("Tag", .nullOf (.scalar .string))] := by
    intro t members hn
    rw [visited_untaggedAda] at hn
    simp only [nullTagged, field, Expr.record, Expr.nullOf, Expr.ofLiteral, Parameter.member,
      List.mem_cons, List.not_mem_nil, Expr.new.injEq, reduceCtorEq, false_or, or_false] at hn
    exact hn.2
  induction h with
  | null hn hm hleaf =>
    cases hnew hn
    rcases List.mem_pair.mp hm with rfl | rfl
    · cases hleaf
    · dsimp only
      decide
  | member hn hm hleaf _ _ ih =>
    cases hnew hn
    rcases List.mem_pair.mp hm with rfl | rfl
    · cases hleaf
      exact absurd ih (by simp)
    · cases hleaf

theorem not_comparesNullMember_untaggedAda : ¬untaggedAda.ComparesNullMember schema := by
  rintro ⟨op, left, right, hn, hop, _, hright, token, htoken, owner, _, hmay⟩
  rw [visited_untaggedAda] at hn
  simp only [nullTagged, field, Expr.record, Expr.nullOf, Expr.ofLiteral, Parameter.member,
    List.mem_cons, List.not_mem_nil, Expr.binary.injEq, reduceCtorEq, false_or, or_false] at hn
  rcases hn with ⟨rfl, _⟩ | ⟨_, rfl, rfl⟩ | ⟨_, rfl, rfl⟩
  · simp at hop
  · rcases htoken with htoken | htoken
    · cases htoken
      exact absurd (eq_tag_of_nullMember hmay) (by simp)
    · cases htoken
  · exact hright rfl

end Shop

/-- The tag is compared with null, and the name with a text. -/
theorem Query.compile_untaggedAda :
    let env : Env := ⟨Shop.schema, {}⟩
    Shop.untaggedAda.evaluate = .ok Shop.untaggedAda ∧
      ¬Shop.untaggedAda.ComparesNullMember env.schema ∧
      ∃ plan, Shop.untaggedAda.compile env = .ok plan ∧
        plan.select.Everywhere Sql.Select.ComparesNoNull ∧
        plan.select.filter =
          .and (.op (.tableColumn "Customer" "Name") "=" (.param (.string "Ada"))) (.isNull .null) := by
  intro env
  have hq : ¬Shop.untaggedAda.ComparesNullMember env.schema := Shop.not_comparesNullMember_untaggedAda
  obtain ⟨plan, hplan, hfilter⟩ : ∃ plan, Shop.untaggedAda.compile env = .ok plan ∧
      plan.select.filter =
        .and (.op (.tableColumn "Customer" "Name") "=" (.param (.string "Ada"))) (.isNull .null) :=
    ⟨_, rfl, rfl⟩
  exact ⟨rfl, hq, plan, hplan, Query.compile_comparesNoNull rfl hq hplan, hfilter⟩

/-- **A member that may be null is compared with a column**, and so is `NULL`. -/
theorem Query.compile_tagIsName :
    let env : Env := ⟨Shop.schema, {}⟩
    let q := Shop.nullTaggedWhere fun name tag => .binary .equal tag name
    ∃ plan, q.compile env = .ok plan ∧
      plan.select.filter = .op .null "=" (.tableColumn "Customer" "Name") ∧
      ¬plan.select.Everywhere Sql.Select.ComparesNoNull := by
  intro env q
  obtain ⟨plan, hplan, hfilter⟩ : ∃ plan, q.compile env = .ok plan ∧
      plan.select.filter = .op .null "=" (.tableColumn "Customer" "Name") := ⟨_, rfl, rfl⟩
  refine ⟨plan, hplan, hfilter, fun h => ?_⟩
  have hmem : plan.select.filter ∈ plan.select.exprs := List.mem_append_right _ List.mem_cons_self
  have hsafe : ¬plan.select.filter.ComparesNull :=
    ((Sql.Select.everywhere_iff.mp h).1 _ hmem).self
  rw [hfilter] at hsafe
  exact hsafe ⟨_, _, _, rfl, Or.inl rfl, Or.inl rfl⟩

end ChainQuery
