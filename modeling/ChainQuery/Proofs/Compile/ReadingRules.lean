import ChainQuery.Proofs.Compile.Aggregates
import ChainQuery.Proofs.Compile.Parts
import ChainQuery.Proofs.Compile.Recording
/-!
# The rules of reading

Reading visits an expression from its root (`Expr.visited`), passes conversions over, takes one branch of
a conditional whose test is a truth value, and keeps everything else as a scalar of its own kind.
`Expr.ReadTo` has these rules, one for each way in which a node is read, and nothing of what is recorded on
the way.

`Lambda.stemsFrom_of_read` says where the scalars of a lambda come from: its body is read to the first of
them, and every column, every aggregate and every member of a record that was recorded is what a visited
node or the member of one is read to.
-/

namespace ChainQuery

namespace Expr

/-! ## 1. Visited nodes -/

/-- **The nodes that are visited when an expression is read.**  A member is read without its object, and
an aggregate without its arguments, which have a query of their own. -/
def visited (e : Expr) : List Expr :=
  e.fold fun node below => node :: if node.isReadWhole then [] else below.flatten

theorem visited_eq (e : Expr) :
    e.visited = e :: if e.isReadWhole then [] else e.children.flatMap visited := by
  rw [visited, fold_eq, List.flatMap_def]
  rfl

theorem mem_visited_self (e : Expr) : e ∈ e.visited := by
  rw [visited_eq]
  exact List.mem_cons_self

theorem visited_child {e c : Expr} (h : e.isReadWhole = false) (hc : c ∈ e.children) :
    c.visited ⊆ e.visited := by
  rw [visited_eq e, h]
  exact fun n hn => List.mem_cons_of_mem _ (List.mem_flatMap.mpr ⟨c, hc, hn⟩)

/-- A visited node is the root, or visited below it. -/
theorem mem_visited_cases {e n : Expr} (h : n ∈ e.visited) :
    n = e ∨ ∃ c ∈ e.children, n ∈ c.visited := by
  rw [visited_eq] at h
  rcases List.mem_cons.mp h with hn | h
  · exact Or.inl hn
  · split at h
    · cases h
    · exact Or.inr (List.mem_flatMap.mp h)

/-- What is visited below a visited node is visited. -/
theorem visited_subset {e n : Expr} (hn : n ∈ e.visited) : n.visited ⊆ e.visited := by
  induction e using children_induction with
  | node e ih =>
    rw [visited_eq e] at hn
    rcases List.mem_cons.mp hn with rfl | hn
    · exact List.Subset.refl _
    · split at hn
      · cases hn
      · rename_i hwhole
        obtain ⟨c, hc, hn⟩ := List.mem_flatMap.mp hn
        exact List.Subset.trans (ih c hc hn) (visited_child (Bool.eq_false_iff.mpr hwhole) hc)

/-- The members of a visited record are visited. -/
theorem mem_visited_member {e : Expr} {t : Ty} {members : List (String × Expr)} {m : String × Expr}
    (hnew : .new t members ∈ e.visited) (hm : m ∈ members) : m.2 ∈ e.visited :=
  visited_subset hnew (visited_child rfl (List.mem_map_of_mem hm) (mem_visited_self m.2))

/-- The aggregates of a visited node are among those of the expression. -/
theorem aggregates_visited_subset {schema : Schema} {e n : Expr} (hn : n ∈ e.visited) :
    n.aggregates schema ⊆ e.aggregates schema := by
  induction e using children_induction with
  | node e ih =>
    rcases mem_visited_cases hn with rfl | ⟨c, hc, hn⟩
    · exact List.Subset.refl _
    · exact List.Subset.trans (ih c hc hn) (aggregates_subset hc)

/-! ## 2. The rules -/

/-- **What an expression is read to.** -/
inductive ReadTo (schema : Schema) : Expr → Scalar → Prop
  | binary (op : BinaryOp) {left right : Expr} {l r : Scalar} (hl : ReadTo schema left l)
      (hr : ReadTo schema right r) : ReadTo schema (.binary op left right) (.binary op l r)
  | not {operand : Expr} {s : Scalar} (h : ReadTo schema operand s) :
      ReadTo schema (.unary .not operand) (.not s)
  | negate {operand : Expr} {s : Scalar} (h : ReadTo schema operand s) :
      ReadTo schema (.unary .negate operand) (.negate s)
  | convert (target : Ty) {operand : Expr} {s : Scalar} (h : ReadTo schema operand s) :
      ReadTo schema (.unary (.convert target) operand) s
  | column {object : Expr} {path : List Ty} (name : String) {t : Ty} (ht : t.isScalar = true)
      (hpath : object.memberPath? = some path) :
      ReadTo schema (.member object name t) (.column ⟨path, name⟩)
  | inner (object : Expr) (name : String) {t : Ty} (ht : t.isScalar = false) (text : String) :
      ReadTo schema (.member object name t) (.composite text)
  | null (t : Ty) : ReadTo schema (.constant .null t) .null
  | object (members : List (String × Literal)) (t : Ty) (text : String) :
      ReadTo schema (.constant (.object members) t) (.composite text)
  | value {v : Literal} (t : Ty) (hnull : v ≠ .null) (hobject : ∀ members, v ≠ .object members)
      (hlist : ∀ items, v ≠ .list items) : ReadTo schema (.constant v t) (.value v)
  | row (name : String) (t : Ty) (text : String) : ReadTo schema (.parameter name t) (.composite text)
  | record (t : Ty) (members : List (String × Expr)) (text : String) :
      ReadTo schema (.new t members) (.composite text)
  | like {m : StringMethod} (w : Sql.Wildcards) {receiver pattern : Expr} {s p : Scalar} (t : Ty)
      (hs : ReadTo schema receiver s) (hp : ReadTo schema pattern p) :
      ReadTo schema (.call (.string m) (some receiver) [pattern] t) (.like s p w)
  | substring {receiver start length : Expr} {s a b : Scalar} (t : Ty)
      (hs : ReadTo schema receiver s) (ha : ReadTo schema start a) (hb : ReadTo schema length b) :
      ReadTo schema (.call (.string .substring) (some receiver) [start, length] t)
        (.function .substring [s, a, b])
  | changeCase {m : StringMethod} (f : Sql.Function) {receiver : Expr} {s : Scalar} (t : Ty)
      (hs : ReadTo schema receiver s) :
      ReadTo schema (.call (.string m) (some receiver) [] t) (.function f [s])
  | aggregate {e : Expr} {c : Correlated} (h : e.called? schema = some c) :
      ReadTo schema e (.subquery c)
  | ifTrue {test ifTrue : Expr} (ifFalse : Expr) {s : Scalar}
      (ht : ReadTo schema test (.value (.bool true))) (h : ReadTo schema ifTrue s) :
      ReadTo schema (.conditional test ifTrue ifFalse) s
  | ifFalse {test ifFalse : Expr} (ifTrue : Expr) {s : Scalar}
      (ht : ReadTo schema test (.value (.bool false))) (h : ReadTo schema ifFalse s) :
      ReadTo schema (.conditional test ifTrue ifFalse) s
  | case {test ifTrue ifFalse : Expr} {t x y : Scalar} (hopen : ∀ b, t ≠ .value (.bool b))
      (ht : ReadTo schema test t) (hx : ReadTo schema ifTrue x) (hy : ReadTo schema ifFalse y) :
      ReadTo schema (.conditional test ifTrue ifFalse) (.case t x y)

/-! ## 3. Leaves -/

/-- **The column or the constant that an expression is read to**, if it is read to one. -/
def leaf? : Expr → Option Scalar
  | .constant .null _ => some .null
  | .constant (.object _) _ => none
  | .constant value _ => some (.value value)
  | .member object name t =>
    if t.isScalar then object.memberPath?.map fun path => .column ⟨path, name⟩ else none
  | .unary (.convert _) operand => operand.leaf?
  | .conditional test ifTrue ifFalse =>
    match test.leaf? with
    | some (.value (.bool true)) => ifTrue.leaf?
    | some (.value (.bool false)) => ifFalse.leaf?
    | _ => none
  | _ => none

end Expr

/-- A scalar that is a column or a constant. -/
def Scalar.leaf? : Scalar → Option Scalar
  | .column token => some (.column token)
  | .value v => some (.value v)
  | .null => some .null
  | _ => none

/-- A leaf is the scalar itself. -/
theorem Scalar.eq_of_leaf? {x y : Scalar} (h : x.leaf? = some y) : x = y := by
  cases x with
  | column | value | null => exact Option.some.inj h
  | _ => cases h

/-- **An expression is read to its leaf**, or to no leaf if it has none. -/
theorem Expr.ReadTo.leaf?_eq {schema : Schema} {e : Expr} {s : Scalar} (h : e.ReadTo schema s) :
    e.leaf? = s.leaf? := by
  induction h with
  | convert target _ ih => exact ih
  | column name ht hpath => simp [Expr.leaf?, ht, hpath, Scalar.leaf?]
  | inner object name ht text => simp [Expr.leaf?, ht, Scalar.leaf?]
  | @value v t hnull hobject hlist =>
    cases v with
    | null => exact (hnull rfl).elim
    | object members => exact (hobject members rfl).elim
    | list items => exact (hlist items rfl).elim
    | bool | int | float | string => rfl
  | aggregate h =>
    obtain ⟨_, _, _, _, rfl, _⟩ := Expr.called?_eq_some.mp h
    rfl
  | ifTrue ifFalse _ _ iht ih => simp only [Expr.leaf?, iht, Scalar.leaf?, ih]
  | ifFalse ifTrue _ _ iht ih => simp only [Expr.leaf?, iht, Scalar.leaf?, ih]
  | case hopen _ _ _ iht =>
    simp only [Expr.leaf?, iht]
    split
    · rename_i htest
      exact (hopen true (Scalar.eq_of_leaf? htest)).elim
    · rename_i htest
      exact (hopen false (Scalar.eq_of_leaf? htest)).elim
    · rfl
  | binary | not | negate | null | object | row | record | like | substring | changeCase => rfl

/-! ## 4. Recording -/

/-- **A computation keeps an invariant of what is recorded**, and what it returns is as `P` says. -/
def ReadM.Yields {α : Type} (I : Reading → Prop) (P : α → Prop) (m : ReadM α) : Prop :=
  ∀ ⦃r r' : Reading⦄ ⦃a : α⦄, (m.run r).outcome = .ok (a, r') → I r → P a ∧ I r'

namespace ReadM.Yields

variable {α β : Type} {I : Reading → Prop} {P : α → Prop} {Q : β → Prop}

theorem pure {a : α} (ha : P a) : Yields I P (pure a) := by
  intro r r' b h hr
  cases h
  exact ⟨ha, hr⟩

theorem throw (e : Error) : Yields I P (throw e : ReadM α) := by
  intro r r' b h
  cases h

theorem lift {x : Traced α} (hx : ∀ a, x.outcome = .ok a → P a) : Yields I P (liftM x) := by
  intro r r' b h hr
  obtain ⟨a, ha, h⟩ := Traced.bind_eq_ok.mp h
  cases h
  exact ⟨hx b ha, hr⟩

theorem bind {m : ReadM α} {f : α → ReadM β} (hm : m.Yields I P) (hf : ∀ a, P a → (f a).Yields I Q) :
    (m >>= f).Yields I Q := by
  intro r r' b h hr
  obtain ⟨a, mid, ha, hb⟩ := ReadM.bind_eq_ok.mp h
  obtain ⟨hP, hmid⟩ := hm ha hr
  exact hf a hP hb hmid

theorem mono {P' : α → Prop} {m : ReadM α} (hm : m.Yields I P) (h : ∀ a, P a → P' a) :
    m.Yields I P' :=
  fun _ _ a hrun hr => (hm hrun hr).imp_left (h a)

end ReadM.Yields

/-- **What was recorded stems from given nodes**: a column or an aggregate is what one of them is read to,
and a member of a record what the member of one of them is read to. -/
structure Reading.StemsFrom (schema : Schema) (nodes : List Expr) (r : Reading) : Prop where
  columns : ∀ x ∈ r.columns, ∃ n ∈ nodes, n.ReadTo schema x
  aliases : ∀ a ∈ r.aliases, ∃ t members, .new t members ∈ nodes ∧
    ∃ m ∈ members, a.1 = (t, propertyName m.1) ∧ m.2.ReadTo schema a.2

namespace ReadM

variable {schema : Schema} {nodes : List Expr}

theorem record_stemsFrom {n : Expr} (hn : n ∈ nodes) {s : Scalar} (h : n.ReadTo schema s) :
    (ReadM.record s).Yields (Reading.StemsFrom schema nodes) fun _ => True := by
  intro r r' u hrun hr
  cases hrun
  refine ⟨trivial, ?_⟩
  dsimp only
  split
  · exact hr
  · exact ⟨List.forall_mem_append.mpr ⟨hr.columns, List.forall_mem_singleton.mpr ⟨n, hn, h⟩⟩,
      hr.aliases⟩

theorem recordMember_stemsFrom {t : Ty} {members : List (String × Expr)}
    (hnew : .new t members ∈ nodes) {m : String × Expr} (hm : m ∈ members) {s : Scalar}
    (h : m.2.ReadTo schema s) :
    (ReadM.recordMember t (propertyName m.1) s).Yields (Reading.StemsFrom schema nodes)
      fun _ => True := by
  intro r r' u hrun hr
  cases hrun
  refine ⟨trivial, hr.columns, fun a ha => ?_⟩
  rcases Assoc.mem_put ha with rfl | ha
  · exact ⟨t, members, hnew, m, hm, rfl, h⟩
  · exact hr.aliases a ha

end ReadM

namespace Expr

variable {env : Env} {nodes : List Expr}

/-- An expression is read by the rules, and everything that is recorded stems from given nodes. -/
def ReadsBy (env : Env) (nodes : List Expr) (e : Expr) : Prop :=
  (e.toScalar env).Yields (Reading.StemsFrom env.schema nodes) (e.ReadTo env.schema)

theorem member_readsBy {object : Expr} {name : String} {t : Ty}
    (hnode : member object name t ∈ nodes) : (member object name t).ReadsBy env nodes := by
  unfold ReadsBy
  rw [toScalar, readMember]
  split
  · exact .throw _
  · split
    · exact .throw _
    · rename_i path hpath
      refine (ReadM.Yields.lift fun _ _ => trivial).bind fun _ (_ : True) => ?_
      split
      · rename_i ht
        have hcolumn : (member object name t).ReadTo env.schema (.column ⟨path, name⟩) :=
          .column name ht hpath
        exact (ReadM.record_stemsFrom hnode hcolumn).bind fun _ _ => .pure hcolumn
      · rename_i ht
        exact .pure (.inner object name (Bool.eq_false_iff.mpr ht) _)

theorem readMembers_readsBy {t : Ty} {members members' : List (String × Expr)}
    (hnew : .new t members ∈ nodes) (hsubset : members' ⊆ members)
    (h : ∀ m ∈ members', m.2.ReadsBy env nodes) :
    (readMembers env t members').Yields (Reading.StemsFrom env.schema nodes) fun _ => True := by
  induction members' with
  | nil => exact .pure trivial
  | cons m rest ih =>
    obtain ⟨hm, hrest⟩ := List.cons_subset.mp hsubset
    obtain ⟨hread, hreadRest⟩ := List.forall_mem_cons.mp h
    rw [readMembers]
    exact ReadM.Yields.bind hread fun _ hs =>
      (ReadM.recordMember_stemsFrom hnew hm hs).bind fun _ _ => ih hrest hreadRest

theorem constant_readsBy (value : Literal) (t : Ty) : (constant value t).ReadsBy env nodes := by
  refine ReadM.Yields.lift fun s hs => ?_
  have hs : readConstant value t = .ok s := hs
  unfold readConstant at hs
  split at hs
  · cases hs
    exact .null t
  · split at hs
    · cases hs
      exact .object _ t _
    · cases hs
  · cases hs
  · rename_i hnull hobject hlist
    cases hs
    exact .value t hnull hobject hlist

theorem conditional_readsBy {test ifTrue ifFalse : Expr} (ht : test.ReadsBy env nodes)
    (ha : ifTrue.ReadsBy env nodes) (hb : ifFalse.ReadsBy env nodes) :
    (conditional test ifTrue ifFalse).ReadsBy env nodes := by
  unfold ReadsBy
  rw [toScalar]
  refine ReadM.Yields.bind ht fun s hs => ?_
  split
  · exact ReadM.Yields.mono ha fun _ h => .ifTrue ifFalse hs h
  · exact ReadM.Yields.mono hb fun _ h => .ifFalse ifTrue hs h
  · rename_i htrue hfalse
    have hopen : ∀ b, s ≠ .value (.bool b) := Bool.forall_bool.mpr ⟨hfalse, htrue⟩
    exact ReadM.Yields.bind ha fun _ ha => ReadM.Yields.bind hb fun _ hb =>
      .pure (.case hopen hs ha hb)

theorem string_readsBy {m : StringMethod} {receiver : Expr} {args : List Expr} {t : Ty}
    (hr : receiver.ReadsBy env nodes) (hargs : ∀ arg ∈ args, arg.ReadsBy env nodes) :
    (call (.string m) (some receiver) args t).ReadsBy env nodes := by
  unfold ReadsBy
  rw [toScalar]
  refine ReadM.Yields.bind hr fun s hs => ?_
  split
  · exact ReadM.Yields.bind (hargs _ List.mem_cons_self) fun _ hp => .pure (.like _ t hs hp)
  · exact ReadM.Yields.bind (hargs _ List.mem_cons_self) fun _ hp => .pure (.like _ t hs hp)
  · exact ReadM.Yields.bind (hargs _ List.mem_cons_self) fun _ hp => .pure (.like _ t hs hp)
  · exact ReadM.Yields.bind (hargs _ List.mem_cons_self) fun _ hstart =>
      ReadM.Yields.bind (hargs _ (List.mem_cons_of_mem _ List.mem_cons_self)) fun _ hlength =>
        .pure (.substring t hs hstart hlength)
  · exact .pure (.changeCase _ t hs)
  · exact .pure (.changeCase _ t hs)
  · exact .throw _

theorem aggregate_readsBy {a : Aggregate} {receiver : Option Expr} {args : List Expr} {t : Ty}
    (hnode : call (.aggregate a) receiver args t ∈ nodes) :
    (call (.aggregate a) receiver args t).ReadsBy env nodes := by
  have hcall : ∀ c, (Correlated.ofCall env.schema (call (.aggregate a) receiver args t).text a
      args).outcome = .ok c → (call (.aggregate a) receiver args t).ReadTo env.schema (.subquery c) :=
    fun c hc => .aggregate (called?_eq_some.mpr ⟨a, receiver, args, t, rfl, hc⟩)
  unfold ReadsBy
  rw [toScalar]
  exact (ReadM.Yields.lift hcall).bind fun c hc =>
    (ReadM.record_stemsFrom hnode hc).bind fun _ _ => .pure hc

/-- **An expression is read by the rules**, and what is recorded stems from the nodes that are visited. -/
theorem toScalar_readsBy (e : Expr) (h : e.visited ⊆ nodes) : e.ReadsBy env nodes := by
  induction e using children_induction with
  | node e ih =>
    have hnode : e ∈ nodes := h e.mem_visited_self
    have hchild : e.isReadWhole = false → ∀ c ∈ e.children, c.ReadsBy env nodes :=
      fun hwhole c hc => ih c hc (List.Subset.trans (visited_child hwhole hc) h)
    cases e with
    | binary op left right =>
      exact ReadM.Yields.bind (hchild rfl left (by simp [children])) fun _ hl =>
        ReadM.Yields.bind (hchild rfl right (by simp [children])) fun _ hr => .pure (.binary op hl hr)
    | unary op operand =>
      have ho := hchild rfl operand (by simp [children])
      cases op with
      | not => exact ReadM.Yields.bind ho fun _ ho => .pure (.not ho)
      | negate => exact ReadM.Yields.bind ho fun _ ho => .pure (.negate ho)
      | convert target =>
        unfold ReadsBy
        rw [toScalar]
        split
        · exact ReadM.Yields.mono ho fun _ ho => .convert target ho
        · exact .throw _
    | member object name t => exact member_readsBy hnode
    | constant value t => exact constant_readsBy value t
    | parameter name t => exact .pure (.row name t _)
    | new t members =>
      have hmembers := readMembers_readsBy hnode (List.Subset.refl members) fun m hm =>
        hchild rfl m.2 (List.mem_map_of_mem hm)
      exact (ReadM.Yields.lift fun _ _ => trivial).bind fun _ (_ : True) =>
        hmembers.bind fun _ _ => .pure (.record t members _)
    | call m receiver args t =>
      cases m with
      | string m =>
        cases receiver with
        | none => exact .throw _
        | some r =>
          exact string_readsBy (hchild rfl r (by simp [children]))
            fun arg harg => hchild rfl arg (by simp [children, harg])
      | aggregate a => exact aggregate_readsBy hnode
      | other declaringType name => exact .throw _
    | conditional test ifTrue ifFalse =>
      exact conditional_readsBy (hchild rfl test (by simp [children]))
        (hchild rfl ifTrue (by simp [children])) (hchild rfl ifFalse (by simp [children]))
    | lambda | typeIs | memberInit | listInit | newArray | invoke => exact .throw _

end Expr

/-- **Where the scalars of a lambda come from.** -/
theorem Lambda.stemsFrom_of_read {env : Env} {l : Lambda} {arity : Nat} {p : Projection}
    (h : (l.read env arity).outcome = .ok p) :
    l.body.ReadTo env.schema p.body ∧
      Reading.StemsFrom env.schema l.body.visited ⟨p.columns, p.aliases⟩ := by
  obtain ⟨_, _, body, reading, _, _, hbody, rfl⟩ := Lambda.read_eq_ok.mp h
  exact l.body.toScalar_readsBy (List.Subset.refl _) hbody ⟨by simp, by simp⟩

/-- **What holds of everything that visited nodes are read to holds of the scalars of a lambda.** -/
theorem Lambda.forall_scalars_of_read {env : Env} {l : Lambda} {arity : Nat} {p : Projection}
    {Q : Scalar → Prop} (h : (l.read env arity).outcome = .ok p)
    (hQ : ∀ n ∈ l.body.visited, ∀ ⦃x : Scalar⦄, n.ReadTo env.schema x → Q x) : ∀ x ∈ p.scalars, Q x := by
  obtain ⟨hbody, hcolumns, haliases⟩ := stemsFrom_of_read h
  refine List.forall_mem_append.mpr ⟨List.forall_mem_cons.mpr
    ⟨hQ _ (Expr.mem_visited_self _) hbody, fun x hx => ?_⟩, List.forall_mem_map.mpr fun a ha => ?_⟩
  · obtain ⟨n, hn, hx⟩ := hcolumns x hx
    exact hQ n hn hx
  · obtain ⟨t, members, hnew, m, hm, _, ha⟩ := haliases a ha
    exact hQ _ (Expr.mem_visited_member hnew hm) ha

end ChainQuery
