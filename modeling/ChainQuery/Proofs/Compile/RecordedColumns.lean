import Mathlib.Data.List.Induction
import ChainQuery.Proofs.Compile.Equality
import ChainQuery.Proofs.Compile.RecordMembers
import ChainQuery.Schema.Shop
/-!
# Which columns a lambda records

Reading a lambda visits its body from left to right and records the members and the aggregates that it
comes to (`Expr.recorded`), and of each conditional with a constant test the taken branch only.  Their
scalars make up a trace of the reading.  The columns of the lambda are the different ones of the trace, in
the order in which they first came (`Reading.Traces`, `Expr.toScalar_records`).

Since a scalar is only recorded if it equals none that was recorded before, this leans on equality.  Over
comparable literals no two columns are equal, and whatever column or aggregate stands in the body, or in a
member of a record that it builds, equals one of them (`Lambda.columns_of_read`).
-/

namespace ChainQuery

/-! ## 1. Lists without duplicates -/

section EraseDups

variable {α : Type}

theorem eraseDupsBy_loop_append (r : α → α → Bool) (xs ys found : List α) :
    List.eraseDupsBy.loop r (xs ++ ys) found
      = List.eraseDupsBy.loop r ys (List.eraseDupsBy.loop r xs found).reverse := by
  induction xs generalizing found with
  | nil => simp [List.eraseDupsBy.loop]
  | cons x xs ih =>
    rw [List.cons_append, List.eraseDupsBy.loop, List.eraseDupsBy.loop]
    split
    · exact ih _
    · exact ih _

variable [BEq α]

/-- **The last element is dropped iff it equals one before.** -/
theorem eraseDups_concat (xs : List α) (x : α) :
    (xs ++ [x]).eraseDups
      = if xs.eraseDups.contains x then xs.eraseDups else xs.eraseDups ++ [x] := by
  unfold List.eraseDups List.eraseDupsBy
  rw [eraseDupsBy_loop_append, List.eraseDupsBy.loop, List.contains_eq_any_beq, List.any_reverse]
  split
  · rename_i h
    simp [h, List.eraseDupsBy.loop]
  · rename_i h
    simp [h, List.eraseDupsBy.loop]

theorem eraseDups_subset (xs : List α) : xs.eraseDups ⊆ xs := by
  induction xs using List.reverseRecOn with
  | nil => exact List.Subset.refl _
  | append_singleton xs x ih =>
    rw [eraseDups_concat]
    split
    · exact List.subset_append_of_subset_left _ ih
    · exact List.append_subset.mpr
        ⟨List.subset_append_of_subset_left _ ih, List.subset_append_right _ _⟩

/-- No element that is left equals one before it. -/
theorem pairwise_eraseDups (xs : List α) : xs.eraseDups.Pairwise fun x y => (y == x) = false := by
  induction xs using List.reverseRecOn with
  | nil => exact List.Pairwise.nil
  | append_singleton xs y ih =>
    rw [eraseDups_concat]
    split
    · exact ih
    · rename_i hnew
      refine List.pairwise_append.mpr ⟨ih, List.pairwise_singleton _ _, fun x hx z hz => ?_⟩
      rw [List.mem_singleton.mp hz]
      exact Bool.eq_false_iff.mpr fun h => hnew (List.contains_iff_exists_mem_beq.mpr ⟨x, hx, h⟩)

/-- **What equals itself equals one of those that are left.** -/
theorem contains_eraseDups {xs : List α} {x : α} (hx : x ∈ xs) (hself : (x == x) = true) :
    xs.eraseDups.contains x = true := by
  induction xs using List.reverseRecOn with
  | nil => cases hx
  | append_singleton xs y ih =>
    rw [eraseDups_concat]
    split
    · rename_i hknown
      rcases List.mem_append.mp hx with hx | hx
      · exact ih hx
      · rwa [List.mem_singleton.mp hx]
    · refine List.contains_iff_exists_mem_beq.mpr ?_
      rcases List.mem_append.mp hx with hx | hx
      · obtain ⟨z, hz, hbeq⟩ := List.contains_iff_exists_mem_beq.mp (ih hx)
        exact ⟨z, List.mem_append_left _ hz, hbeq⟩
      · obtain rfl := List.mem_singleton.mp hx
        exact ⟨x, List.mem_append_right _ List.mem_cons_self, hself⟩

end EraseDups

/-! ## 2. What is recorded -/

/-- Whether a scalar is a column or an aggregate. -/
def Scalar.isRead : Scalar → Bool
  | .column _ | .subquery _ => true
  | _ => false

/-- The columns and the aggregates in a scalar. -/
def Scalar.readParts (x : Scalar) : List Scalar := x.parts.filter Scalar.isRead

theorem Scalar.readParts_eq (x : Scalar) :
    x.readParts = (if x.isRead then [x] else []) ++ x.operands.flatMap readParts := by
  unfold readParts
  rw [parts_eq, List.filter_cons, List.filter_flatMap]
  split <;> rfl

/-- What is no column or aggregate has those of its operands. -/
theorem Scalar.readParts_subset {x : Scalar} {known : List Scalar} (hx : x.isRead = false)
    (h : x.operands.flatMap readParts ⊆ known) : x.readParts ⊆ known := by
  rw [readParts_eq, hx]
  exact h

namespace Expr

variable {env : Env}

/-- What an expression is read to, if it can be read. -/
def scalar? (env : Env) (e : Expr) : Option Scalar :=
  match ((e.toScalar env).run {}).outcome with
  | .ok (s, _) => some s
  | .error _ => none

theorem scalar?_eq_some {e : Expr} {s : Scalar} : e.scalar? env = some s ↔ e.ReadsAs env s := by
  constructor
  · intro h
    unfold scalar? at h
    split at h
    · rename_i hrun
      cases h
      exact ⟨{}, _, hrun⟩
    · cases h
  · intro h
    obtain ⟨r, hrun⟩ := h.run {}
    rw [scalar?, hrun]

/-- **The members and the aggregates that are recorded when an expression is read**, from left to right.
A member is recorded without its object, and an aggregate without its arguments; of a conditional with a
constant test only the test and the taken branch are read. -/
def recorded (env : Env) (e : Expr) : List Expr :=
  e.fold fun node below =>
    match node with
    | .member _ _ t => if t.isScalar then [node] else []
    | .call (.aggregate _) _ _ _ => [node]
    | .conditional test _ _ =>
      match test.scalar? env, below with
      | some (.value (.bool true)), [test, ifTrue, _] => test ++ ifTrue
      | some (.value (.bool false)), [test, _, ifFalse] => test ++ ifFalse
      | _, below => below.flatten
    | _ => below.flatten

theorem recorded_eq_flatMap {e : Expr} (h : e.isReadWhole = false)
    (hconditional : ∀ a b c, e ≠ .conditional a b c) :
    e.recorded env = e.children.flatMap (recorded env) := by
  rw [recorded, fold_eq, List.flatMap_def]
  cases e with
  | member => cases h
  | conditional a b c => exact absurd rfl (hconditional a b c)
  | call m receiver args t =>
    cases m with
    | aggregate a => cases h
    | string | other => rfl
  | _ => rfl

theorem recorded_member (object : Expr) (name : String) (t : Ty) :
    (member object name t).recorded env = if t.isScalar then [member object name t] else [] := by
  rw [recorded, fold_eq]

theorem recorded_aggregate (a : Aggregate) (receiver : Option Expr) (args : List Expr) (t : Ty) :
    (call (.aggregate a) receiver args t).recorded env = [call (.aggregate a) receiver args t] := by
  rw [recorded, fold_eq]

theorem recorded_conditional (test ifTrue ifFalse : Expr) :
    (conditional test ifTrue ifFalse).recorded env = test.recorded env ++
      match test.scalar? env with
      | some (.value (.bool true)) => ifTrue.recorded env
      | some (.value (.bool false)) => ifFalse.recorded env
      | _ => ifTrue.recorded env ++ ifFalse.recorded env := by
  rw [recorded, fold_eq]
  simp only [children, List.map_cons, List.map_nil]
  split
  · rename_i htest hbelow
    rw [htest]
    cases hbelow
    rfl
  · rename_i htest hbelow
    rw [htest]
    cases hbelow
    rfl
  · rename_i htrue hfalse
    split
    · rename_i htest
      exact (htrue _ _ _ htest rfl).elim
    · rename_i htest
      exact (hfalse _ _ _ htest rfl).elim
    · simp only [List.flatten_cons, List.flatten_nil, List.append_nil]
      rfl

end Expr

/-- **What was recorded in the course of a trace**: the columns are the different scalars of the trace, in
the order in which they came first, and no member of a record has columns or aggregates from elsewhere. -/
structure Reading.Traces (trace : List Scalar) (r : Reading) : Prop where
  columns : r.columns = trace.eraseDups
  aliases : ∀ a ∈ r.aliases, a.2.readParts ⊆ trace

/-- **A computation records the scalars of given nodes**, one after another.  What it returns has no columns
or aggregates but those, and those that were known before. -/
def ReadM.Records {α : Type} (env : Env) (known : List Scalar) (nodes : List Expr)
    (reads : α → List Scalar) (m : ReadM α) : Prop :=
  ∀ ⦃r r' : Reading⦄ ⦃a : α⦄ ⦃trace : List Scalar⦄, (m.run r).outcome = .ok (a, r') →
    r.Traces trace → known ⊆ trace →
      ∃ next, List.Forall₂ (fun n s => n.scalar? env = some s) nodes next ∧
        r'.Traces (trace ++ next) ∧ reads a ⊆ trace ++ next

namespace ReadM.Records

variable {α β : Type} {env : Env} {known : List Scalar} {nodes nodes' : List Expr}
  {reads : α → List Scalar} {reads' : β → List Scalar}

theorem pure {a : α} (h : reads a ⊆ known) : Records env known [] reads (pure a) := by
  intro r r' b trace hrun htrace hknown
  cases hrun
  refine ⟨[], .nil, ?_, ?_⟩
  · rwa [List.append_nil]
  · rw [List.append_nil]
    exact List.Subset.trans h hknown

/-- What is built from known operands, and is no column or aggregate itself, records nothing. -/
theorem operation {x : Scalar} (hx : x.isRead = false)
    (h : x.operands.flatMap Scalar.readParts ⊆ known) :
    Records env known [] Scalar.readParts (Pure.pure x) :=
  pure (Scalar.readParts_subset hx h)

theorem throw (e : Error) : Records env known nodes reads (throw e : ReadM α) := by
  intro r r' a trace hrun
  cases hrun

theorem lift {x : Traced α} (h : ∀ a, x.outcome = .ok a → reads a ⊆ known) :
    Records env known [] reads (liftM x) := by
  intro r r' a trace hrun htrace hknown
  obtain ⟨a', ha', hrun⟩ := Traced.bind_eq_ok.mp hrun
  cases hrun
  refine ⟨[], .nil, ?_, ?_⟩
  · rwa [List.append_nil]
  · rw [List.append_nil]
    exact List.Subset.trans (h _ ha') hknown

/-- **What two computations record, their sequence records.**  The second one only matters for what the
first can return. -/
theorem bind {m : ReadM α} {f : α → ReadM β} (hm : m.Records env known nodes reads)
    (hf : ∀ a, (∃ r r', (m.run r).outcome = .ok (a, r')) →
      (f a).Records env (known ++ reads a) nodes' reads') :
    (m >>= f).Records env known (nodes ++ nodes') reads' := by
  intro r r' b trace hrun htrace hknown
  obtain ⟨a, mid, ha, hb⟩ := ReadM.bind_eq_ok.mp hrun
  obtain ⟨next, hnext, hmid, hreads⟩ := hm ha htrace hknown
  have hknown' : known ++ reads a ⊆ trace ++ next :=
    List.append_subset.mpr ⟨List.subset_append_of_subset_left _ hknown, hreads⟩
  obtain ⟨next', hnext', hr', hreads'⟩ := hf a ⟨r, mid, ha⟩ hb hmid hknown'
  rw [List.append_assoc] at hr' hreads'
  exact ⟨next ++ next', List.rel_append hnext hnext', hr', hreads'⟩

/-- What the schema is asked for records nothing. -/
theorem lift_bind {x : Traced α} {f : α → ReadM β}
    (hf : ∀ a, x.outcome = .ok a → (f a).Records env known nodes reads') :
    ((liftM x : ReadM α) >>= f).Records env known nodes reads' := by
  intro r r' b trace hrun
  obtain ⟨a, mid, ha, hb⟩ := ReadM.bind_eq_ok.mp hrun
  obtain ⟨a', ha', hpair⟩ := Traced.bind_eq_ok.mp ha
  cases hpair
  exact hf a ha' hb

end ReadM.Records

namespace ReadM

variable {env : Env} {known : List Scalar}

/-- **Recording the scalar of a node records the node.** -/
theorem record_records {n : Expr} {s : Scalar} (h : n.scalar? env = some s) :
    (ReadM.record s).Records env known [n] fun _ => [s] := by
  intro r r' u trace hrun htrace hknown
  cases hrun
  refine ⟨[s], .cons h .nil, ?_, List.subset_append_right _ _⟩
  have haliases : ∀ a ∈ r.aliases, a.2.readParts ⊆ trace ++ [s] :=
    fun a ha => List.subset_append_of_subset_left _ (htrace.aliases a ha)
  dsimp only
  split
  · rename_i hknown
    refine ⟨?_, haliases⟩
    rw [htrace.columns] at hknown ⊢
    rw [eraseDups_concat, if_pos hknown]
  · rename_i hnew
    refine ⟨?_, haliases⟩
    rw [htrace.columns] at hnew
    dsimp only
    rw [htrace.columns, eraseDups_concat, if_neg hnew]

theorem recordMember_records {owner : Ty} {member : String} {s : Scalar} (h : s.readParts ⊆ known) :
    (ReadM.recordMember owner member s).Records env known [] fun _ => [] := by
  intro r r' u trace hrun htrace hknown
  cases hrun
  refine ⟨[], .nil, ?_, List.nil_subset _⟩
  rw [List.append_nil]
  refine ⟨htrace.columns, fun a ha => ?_⟩
  rcases Assoc.mem_put ha with rfl | ha
  · exact List.Subset.trans h hknown
  · exact htrace.aliases a ha

end ReadM

/-! ## 3. Expressions -/

namespace Expr

variable {env : Env}

/-- **Reading an expression records its recorded nodes**, and what it is read to has no columns or aggregates
but theirs. -/
def Records (env : Env) (e : Expr) : Prop :=
  ∀ known, (e.toScalar env).Records env known (e.recorded env) Scalar.readParts

theorem member_records (object : Expr) (name : String) (t : Ty) : (member object name t).Records env := by
  intro known
  rw [recorded_member]
  by_cases hobject : object.type.isScalar = true
  · rw [toScalar, readMember, if_pos hobject]
    exact .throw _
  · cases hpath : object.memberPath? with
    | none =>
      rw [toScalar, readMember, if_neg hobject, hpath]
      exact .throw _
    | some path =>
      by_cases ht : t.isScalar = true
      · have hcolumn : (member object name t).scalar? env = some (.column ⟨path, name⟩) := by
          rw [scalar?, toScalar, readMember, if_neg hobject, hpath]
          simp only [if_pos ht]
          rfl
        rw [toScalar, readMember, if_neg hobject, hpath]
        simp only [if_pos ht]
        refine ReadM.Records.lift_bind fun _ _ => ?_
        exact (ReadM.record_records hcolumn).bind fun _ _ => .pure (List.subset_append_right _ _)
      · rw [toScalar, readMember, if_neg hobject, hpath]
        simp only [if_neg ht]
        exact .lift_bind fun _ _ => .pure (List.nil_subset _)

theorem constant_records (value : Literal) (t : Ty) : (constant value t).Records env := by
  refine fun known => ReadM.Records.lift fun s hs => ?_
  have hs : readConstant value t = .ok s := hs
  unfold readConstant at hs
  split at hs
  · cases hs
    exact List.nil_subset _
  · split at hs
    · cases hs
      exact List.nil_subset _
    · cases hs
  · cases hs
  · cases hs
    exact List.nil_subset _

theorem aggregate_records (a : Aggregate) (receiver : Option Expr) (args : List Expr) (t : Ty) :
    (call (.aggregate a) receiver args t).Records env := by
  intro known
  rw [toScalar, recorded_aggregate]
  refine ReadM.Records.lift_bind fun c hc => ?_
  have hrun : ∃ r, (((call (.aggregate a) receiver args t).toScalar env).run {}).outcome
      = .ok (.subquery c, r) := by
    rw [toScalar]
    exact ⟨_, ReadM.bind_eq_ok.mpr ⟨c, {}, Traced.bind_eq_ok.mpr ⟨c, hc, rfl⟩, rfl⟩⟩
  obtain ⟨r, hrun⟩ := hrun
  have hsubquery := scalar?_eq_some.mpr ⟨{}, r, hrun⟩
  exact (ReadM.record_records hsubquery).bind fun _ _ => .pure (List.subset_append_right _ _)

theorem readMembers_records {known : List Scalar} {owner : Ty} {members : List (String × Expr)}
    (h : ∀ e ∈ members.map Prod.snd, e.Records env) :
    (readMembers env owner members).Records env known ((members.map Prod.snd).flatMap (recorded env))
      fun _ => [] := by
  induction members generalizing known with
  | nil => exact .pure (List.nil_subset _)
  | cons m rest ih =>
    obtain ⟨hm, hrest⟩ := List.forall_mem_cons.mp h
    rw [readMembers]
    refine ReadM.Records.bind (hm known) fun s _ => ?_
    refine ReadM.Records.bind (ReadM.recordMember_records (List.subset_append_right _ _)) fun _ _ => ?_
    exact ih hrest

theorem string_records {m : StringMethod} {receiver : Expr} {args : List Expr} {t : Ty}
    (hr : receiver.Records env) (hargs : ∀ arg ∈ args, arg.Records env) :
    (call (.string m) (some receiver) args t).Records env := by
  intro known
  rw [recorded_eq_flatMap rfl (by simp), toScalar]
  refine ReadM.Records.bind (hr known) fun s _ => ?_
  split
  · exact ReadM.Records.bind (hargs _ List.mem_cons_self _) fun p _ =>
      .operation rfl (by simp [Scalar.operands])
  · exact ReadM.Records.bind (hargs _ List.mem_cons_self _) fun p _ =>
      .operation rfl (by simp [Scalar.operands])
  · exact ReadM.Records.bind (hargs _ List.mem_cons_self _) fun p _ =>
      .operation rfl (by simp [Scalar.operands])
  · refine ReadM.Records.bind (hargs _ List.mem_cons_self _) fun a _ => ?_
    exact ReadM.Records.bind (hargs _ (List.mem_cons_of_mem _ List.mem_cons_self) _) fun b _ =>
      .operation rfl (by simp [Scalar.operands])
  · exact .operation rfl (by simp [Scalar.operands])
  · exact .operation rfl (by simp [Scalar.operands])
  · exact .throw _

theorem conditional_records {test ifTrue ifFalse : Expr} (ht : test.Records env)
    (ha : ifTrue.Records env) (hb : ifFalse.Records env) :
    (conditional test ifTrue ifFalse).Records env := by
  intro known
  rw [recorded_conditional, toScalar]
  refine ReadM.Records.bind (ht known) fun s hs => ?_
  rw [scalar?_eq_some.mpr hs]
  split
  · rename_i heq
    cases heq
    exact ha _
  · rename_i heq
    cases heq
    exact hb _
  · rename_i htrue hfalse
    split
    · exact (htrue rfl).elim
    · exact (hfalse rfl).elim
    · rw [← List.append_nil (ifFalse.recorded env)]
      refine ReadM.Records.bind (ha _) fun x _ => ?_
      exact ReadM.Records.bind (hb _) fun y _ => .operation rfl (by simp [Scalar.operands])

/-- **Every expression records its recorded nodes when it is read.** -/
theorem toScalar_records (e : Expr) : e.Records env := by
  induction e using children_induction with
  | node e ih =>
    cases e with
    | binary op left right =>
      intro known
      rw [recorded_eq_flatMap rfl (by simp)]
      refine ReadM.Records.bind (ih left (by simp [children]) known) fun x _ => ?_
      exact ReadM.Records.bind (ih right (by simp [children]) _) fun y _ =>
        .operation rfl (by simp [Scalar.operands])
    | unary op operand =>
      intro known
      have ho := ih operand (by simp [children]) known
      rw [recorded_eq_flatMap rfl (by simp)]
      cases op with
      | not =>
        exact ReadM.Records.bind ho fun x _ => .operation rfl (by simp [Scalar.operands])
      | negate =>
        exact ReadM.Records.bind ho fun x _ => .operation rfl (by simp [Scalar.operands])
      | convert target =>
        rw [toScalar]
        split
        · simpa [children] using ho
        · exact .throw _
    | member object name t => exact member_records object name t
    | constant value t => exact constant_records value t
    | parameter name t => exact fun known => .pure (List.nil_subset _)
    | new t members =>
      intro known
      rw [recorded_eq_flatMap rfl (by simp), toScalar, children, ← List.append_nil (List.flatMap _ _)]
      refine ReadM.Records.lift_bind fun _ _ => ?_
      refine ReadM.Records.bind (readMembers_records ih) fun _ _ => .pure ?_
      exact List.nil_subset _
    | call m receiver args t =>
      cases m with
      | string m =>
        cases receiver with
        | none => exact fun known => .throw _
        | some r =>
          exact string_records (ih r (by simp [children]))
            fun arg harg => ih arg (by simp [children, harg])
      | aggregate a => exact aggregate_records a receiver args t
      | other declaringType name => exact fun known => .throw _
    | conditional test ifTrue ifFalse =>
      exact conditional_records (ih test (by simp [children])) (ih ifTrue (by simp [children]))
        (ih ifFalse (by simp [children]))
    | lambda | typeIs | memberInit | listInit | newArray | invoke => exact fun known => .throw _

/-! ## 4. Equality of what is recorded -/

/-- A recorded node is the root, if that is a member or an aggregate, or recorded in a child. -/
theorem mem_recorded_cases {e n : Expr} (h : n ∈ e.recorded env) :
    (n = e ∧ ((∃ object name t, e = .member object name t ∧ t.isScalar = true) ∨
      ∃ a receiver args t, e = .call (.aggregate a) receiver args t)) ∨
    ∃ c ∈ e.children, n ∈ c.recorded env := by
  have hchildren (hwhole : e.isReadWhole = false) (hconditional : ∀ a b c, e ≠ .conditional a b c) :
      ∃ c ∈ e.children, n ∈ c.recorded env := by
    rw [recorded_eq_flatMap hwhole hconditional] at h
    exact List.mem_flatMap.mp h
  cases e with
  | member object name t =>
    rw [recorded_member] at h
    split at h
    · rename_i ht
      exact Or.inl ⟨List.mem_singleton.mp h, Or.inl ⟨object, name, t, rfl, ht⟩⟩
    · cases h
  | conditional test ifTrue ifFalse =>
    rw [recorded_conditional] at h
    have hcases : n ∈ test.recorded env ∨ n ∈ ifTrue.recorded env ∨ n ∈ ifFalse.recorded env := by
      rcases List.mem_append.mp h with h | h
      · exact Or.inl h
      · split at h
        · exact Or.inr (Or.inl h)
        · exact Or.inr (Or.inr h)
        · exact Or.inr (List.mem_append.mp h)
    rcases hcases with h | h | h
    · exact Or.inr ⟨test, by simp [children], h⟩
    · exact Or.inr ⟨ifTrue, by simp [children], h⟩
    · exact Or.inr ⟨ifFalse, by simp [children], h⟩
  | call m receiver args t =>
    cases m with
    | aggregate a =>
      rw [recorded_aggregate] at h
      exact Or.inl ⟨List.mem_singleton.mp h, Or.inr ⟨a, receiver, args, t, rfl⟩⟩
    | string | other => exact Or.inr (hchildren rfl (by simp))
  | _ => exact Or.inr (hchildren rfl (by simp))

/-- **What is recorded is a column or an aggregate**, the latter over comparable literals if the expression
is. -/
theorem isRead_of_mem_recorded {e n : Expr} {s : Scalar} (he : e.Comparable) (hn : n ∈ e.recorded env)
    (hs : n.scalar? env = some s) : s.isRead = true ∧ ∀ c, s = .subquery c → c.query.Comparable := by
  induction e using children_induction with
  | node e ih =>
    rcases mem_recorded_cases hn with ⟨rfl, hnode⟩ | ⟨c, hc, hn⟩
    · obtain ⟨r, r', hrun⟩ := scalar?_eq_some.mp hs
      rcases hnode with ⟨object, name, t, rfl, ht⟩ | ⟨a, receiver, args, t, rfl⟩
      · rw [toScalar, readMember] at hrun
        split at hrun
        · cases hrun
        · split at hrun
          · cases hrun
          · obtain ⟨_, _, _, hrun⟩ := ReadM.bind_eq_ok.mp hrun
            cases hrun
            refine ⟨rfl, fun d hd => ?_⟩
            cases hd
      · rw [toScalar] at hrun
        obtain ⟨c, mid, hc, hrun⟩ := ReadM.bind_eq_ok.mp hrun
        obtain ⟨c', hc', hpair⟩ := Traced.bind_eq_ok.mp hc
        cases hpair
        cases hrun
        refine ⟨rfl, fun d hd => ?_⟩
        cases hd
        exact Correlated.comparable_query hc' fun arg harg => he.child (List.mem_append_right _ harg)
    · exact ih c hc (he.child hc) hn

end Expr

namespace Scalar

variable {x y : Scalar}

theorem beq_self_of_isRead (hx : x.isRead = true) (hcomparable : ∀ c, x = .subquery c → c.query.Comparable) :
    (x == x) = true := by
  cases x with
  | column token => exact BEq.refl token
  | subquery c => exact Correlated.beq_self (hcomparable c rfl)
  | _ => cases hx

theorem beq_symm_of_isRead (hx : x.isRead = true) (hcomparable : ∀ c, x = .subquery c → c.query.Comparable)
    (hcomparable' : ∀ c, y = .subquery c → c.query.Comparable) (h : (x == y) = true) :
    (y == x) = true := by
  cases x with
  | column token =>
    cases y with
    | column token' => exact BEq.symm (a := token) (b := token') h
    | _ => cases h
  | subquery c =>
    cases y with
    | subquery d => exact Correlated.beq_symm (hcomparable c rfl) (hcomparable' d rfl) h
    | _ => cases h
  | _ => cases hx

end Scalar

/-! ## 5. The theorem -/

/-- **A lambda lists every column that it reads, once and in order.**  Its columns are the different scalars
of the members and aggregates that are recorded when its body is read, in the order in which they first
come.  Over comparable literals no two of them are equal, and every column and every aggregate in the body,
or in a member of a record that the body builds, is one of them. -/
theorem Lambda.columns_of_read {env : Env} {arity : Nat} {l : Lambda} {p : Projection}
    (hl : ∀ v ∈ l.body.literals, v.Comparable) (h : (l.read env arity).outcome = .ok p) :
    (∃ reads, List.Forall₂ (fun n s => n.scalar? env = some s) (l.body.recorded env) reads ∧
      p.columns = reads.eraseDups) ∧
    (∀ (i j : Nat) (x y : Scalar), i ≠ j → p.columns[i]? = some x → p.columns[j]? = some y →
      (x == y) = false) ∧
    ∀ x ∈ p.body :: p.aliases.map Prod.snd, ∀ part ∈ x.parts, part.isRead = true →
      p.columns.contains part = true := by
  obtain ⟨_, _, body, reading, _, _, hbody, rfl⟩ := Lambda.read_eq_ok.mp h
  have hfresh : Reading.Traces [] {} := ⟨rfl, nofun⟩
  obtain ⟨reads, hreads, ⟨hcolumns, haliases⟩, hparts⟩ :=
    l.body.toScalar_records [] hbody hfresh (List.nil_subset _)
  rw [List.nil_append] at hcolumns haliases hparts
  have hread : ∀ x ∈ reads, x.isRead = true ∧ ∀ c, x = .subquery c → c.query.Comparable := by
    intro x hx
    obtain ⟨n, hn, hscalar⟩ := hreads.flip.exists_of_mem hx
    exact Expr.isRead_of_mem_recorded hl hn hscalar
  refine ⟨⟨reads, hreads, hcolumns⟩, ?_, ?_⟩
  · rw [hcolumns]
    have hlater := List.pairwise_iff_getElem.mp (pairwise_eraseDups reads)
    intro i j x y hne hx hy
    obtain ⟨hi, rfl⟩ := List.getElem?_eq_some_iff.mp hx
    obtain ⟨hj, rfl⟩ := List.getElem?_eq_some_iff.mp hy
    rcases Nat.lt_or_gt_of_ne hne with hlt | hgt
    · -- only the later one was compared with the earlier one
      obtain ⟨hxRead, hxComparable⟩ := hread _ (eraseDups_subset reads (List.getElem_mem hi))
      obtain ⟨-, hyComparable⟩ := hread _ (eraseDups_subset reads (List.getElem_mem hj))
      refine Bool.eq_false_iff.mpr fun hbeq => ?_
      have hback := Scalar.beq_symm_of_isRead hxRead hxComparable hyComparable hbeq
      rw [hlater i j hi hj hlt] at hback
      cases hback
    · exact hlater j i hj hi hgt
  · intro x hx part hpart hisRead
    have hsubset : x.readParts ⊆ reads := by
      rcases List.mem_cons.mp hx with rfl | hx
      · exact hparts
      · obtain ⟨a, ha, rfl⟩ := List.mem_map.mp hx
        exact haliases a ha
    have hmem : part ∈ reads := hsubset (List.mem_filter.mpr ⟨hpart, hisRead⟩)
    dsimp only
    rw [hcolumns]
    exact contains_eraseDups hmem (Scalar.beq_self_of_isRead hisRead (hread part hmem).2)

/-- A card with the name of a customer twice, and with two aggregates that differ in the sign of a zero only.
One column and one aggregate are listed, and the city, which is in the branch that is not taken, is not. -/
theorem Lambda.columns_of_read_card :
    let env : Env := ⟨Shop.schema, {}⟩
    let c : Parameter := ⟨"c", .row "Customer"⟩
    let o : Parameter := ⟨"o", .row "Order"⟩
    let share (x : Float) : Expr := .aggregate .sum (Shop.field c "Orders")
      (some ⟨[o], .binary .multiply (Shop.field o "Amount") (.ofLiteral (.float x))⟩) (.scalar .decimal)
    let shown : Expr := .conditional (.ofLiteral (.bool true)) (Shop.field c "Name") (Shop.field c "City")
    let l : Lambda := ⟨[c], .record "Card" [("Name", Shop.field c "Name"), ("None", share 0.0),
      ("Less", share (-0.0)), ("Shown", shown)]⟩
    (∀ v ∈ l.body.literals, v.Comparable) ∧ (l.body.recorded env).length = 4 ∧
      ∃ p, (l.read env 1).outcome = .ok p ∧ p.columns.length = 2 ∧
        ∀ x ∈ p.body :: p.aliases.map Prod.snd, ∀ part ∈ x.parts, part.isRead = true →
          p.columns.contains part = true := by
  intro env c o share shown l
  have hl : ∀ v ∈ l.body.literals, v.Comparable := by
    have hnames : ∀ v ∈ l.body.literals, v.namesDistinct = true := by decide
    have hnumbers : ∀ v ∈ l.body.literals, ∀ x ∈ v.floats, x.isNaN = false := by decide
    exact fun v hv => ⟨hnames v hv, hnumbers v hv⟩
  have hlength : ((l.read env 1).outcome.map fun p => p.columns.length).toOption = some 2 := by
    decide +kernel
  cases h : (l.read env 1).outcome with
  | error e =>
    rw [h] at hlength
    cases hlength
  | ok p =>
    rw [h] at hlength
    obtain ⟨-, -, hlisted⟩ := columns_of_read hl h
    exact ⟨hl, by decide +kernel, p, rfl, Option.some.inj hlength, hlisted⟩

end ChainQuery
