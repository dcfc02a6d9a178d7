import ChainQuery.Proofs.Compile.Reads
/-!
# Laws of reading

Reading an expression is a sequence of few kinds of steps.  A property of computations that holds of
each of them, and that sequences keep, holds of the whole (`ReadM.Law`, `Expr.toScalar_law`).

Only two of the steps are not the same for all expressions: recording the members of a record, and
looking an aggregate up in the schema.  All other steps ask the schema for nothing, so they do not fail
for want of metadata (`Traced.Supplied`).
-/

namespace ChainQuery

/-! ## 1. Metadata that is not missing -/

/-- Whether an error says that the schema lacks something. -/
def Error.isMissingMetadata : Error → Bool
  | .missingMetadata _ => true
  | _ => false

/-- **A computation that finds all metadata that it asks for.**  It may fail for another reason. -/
def Traced.Supplied {α : Type} (x : Traced α) : Prop :=
  ∀ e, x.outcome = .error e → e.isMissingMetadata = false

namespace Traced.Supplied

variable {α β : Type}

theorem of_ok {x : Traced α} {a : α} (h : x.outcome = .ok a) : x.Supplied := by
  intro e he
  rw [h] at he
  cases he

theorem of_error {x : Traced α} {e : Error} (h : x.outcome = .error e)
    (he : e.isMissingMetadata = false) : x.Supplied := by
  intro e' he'
  rw [h] at he'
  cases he'
  exact he

theorem pure (a : α) : Supplied (pure a) := of_ok rfl

theorem throw {e : Error} (h : e.isMissingMetadata = false) : Supplied (throw e : Traced α) :=
  of_error rfl h

/-- The second computation only happens with what the first returned. -/
theorem bind {x : Traced α} {f : α → Traced β} (hx : x.Supplied)
    (hf : ∀ a, x.outcome = .ok a → (f a).Supplied) : (x >>= f).Supplied := by
  intro e he
  rw [Traced.outcome_bind] at he
  cases h : x.outcome with
  | error e' =>
    rw [h] at he
    cases he
    exact hx e h
  | ok a =>
    rw [h] at he
    exact hf a h e he

theorem mapM {f : α → Traced β} {xs : List α} (h : ∀ x ∈ xs, (f x).Supplied) :
    (xs.mapM f).Supplied := by
  induction xs with
  | nil => exact pure []
  | cons x xs ih =>
    obtain ⟨hx, hxs⟩ := List.forall_mem_cons.mp h
    rw [List.mapM_cons]
    exact hx.bind fun y _ => (ih hxs).bind fun ys _ => pure (y :: ys)

end Traced.Supplied

/-! ## 2. Laws -/

/-- **A law of reading**: a property of computations that sequences keep, and that recording a column
has.  Whether recording a member has it is left open. -/
structure ReadM.Law (P : ∀ α : Type, ReadM α → Prop) : Prop where
  pure : ∀ {α : Type} (a : α), P α (pure a)
  throw : ∀ {α : Type} {e : Error}, e.isMissingMetadata = false → P α (throw e)
  lift : ∀ {α : Type} {x : Traced α}, x.Supplied → P α (liftM x)
  bind : ∀ {α β : Type} {m : ReadM α} {f : α → ReadM β}, P α m → (∀ a, P β (f a)) → P β (m >>= f)
  record : ∀ s : Scalar, P Unit (ReadM.record s)

namespace Expr

variable {P : ∀ α : Type, ReadM α → Prop} {env : Env}

theorem readMember_law (law : ReadM.Law P) (text : String) (object : Expr) (name : String) (t : Ty) :
    P Scalar (readMember text object name t) := by
  simp only [readMember]
  split
  · exact law.throw rfl
  · split
    · exact law.throw rfl
    · refine law.bind (law.lift (.of_ok rfl)) fun _ => ?_
      split
      · exact law.bind (law.record _) fun _ => law.pure _
      · exact law.pure _

theorem readConstant_supplied (value : Literal) (t : Ty) :
    (liftM (readConstant value t) : Traced Scalar).Supplied := by
  intro e he
  have he : readConstant value t = .error e := he
  unfold readConstant at he
  split at he
  · cases he
  · split at he
    · cases he
    · cases he
      rfl
  · cases he
    rfl
  · cases he

theorem readMembers_law (law : ReadM.Law P) {owner : Ty} {members : List (String × Expr)}
    (h : ∀ m ∈ members, P Scalar (m.2.toScalar env))
    (hrecord : ∀ m ∈ members, ∀ s, P Unit (ReadM.recordMember owner (propertyName m.1) s)) :
    P Unit (readMembers env owner members) := by
  induction members with
  | nil => exact law.pure _
  | cons m rest ih =>
    obtain ⟨hm, hrest⟩ := List.forall_mem_cons.mp h
    obtain ⟨hrecordHead, hrecordRest⟩ := List.forall_mem_cons.mp hrecord
    rw [readMembers]
    exact law.bind hm fun _ => law.bind (hrecordHead _) fun _ => ih hrest hrecordRest

theorem conditional_law (law : ReadM.Law P) {test ifTrue ifFalse : Expr}
    (ht : P Scalar (test.toScalar env)) (ha : P Scalar (ifTrue.toScalar env))
    (hb : P Scalar (ifFalse.toScalar env)) :
    P Scalar ((conditional test ifTrue ifFalse).toScalar env) := by
  rw [toScalar]
  refine law.bind ht fun s => ?_
  split
  · exact ha
  · exact hb
  · exact law.bind ha fun _ => law.bind hb fun _ => law.pure _

theorem string_law (law : ReadM.Law P) {m : StringMethod} {receiver : Expr} {args : List Expr}
    {t : Ty} (hr : P Scalar (receiver.toScalar env))
    (hargs : ∀ arg ∈ args, P Scalar (arg.toScalar env)) :
    P Scalar ((call (.string m) (some receiver) args t).toScalar env) := by
  rw [toScalar]
  refine law.bind hr fun s => ?_
  split
  · exact law.bind (hargs _ List.mem_cons_self) fun _ => law.pure _
  · exact law.bind (hargs _ List.mem_cons_self) fun _ => law.pure _
  · exact law.bind (hargs _ List.mem_cons_self) fun _ => law.pure _
  · exact law.bind (hargs _ List.mem_cons_self) fun _ =>
      law.bind (hargs _ (List.mem_cons_of_mem _ List.mem_cons_self)) fun _ => law.pure _
  · exact law.pure _
  · exact law.pure _
  · exact law.throw rfl

/-- The query of a call of an aggregate, as it is made where the call is read. -/
def aggregateQuery (schema : Schema) (e : Expr) (a : Aggregate) (args : List Expr) :
    ReadM Correlated :=
  liftM (Correlated.ofCall schema e.text a args)

/-- **Reading an expression obeys every law that recording the members it builds obeys**, and that the
look-ups of its aggregates obey.  These may ask for a property `G` of the calls that children
inherit. -/
theorem toScalar_law (law : ReadM.Law P) {G : Expr → Prop}
    (hG : ∀ e c, G e → c ∈ e.children → G c)
    (haggregate : ∀ a receiver args t, G (call (.aggregate a) receiver args t) →
      P Correlated ((call (.aggregate a) receiver args t).aggregateQuery env.schema a args))
    {e : Expr} (he : G e)
    (hrecord : ∀ key ∈ e.built, ∀ s, P Unit (ReadM.recordMember key.1 key.2 s)) :
    P Scalar (e.toScalar env) := by
  induction e using children_induction with
  | node e ih =>
    have hchild : e.isReadWhole = false → ∀ c ∈ e.children, P Scalar (c.toScalar env) :=
      fun hwhole c hc =>
        ih c hc (hG e c he hc) fun key hkey => hrecord key (built_subset hwhole hc hkey)
    cases e with
    | binary op left right =>
      have hl := hchild rfl left (by simp [children])
      have hr := hchild rfl right (by simp [children])
      exact law.bind hl fun _ => law.bind hr fun _ => law.pure _
    | unary op operand =>
      have ho := hchild rfl operand (by simp [children])
      cases op with
      | not => exact law.bind ho fun _ => law.pure _
      | negate => exact law.bind ho fun _ => law.pure _
      | convert target =>
        rw [toScalar]
        split
        · exact ho
        · exact law.throw rfl
    | member object name t => exact readMember_law law _ object name t
    | constant value t => exact law.lift (readConstant_supplied value t)
    | parameter name t => exact law.pure _
    | new t members =>
      have hmembers : P Unit (readMembers env t members) :=
        readMembers_law law (fun m hm => hchild rfl m.2 (List.mem_map_of_mem hm))
          fun m hm => hrecord (t, propertyName m.1) (mem_built_new hm)
      exact law.bind (law.lift (.of_ok rfl)) fun _ => law.bind hmembers fun _ => law.pure _
    | call m receiver args t =>
      cases m with
      | string m =>
        cases receiver with
        | none => exact law.throw rfl
        | some r =>
          exact string_law law (hchild rfl r (by simp [children]))
            fun arg harg => hchild rfl arg (by simp [children, harg])
      | aggregate a =>
        exact law.bind (haggregate a receiver args t he) fun _ =>
          law.bind (law.record _) fun _ => law.pure _
      | other declaringType name => exact law.throw rfl
    | conditional test ifTrue ifFalse =>
      exact conditional_law law (hchild rfl test (by simp [children]))
        (hchild rfl ifTrue (by simp [children])) (hchild rfl ifFalse (by simp [children]))
    | lambda | typeIs | memberInit | listInit | newArray | invoke => exact law.throw rfl

end Expr

end ChainQuery
