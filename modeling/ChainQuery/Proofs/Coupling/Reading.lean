import ChainQuery.Proofs.Compile.Reads
import ChainQuery.Proofs.Coupling.Basic
/-!
# Coupled readings

What two runs record of what they read is coupled (`Reading.Coupled`), because whether a column or an
aggregate has been read before is the same in both.  `Expr.Coupled` says that two expressions are read
alike.  There is a rule for every way to read an expression, over coupled parts, and one for all nodes
that are read through their children (`Expr.Coupled.withChildren`).
-/

namespace ChainQuery

variable {C : Coupling} {α β γ δ : Type}

/-! ## 1. Records of what is read -/

/-- The members of records that are not hidden. -/
def Aliases.shown (C : Coupling) (m : Aliases) : Aliases := m.filter fun a => !C.hidden a.1

/-- Where no member is hidden, all are shown. -/
theorem Aliases.shown_eq_self (h : ∀ key, C.hidden key = false) (m : Aliases) : m.shown C = m :=
  List.filter_eq_self.mpr fun a _ => by simp [h a.1]

/-- Giving a hidden key a value changes nothing that is shown. -/
theorem Aliases.shown_put_of_hidden {key : Ty × String} (hkey : C.hidden key = true) (x : Scalar)
    (m : Aliases) : Aliases.shown C (Assoc.put key x m) = Aliases.shown C m := by
  unfold shown
  induction m with
  | nil => simp [Assoc.put, hkey]
  | cons a m ih =>
    obtain ⟨k, v⟩ := a
    rw [Assoc.put]
    split
    · rename_i hk
      obtain rfl : k = key := beq_iff_eq.mp hk
      simp [hkey]
    · rw [List.filter_cons, List.filter_cons, ih]

/-- Any other key gets its value where it is shown. -/
theorem Aliases.shown_put {key : Ty × String} (hkey : C.hidden key = false) (x : Scalar)
    (m : Aliases) : Aliases.shown C (Assoc.put key x m) = Assoc.put key x (Aliases.shown C m) := by
  unfold shown
  induction m with
  | nil => simp [Assoc.put, hkey]
  | cons a m ih =>
    obtain ⟨k, v⟩ := a
    rw [Assoc.put]
    split
    · rename_i hk
      obtain rfl : k = key := beq_iff_eq.mp hk
      simp [hkey, Assoc.put]
    · rename_i hk
      rw [List.filter_cons, List.filter_cons, ih]
      split
      · rw [Assoc.put, if_neg hk]
      · rfl

/-- What is looked up under a key that is not hidden is shown. -/
theorem Aliases.lookup_shown {key : Ty × String} (hkey : C.hidden key = false) (m : Aliases) :
    (m.shown C).lookup key = m.lookup key := by
  unfold shown
  induction m with
  | nil => rfl
  | cons a m ih =>
    rw [List.filter_cons, List.lookup_cons]
    cases hk : key == a.1 with
    | true =>
      have hshown : C.hidden a.1 = false := beq_iff_eq.mp hk ▸ hkey
      rw [if_pos (by simp [hshown]), List.lookup_cons, hk]
    | false =>
      split
      · rw [List.lookup_cons, hk]
        exact ih
      · exact ih

/-- **The same members of records, of coupled scalars**, but for hidden ones. -/
def Aliases.Coupled (C : Coupling) (m m' : Aliases) : Prop :=
  List.Forall₂ (fun a b => a.1 = b.1 ∧ a.2.Coupled C b.2) (m.shown C) (m'.shown C)

/-- Giving the same key coupled values keeps aliases coupled. -/
theorem Aliases.Coupled.put {m m' : Aliases} (hm : Aliases.Coupled C m m') (key : Ty × String)
    {x y : Scalar} (h : x.Coupled C y) :
    Aliases.Coupled C (Assoc.put key x m) (Assoc.put key y m') := by
  unfold Aliases.Coupled at hm ⊢
  cases hkey : C.hidden key with
  | true =>
    rw [Aliases.shown_put_of_hidden hkey, Aliases.shown_put_of_hidden hkey]
    exact hm
  | false =>
    rw [Aliases.shown_put hkey, Aliases.shown_put hkey]
    exact Assoc.forall₂_put hm (fun _ _ hab => by rw [hab.1]) (fun _ _ hab => ⟨hab.1, h⟩) ⟨rfl, h⟩

theorem Aliases.Coupled.lookup {m m' : Aliases} (h : Aliases.Coupled C m m') {key : Ty × String}
    (hkey : C.hidden key = false) : Option.Rel (Scalar.Coupled C) (m.lookup key) (m'.lookup key) := by
  rw [← Aliases.lookup_shown hkey m, ← Aliases.lookup_shown hkey m']
  exact Assoc.rel_lookup h (fun _ _ hab => by rw [hab.1]) fun _ _ hab => hab.2

/-- **What two runs have read so far is coupled.** -/
structure Reading.Coupled (C : Coupling) (r r' : Reading) : Prop where
  columns : List.Forall₂ (Scalar.Coupled C) r.columns r'.columns
  aliases : Aliases.Coupled C r.aliases r'.aliases

theorem Reading.coupled_empty : Reading.Coupled C {} {} := ⟨.nil, .nil⟩

/-! ## 2. Computations that record what they read -/

/-- **Two computations that record what they read are coupled**: from coupled records they come to
related values and coupled records. -/
def ReadM.Coupled (C : Coupling) (R : α → β → Prop) (m : ReadM α) (m' : ReadM β) : Prop :=
  ∀ ⦃r r'⦄, r.Coupled C r' →
    C.Agrees (fun a b => R a.1 b.1 ∧ a.2.Coupled C b.2) (m.run r) (m'.run r')

namespace ReadM.Coupled

variable {R : α → β → Prop} {S : γ → δ → Prop}

theorem pure {a : α} {b : β} (h : R a b) : ReadM.Coupled C R (pure a) (pure b) :=
  fun _ _ hr => Coupling.Agrees.pure ⟨h, hr⟩

theorem throw (e e' : Error) : ReadM.Coupled C R (throw e) (throw e') :=
  fun _ _ _ => Coupling.Agrees.throw e e'

theorem bind {m : ReadM α} {m' : ReadM β} {f : α → ReadM γ} {g : β → ReadM δ}
    (hm : ReadM.Coupled C R m m') (hfg : ∀ a b, R a b → ReadM.Coupled C S (f a) (g b)) :
    ReadM.Coupled C S (m >>= f) (m' >>= g) := by
  intro r r' hr
  rw [StateT.run_bind, StateT.run_bind]
  exact (hm hr).bind fun a b _ _ hab => hfg a.1 b.1 hab.1 hab.2

/-- Computations that record nothing. -/
theorem lift {x : Traced α} {y : Traced β} (h : C.Agrees R x y) :
    ReadM.Coupled C R (liftM x) (liftM y) :=
  fun _ _ hr => h.bind fun _ _ _ _ hab => Coupling.Agrees.pure ⟨hab, hr⟩

/-- A column or an aggregate is recorded in both runs or in none. -/
theorem record {x y : Scalar} (h : x.Coupled C y) (hplain : x.Plain) :
    ReadM.Coupled C (fun _ _ => True) (ReadM.record x) (ReadM.record y) := by
  intro r r' hr
  refine Coupling.Agrees.pure ⟨trivial, ?_⟩
  dsimp only
  rw [Scalar.Coupled.contains_eq hr.columns h hplain]
  split
  · exact hr
  · exact ⟨List.rel_append hr.columns (.cons h .nil), hr.aliases⟩

/-- A member of a record is recorded in both runs. -/
theorem recordMember (owner : Ty) (member : String) {x y : Scalar} (h : x.Coupled C y) :
    ReadM.Coupled C (fun _ _ => True) (ReadM.recordMember owner member x)
      (ReadM.recordMember owner member y) :=
  fun _ _ hr => Coupling.Agrees.pure ⟨trivial, hr.columns, hr.aliases.put _ h⟩

end ReadM.Coupled

/-! ## 3. Expressions -/

namespace Expr

/-- **Two expressions are read alike.** -/
def Coupled (C : Coupling) (e e' : Expr) : Prop :=
  ReadM.Coupled C (Scalar.Coupled C) (e.toScalar C.env) (e'.toScalar C.env')

variable {e e' : Expr}

theorem Coupled.binary {left left' right right' : Expr} (op : BinaryOp) (hl : left.Coupled C left')
    (hr : right.Coupled C right') : (binary op left right).Coupled C (binary op left' right') := by
  unfold Coupled
  rw [toScalar, toScalar]
  exact hl.bind fun _ _ h => hr.bind fun _ _ h' => .pure (.binary op h h')

theorem Coupled.not (h : e.Coupled C e') : (unary .not e).Coupled C (unary .not e') := by
  unfold Coupled
  rw [toScalar, toScalar]
  exact h.bind fun _ _ h => .pure (.not h)

theorem Coupled.negate (h : e.Coupled C e') : (unary .negate e).Coupled C (unary .negate e') := by
  unfold Coupled
  rw [toScalar, toScalar]
  exact h.bind fun _ _ h => .pure (.negate h)

/-- A conversion is read as its operand, or not at all. -/
theorem Coupled.convert (t : Ty) (h : e.Coupled C e') :
    (unary (.convert t) e).Coupled C (unary (.convert t) e') := by
  unfold Coupled
  rw [toScalar, toScalar]
  split
  · exact h
  · exact .throw _ _

/-- A member that may be read is read alike if its object is reached alike. -/
theorem Coupled.member {object object' : Expr} (name : String) (t : Ty)
    (hreads : ∀ path, object.memberPath? = some path → t.isScalar = true → C.Reads ⟨path, name⟩)
    (hpath : object'.memberPath? = object.memberPath?)
    (htype : object'.type.isScalar = object.type.isScalar) :
    (member object name t).Coupled C (member object' name t) := by
  unfold Coupled
  rw [toScalar, toScalar, readMember, readMember, hpath, htype]
  split
  · exact .throw _ _
  · cases hobject : object.memberPath? with
    | none => exact .throw _ _
    | some path =>
      refine (ReadM.Coupled.lift (.same (Traced.meetAll path))).bind fun _ _ _ => ?_
      split
      · rename_i ht
        have hcolumn := hreads path hobject ht
        exact (ReadM.Coupled.record (.column hcolumn) trivial).bind fun _ _ _ => .pure (.column hcolumn)
      · exact .pure (.composite _ _)

theorem readConstant_agrees (value : Literal) (t : Ty) :
    C.Agrees (Scalar.Coupled C) (liftM (readConstant value t))
      (liftM (readConstant (value.mapStrings C.rename) t)) := by
  cases value with
  | null => exact .pure .null
  | bool b => exact .pure (.value (.bool b))
  | int i => exact .pure (.value (.int i))
  | float x => exact .pure (.value (.float x))
  | string s => exact .pure (.value (.string s))
  | list items => exact .throw _ _
  | object members =>
    simp only [readConstant, Literal.mapStrings]
    split
    · exact .pure (.composite _ _)
    · exact .throw _ _

theorem Coupled.constant (value : Literal) (t : Ty) :
    (constant value t).Coupled C (constant (value.mapStrings C.rename) t) := by
  unfold Coupled
  rw [toScalar, toScalar]
  exact .lift (readConstant_agrees value t)

theorem Coupled.parameter (name name' : String) (t t' : Ty) :
    (parameter name t).Coupled C (parameter name' t') := by
  unfold Coupled
  rw [toScalar, toScalar]
  exact .pure (.composite _ _)

/-- Members of a record with the same names, read alike. -/
def MembersCoupled (C : Coupling) : List (String × Expr) → List (String × Expr) → Prop :=
  List.Forall₂ fun m m' => m.1 = m'.1 ∧ m.2.Coupled C m'.2

theorem MembersCoupled.read {members members' : List (String × Expr)}
    (h : MembersCoupled C members members') (owner : Ty) :
    ReadM.Coupled C (fun _ _ => True) (readMembers C.env owner members)
      (readMembers C.env' owner members') := by
  induction h with
  | nil => exact .pure trivial
  | @cons m m' _ _ hm _ ih =>
    obtain ⟨name, e⟩ := m
    obtain ⟨name', e'⟩ := m'
    obtain ⟨rfl, he⟩ := hm
    rw [readMembers, readMembers]
    exact he.bind fun _ _ h => (ReadM.Coupled.recordMember _ _ h).bind fun _ _ _ => ih

theorem Coupled.new {members members' : List (String × Expr)} (t : Ty)
    (h : MembersCoupled C members members') : (new t members).Coupled C (new t members') := by
  unfold Coupled
  rw [toScalar, toScalar]
  refine (ReadM.Coupled.lift (.same (Traced.meet t))).bind fun _ _ _ => ?_
  exact (h.read t).bind fun _ _ _ => .pure (.composite _ _)

theorem Coupled.conditional {test test' ifTrue ifTrue' ifFalse ifFalse' : Expr}
    (ht : test.Coupled C test') (ha : ifTrue.Coupled C ifTrue') (hb : ifFalse.Coupled C ifFalse') :
    (conditional test ifTrue ifFalse).Coupled C (conditional test' ifTrue' ifFalse') := by
  unfold Coupled
  rw [toScalar, toScalar]
  refine ht.bind fun x y hxy => ?_
  have hcase : ReadM.Coupled C (Scalar.Coupled C)
      (do
        let a ← ifTrue.toScalar C.env
        let b ← ifFalse.toScalar C.env
        return .case x a b)
      (do
        let a ← ifTrue'.toScalar C.env'
        let b ← ifFalse'.toScalar C.env'
        return .case y a b) :=
    ha.bind fun _ _ h => hb.bind fun _ _ h' => .pure (.case hxy h h')
  -- only a constant test picks a branch, and renaming strings keeps truth values
  cases hxy with
  | value v =>
    cases v with
    | bool b =>
      cases b with
      | true => exact ha
      | false => exact hb
    | _ => exact hcase
  | _ => exact hcase

theorem Coupled.string {receiver receiver' : Expr} {args args' : List Expr} (m : StringMethod)
    (t : Ty) (hr : receiver.Coupled C receiver') (hargs : List.Forall₂ (Coupled C) args args') :
    (call (.string m) (some receiver) args t).Coupled C
      (call (.string m) (some receiver') args' t) := by
  unfold Coupled
  rw [toScalar, toScalar]
  refine hr.bind fun x y hxy => ?_
  cases m with
  | startsWith | endsWith | contains =>
    cases hargs with
    | nil => exact .throw _ _
    | cons hp hrest =>
      cases hrest with
      | nil => exact hp.bind fun _ _ h => .pure (.like _ hxy h)
      | cons => exact .throw _ _
  | substring =>
    cases hargs with
    | nil => exact .throw _ _
    | cons hstart hrest =>
      cases hrest with
      | nil => exact .throw _ _
      | cons hlength hrest =>
        cases hrest with
        | nil =>
          exact hstart.bind fun _ _ h => hlength.bind fun _ _ h' =>
            .pure (.function _ (.cons hxy (.cons h (.cons h' .nil))))
        | cons => exact .throw _ _
  | toUpper | toLower =>
    cases hargs with
    | nil => exact .pure (.function _ (.cons hxy .nil))
    | cons => exact .throw _ _

theorem Coupled.aggregate {receiver receiver' : Option Expr} {args args' : List Expr} {a : Aggregate}
    {t t' : Ty} (h : C.Agrees C.Aggregates
      (Correlated.ofCall C.env.schema (call (.aggregate a) receiver args t).text a args)
      (Correlated.ofCall C.env'.schema (call (.aggregate a) receiver' args' t').text a args')) :
    (call (.aggregate a) receiver args t).Coupled C (call (.aggregate a) receiver' args' t') := by
  unfold Coupled
  rw [toScalar, toScalar]
  exact (ReadM.Coupled.lift h).bind fun _ _ hc =>
    (ReadM.Coupled.record (.subquery hc) trivial).bind fun _ _ _ => .pure (.subquery hc)

/-- **A node that is read through its children is read alike over coupled children**, with the strings
renamed if it is a constant. -/
theorem Coupled.mapStrings_withChildren {cs : List Expr} (he : e.isReadWhole = false)
    (h : List.Forall₂ (Coupled C) e.children cs) :
    e.Coupled C ((e.mapStrings C.rename).withChildren cs) := by
  have hmembers : ∀ {members : List (String × Expr)} {cs : List Expr},
      List.Forall₂ (Coupled C) (members.map Prod.snd) cs →
        MembersCoupled C members
          (rename (members.map fun m => (m.1, m.2.mapStrings C.rename)) cs) := by
    intro members
    induction members with
    | nil =>
      intro cs h
      cases h
      exact .nil
    | cons m rest ih =>
      intro cs h
      obtain ⟨c, cs', hc, hrest, rfl⟩ := List.forall₂_cons_left_iff.mp h
      exact .cons ⟨rfl, hc⟩ (ih hrest)
  cases e with
  | binary op left right =>
    obtain ⟨_, _, hleft, hrest, rfl⟩ := List.forall₂_cons_left_iff.mp h
    obtain ⟨_, _, hright, hnil, rfl⟩ := List.forall₂_cons_left_iff.mp hrest
    cases hnil
    exact .binary op hleft hright
  | unary op operand =>
    obtain ⟨_, _, hoperand, hnil, rfl⟩ := List.forall₂_cons_left_iff.mp h
    cases hnil
    cases op with
    | not => exact hoperand.not
    | negate => exact hoperand.negate
    | convert t => exact hoperand.convert t
  | constant value t => exact .constant value t
  | parameter name t => exact .parameter name name t t
  | new t members =>
    rw [mapStrings_new]
    exact .new t (hmembers h)
  | conditional test ifTrue ifFalse =>
    obtain ⟨_, _, htest, hrest, rfl⟩ := List.forall₂_cons_left_iff.mp h
    obtain ⟨_, _, htrue, hrest', rfl⟩ := List.forall₂_cons_left_iff.mp hrest
    obtain ⟨_, _, hfalse, hnil, rfl⟩ := List.forall₂_cons_left_iff.mp hrest'
    cases hnil
    exact .conditional htest htrue hfalse
  | call m receiver args t =>
    rw [mapStrings_call]
    cases m with
    | aggregate => cases he
    | other =>
      cases receiver with
      | none => exact .throw _ _
      | some r =>
        obtain ⟨_, _, _, _, rfl⟩ := List.forall₂_cons_left_iff.mp h
        exact .throw _ _
    | string m =>
      cases receiver with
      | none => exact .throw _ _
      | some r =>
        obtain ⟨_, _, hr, hargs, rfl⟩ := List.forall₂_cons_left_iff.mp h
        exact .string m t hr hargs
  | member => cases he
  | lambda | typeIs =>
    obtain ⟨_, _, _, hnil, rfl⟩ := List.forall₂_cons_left_iff.mp h
    cases hnil
    exact .throw _ _
  | invoke =>
    obtain ⟨_, _, _, _, rfl⟩ := List.forall₂_cons_left_iff.mp h
    rw [mapStrings_invoke]
    exact .throw _ _
  | memberInit =>
    rw [mapStrings_memberInit]
    exact .throw _ _
  | listInit =>
    rw [mapStrings_listInit]
    exact .throw _ _
  | newArray =>
    rw [mapStrings_newArray]
    exact .throw _ _

/-- Where no string is renamed, the constant is the same. -/
theorem Coupled.withChildren {cs : List Expr} (hrename : C.rename = id) (he : e.isReadWhole = false)
    (h : List.Forall₂ (Coupled C) e.children cs) : e.Coupled C (e.withChildren cs) := by
  have hnode := Coupled.mapStrings_withChildren he h
  rwa [hrename, mapStrings_id] at hnode

end Expr

end ChainQuery
