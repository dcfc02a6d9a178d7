import ChainQuery.Proofs.Expr.Children
import ChainQuery.Proofs.Related
import ChainQuery.Proofs.Session.Compiler
/-!
# Reading lambdas in a session

What a session reads stands for what is read without identifiers (`read_follows`): scalars are built
alike, with the identifiers of the types in the place of the types (`Scalar.Denotes`).  Whether a
column or an aggregate has been read before, and which member of a record is replaced, comes out the
same, because identifiers are equal where types are (`Scalar.Denotes.beq_eq`).

These are two compilers and not two runs of one, so they are not coupled (`Coupling`): the functions of a
session work on identifiers and in a monad of their own, what stands for what changes while the table
grows, and failures are the same.  Their relations and those of coupled runs share what holds of related
options, lists and maps.
-/

namespace ChainQuery.Session

variable {T T' : TypeTable}

/-! ## 1. Scalars -/

/-- A column token stands for another: the same member, reached through the types that the identifiers
name. -/
structure ColumnToken.Denotes (T : TypeTable) (c : ColumnToken) (d : ChainQuery.ColumnToken) :
    Prop where
  path : List.Forall₂ T.Names c.path d.path
  member : c.member = d.member

mutual
/-- **A scalar of a session stands for a scalar**: they are built alike over columns that stand for
each other. -/
inductive Scalar.Denotes (T : TypeTable) : Scalar → ChainQuery.Scalar → Prop
  | column {c : ColumnToken} {d : ChainQuery.ColumnToken} (h : c.Denotes T d) :
      Denotes T (.column c) (.column d)
  | value (v : Literal) : Denotes T (.value v) (.value v)
  | null : Denotes T .null .null
  | binary (op : BinaryOp) {l r : Scalar} {l' r' : ChainQuery.Scalar} (hl : Denotes T l l')
      (hr : Denotes T r r') : Denotes T (.binary op l r) (.binary op l' r')
  | not {x : Scalar} {y : ChainQuery.Scalar} (h : Denotes T x y) : Denotes T (.not x) (.not y)
  | negate {x : Scalar} {y : ChainQuery.Scalar} (h : Denotes T x y) :
      Denotes T (.negate x) (.negate y)
  | function (f : Sql.Function) {xs : List Scalar} {ys : List ChainQuery.Scalar}
      (h : ListDenotes T xs ys) : Denotes T (.function f xs) (.function f ys)
  | like (wildcards : Sql.Wildcards) {x p : Scalar} {x' p' : ChainQuery.Scalar}
      (hx : Denotes T x x') (hp : Denotes T p p') :
      Denotes T (.like x p wildcards) (.like x' p' wildcards)
  | case {t x y : Scalar} {t' x' y' : ChainQuery.Scalar} (ht : Denotes T t t') (hx : Denotes T x x')
      (hy : Denotes T y y') : Denotes T (.case t x y) (.case t' x' y')
  | subquery (c : Correlated) : Denotes T (.subquery c) (.subquery c)
  | composite (text : String) : Denotes T (.composite text) (.composite text)

/-- Lists of scalars that stand for each other. -/
inductive Scalar.ListDenotes (T : TypeTable) : List Scalar → List ChainQuery.Scalar → Prop
  | nil : ListDenotes T [] []
  | cons {x : Scalar} {y : ChainQuery.Scalar} {xs : List Scalar} {ys : List ChainQuery.Scalar}
      (h : Denotes T x y) (hs : ListDenotes T xs ys) : ListDenotes T (x :: xs) (y :: ys)
end

theorem ColumnToken.Denotes.mono {c : ColumnToken} {d : ChainQuery.ColumnToken} (h : c.Denotes T d)
    (hle : T ≤ T') : c.Denotes T' d :=
  ⟨h.path.imp fun _ _ hn => hn.mono hle, h.member⟩

mutual
theorem Scalar.Denotes.mono (hle : T ≤ T') : ∀ {x : Scalar} {y : ChainQuery.Scalar},
    x.Denotes T y → x.Denotes T' y
  | _, _, .column h => .column (h.mono hle)
  | _, _, .value v => .value v
  | _, _, .null => .null
  | _, _, .binary op hl hr => .binary op (hl.mono hle) (hr.mono hle)
  | _, _, .not h => .not (h.mono hle)
  | _, _, .negate h => .negate (h.mono hle)
  | _, _, .function f h => .function f (h.mono hle)
  | _, _, .like w hx hp => .like w (hx.mono hle) (hp.mono hle)
  | _, _, .case ht hx hy => .case (ht.mono hle) (hx.mono hle) (hy.mono hle)
  | _, _, .subquery c => .subquery c
  | _, _, .composite text => .composite text

theorem Scalar.ListDenotes.mono (hle : T ≤ T') : ∀ {xs : List Scalar} {ys : List ChainQuery.Scalar},
    Scalar.ListDenotes T xs ys → Scalar.ListDenotes T' xs ys
  | _, _, .nil => .nil
  | _, _, .cons h hs => .cons (h.mono hle) (hs.mono hle)
end

/-- Paths of identifiers are equal where the paths of types are. -/
theorem path_beq_eq (hT : T.Fits) {ns ms : List TypeId} {ts us : List Ty}
    (h : List.Forall₂ T.Names ns ts) (h' : List.Forall₂ T.Names ms us) :
    (ns == ms) = (ts == us) := by
  induction h generalizing ms us with
  | nil => cases h' <;> rfl
  | cons hn _ ih =>
    cases h' with
    | nil => rfl
    | cons hn' hrest' => rw [List.cons_beq_cons, List.cons_beq_cons, hn.beq_eq hT hn', ih hrest']

theorem ColumnToken.Denotes.beq_eq (hT : T.Fits) {c c' : ColumnToken} {d d' : ChainQuery.ColumnToken}
    (h : c.Denotes T d) (h' : c'.Denotes T d') : (c == c') = (d == d') := by
  obtain ⟨path, member⟩ := c
  obtain ⟨path', member'⟩ := c'
  obtain ⟨types, _⟩ := d
  obtain ⟨types', _⟩ := d'
  obtain ⟨hpath, rfl⟩ := h
  obtain ⟨hpath', rfl⟩ := h'
  have hpaths := path_beq_eq hT hpath hpath'
  rw [Bool.eq_iff_iff, beq_iff_eq, beq_iff_eq] at hpaths ⊢
  simp only [ColumnToken.mk.injEq, ChainQuery.ColumnToken.mk.injEq, hpaths]

mutual
/-- **Scalars of a session are equal where what they stand for is.** -/
theorem Scalar.Denotes.beq_eq (hT : T.Fits) : ∀ {x x' : Scalar} {y y' : ChainQuery.Scalar},
    x.Denotes T y → x'.Denotes T y' → x.beq x' = y.beq y'
  | _, _, _, _, .column h, h' => by
    cases h' with
    | column h' => exact h.beq_eq hT h'
    | _ => rfl
  | _, _, _, _, .value v, h' => by cases h' <;> rfl
  | _, _, _, _, .null, h' => by cases h' <;> rfl
  | _, _, _, _, .binary op hl hr, h' => by
    cases h' with
    | binary op' hl' hr' =>
      simp only [Scalar.beq, ChainQuery.Scalar.beq, hl.beq_eq hT hl', hr.beq_eq hT hr']
    | _ => rfl
  | _, _, _, _, .not h, h' => by
    cases h' with
    | not h' => exact h.beq_eq hT h'
    | _ => rfl
  | _, _, _, _, .negate h, h' => by
    cases h' with
    | negate h' => exact h.beq_eq hT h'
    | _ => rfl
  | _, _, _, _, .function f h, h' => by
    cases h' with
    | function f' h' => simp only [Scalar.beq, ChainQuery.Scalar.beq, h.beqList_eq hT h']
    | _ => rfl
  | _, _, _, _, .like w hx hp, h' => by
    cases h' with
    | like w' hx' hp' =>
      simp only [Scalar.beq, ChainQuery.Scalar.beq, hx.beq_eq hT hx', hp.beq_eq hT hp']
    | _ => rfl
  | _, _, _, _, .case ht hx hy, h' => by
    cases h' with
    | case ht' hx' hy' =>
      simp only [Scalar.beq, ChainQuery.Scalar.beq, ht.beq_eq hT ht', hx.beq_eq hT hx',
        hy.beq_eq hT hy']
    | _ => rfl
  | _, _, _, _, .subquery c, h' => by cases h' <;> rfl
  | _, _, _, _, .composite text, h' => by cases h' <;> rfl

theorem Scalar.ListDenotes.beqList_eq (hT : T.Fits) : ∀ {xs xs' : List Scalar}
    {ys ys' : List ChainQuery.Scalar}, Scalar.ListDenotes T xs ys → Scalar.ListDenotes T xs' ys' →
    Scalar.beqList xs xs' = ChainQuery.Scalar.beqList ys ys'
  | _, _, _, _, .nil, h' => by cases h' <;> rfl
  | _, _, _, _, .cons h hs, h' => by
    cases h' with
    | nil => rfl
    | cons h' hs' =>
      simp only [Scalar.beqList, ChainQuery.Scalar.beqList, h.beq_eq hT h', hs.beqList_eq hT hs']
end

theorem Scalar.Denotes.isNull_eq {x : Scalar} {y : ChainQuery.Scalar} (h : x.Denotes T y) :
    x.isNull = y.isNull := by
  cases h <;> rfl

/-! ## 2. Records of what is read -/

/-- Members of records that stand for each other: the same members of the records that the identifiers
name. -/
def Aliases.Denotes (T : TypeTable) : Aliases → ChainQuery.Aliases → Prop :=
  List.Forall₂ fun a b => T.Names a.1.1 b.1.1 ∧ a.1.2 = b.1.2 ∧ a.2.Denotes T b.2

/-- What has been read so far, in a session and without identifiers. -/
structure Reading.Denotes (T : TypeTable) (r : Reading) (r' : ChainQuery.Reading) : Prop where
  columns : List.Forall₂ (Scalar.Denotes T) r.columns r'.columns
  aliases : r.aliases.Denotes T r'.aliases

theorem Aliases.Denotes.mono {m : Aliases} {m' : ChainQuery.Aliases} (h : m.Denotes T m')
    (hle : T ≤ T') : m.Denotes T' m' :=
  List.Forall₂.imp (fun _ _ ha => ⟨ha.1.mono hle, ha.2.1, ha.2.2.mono hle⟩) h

theorem Reading.Denotes.mono {r : Reading} {r' : ChainQuery.Reading} (h : r.Denotes T r')
    (hle : T ≤ T') : r.Denotes T' r' :=
  ⟨h.columns.imp fun _ _ hs => hs.mono hle, h.aliases.mono hle⟩

theorem contains_eq (hT : T.Fits) {xs : List Scalar} {ys : List ChainQuery.Scalar}
    (hs : List.Forall₂ (Scalar.Denotes T) xs ys) {x : Scalar} {y : ChainQuery.Scalar}
    (h : x.Denotes T y) : xs.contains x = ys.contains y :=
  hs.contains_eq fun _ _ h' => h.beq_eq hT h'

/-- Keys of records are equal where what they stand for is. -/
theorem key_beq_eq (hT : T.Fits) {k k' : TypeId × String} {l l' : Ty × String}
    (h : T.Names k.1 l.1 ∧ k.2 = l.2) (h' : T.Names k'.1 l'.1 ∧ k'.2 = l'.2) :
    (k == k') = (l == l') := by
  change (k.1 == k'.1 && k.2 == k'.2) = (l.1 == l'.1 && l.2 == l'.2)
  rw [h.1.beq_eq hT h'.1, h.2, h'.2]

/-- Giving the same member a value replaces the same one. -/
theorem Aliases.Denotes.put (hT : T.Fits) {m : Aliases} {m' : ChainQuery.Aliases}
    (hm : m.Denotes T m') {n : TypeId} {t : Ty} (hn : T.Names n t) (member : String) {x : Scalar}
    {y : ChainQuery.Scalar} (h : x.Denotes T y) :
    Aliases.Denotes T (Assoc.put (n, member) x m) (Assoc.put (t, member) y m') :=
  Assoc.forall₂_put hm (fun _ _ hab => key_beq_eq hT ⟨hab.1, hab.2.1⟩ ⟨hn, rfl⟩)
    (fun _ _ hab => ⟨hab.1, hab.2.1, h⟩) ⟨hn, rfl, h⟩

theorem Aliases.Denotes.lookup (hT : T.Fits) {m : Aliases} {m' : ChainQuery.Aliases}
    (hm : m.Denotes T m') {n : TypeId} {t : Ty} (hn : T.Names n t) (member : String) :
    Option.Rel (Scalar.Denotes T) (m.lookup (n, member)) (m'.lookup (t, member)) :=
  Assoc.rel_lookup hm (fun _ _ hab => key_beq_eq hT ⟨hn, rfl⟩ ⟨hab.1, hab.2.1⟩) fun _ _ hab => hab.2.2

/-! ## 3. Computations that record what they read -/

/-- **A computation that records what it reads follows another**: from records that stand for each
other it does so and comes to such records. -/
def ReadM.Follows {α β : Type} (T : TypeTable) (R : TypeTable → α → β → Prop) (m : ReadM α)
    (x : ChainQuery.ReadM β) : Prop :=
  ∀ ⦃r r'⦄, Reading.Denotes T r r' →
    ChainQuery.Follows T (fun T a b => R T a.1 b.1 ∧ a.2.Denotes T b.2) (m.run r) (x.run r')

namespace ReadM.Follows

variable {α β γ δ : Type} {R : TypeTable → α → β → Prop} {S : TypeTable → γ → δ → Prop}

theorem pure {a : α} {b : β} (h : R T a b) : ReadM.Follows T R (pure a) (pure b) :=
  fun _ _ hr => ChainQuery.Follows.pure ⟨h, hr⟩

theorem throw (e : Error) : ReadM.Follows T R (throw e) (throw e) :=
  fun _ _ _ => ChainQuery.Follows.throw e

theorem bind {m : ReadM α} {x : ChainQuery.ReadM β} {f : α → ReadM γ} {g : β → ChainQuery.ReadM δ}
    (hm : ReadM.Follows T R m x)
    (hf : ∀ T', T ≤ T' → ∀ a b, R T' a b → ReadM.Follows T' S (f a) (g b)) :
    ReadM.Follows T S (m >>= f) (x >>= g) := by
  intro r r' hr
  rw [StateT.run_bind, StateT.run_bind]
  exact (hm hr).bind fun T' hle a b hab => hf T' hle a.1 b.1 hab.1 hab.2

/-- Computations that record nothing. -/
theorem lift {m : SessionM α} {x : Traced β} (h : ChainQuery.Follows T R m x) :
    ReadM.Follows T R (liftM m) (liftM x) :=
  fun _ _ hr => h.bind fun _ hle _ _ hab => ChainQuery.Follows.pure ⟨hab, hr.mono hle⟩

/-- A column or an aggregate is recorded in both or in none. -/
theorem record {x : Scalar} {y : ChainQuery.Scalar} (h : x.Denotes T y) :
    ReadM.Follows T (fun _ _ _ => True) (ReadM.record x) (ChainQuery.ReadM.record y) := by
  intro r r' hr
  refine ChainQuery.Follows.of_fits fun hT => ChainQuery.Follows.pure ⟨trivial, ?_⟩
  dsimp only
  rw [contains_eq hT hr.columns h]
  split
  · exact hr
  · exact ⟨List.rel_append hr.columns (.cons h .nil), hr.aliases⟩

/-- A member of a record is recorded in both. -/
theorem recordMember {owner : TypeId} {t : Ty} (howner : T.Names owner t) (member : String)
    {x : Scalar} {y : ChainQuery.Scalar} (h : x.Denotes T y) :
    ReadM.Follows T (fun _ _ _ => True) (ReadM.recordMember owner member x)
      (ChainQuery.ReadM.recordMember t member y) :=
  fun _ _ hr => ChainQuery.Follows.of_fits fun hT =>
    ChainQuery.Follows.pure ⟨trivial, hr.columns, hr.aliases.put hT howner member h⟩

end ReadM.Follows

/-! ## 4. Expressions -/

section Expressions

variable {env : Env}

/-- Reading an expression in a session, from any table, follows reading it without identifiers. -/
def ReadsAlike (env : Env) (e : Expr) : Prop :=
  ∀ T, ReadM.Follows T Scalar.Denotes (toScalar env e) (e.toScalar env)

theorem readMember_follows (text : String) (object : Expr) (name : String) (t : Ty) :
    ReadM.Follows T Scalar.Denotes (readMember text object name t)
      (Expr.readMember text object name t) := by
  simp only [readMember, Expr.readMember]
  split
  · exact .throw _
  · cases object.memberPath? with
    | none => exact .throw _
    | some types =>
      refine (ReadM.Follows.lift (.identifyAll types)).bind fun T' _ path _ hpath => ?_
      split
      · have hcolumn : Scalar.Denotes T' (.column ⟨path, name⟩) (.column ⟨types, name⟩) :=
          .column ⟨hpath, rfl⟩
        exact (ReadM.Follows.record hcolumn).bind fun _ hle _ _ _ => .pure (hcolumn.mono hle)
      · exact .pure (.composite text)

theorem readConstant_follows (value : Literal) (t : Ty) :
    ReadM.Follows T Scalar.Denotes (liftM (readConstant value t))
      (liftM (Expr.readConstant value t)) := by
  refine ReadM.Follows.lift (m := liftM (readConstant value t))
    (x := liftM (Expr.readConstant value t)) ?_
  cases value with
  | null => exact .pure .null
  | bool | int | float | string => exact .pure (.value _)
  | list => exact .throw _
  | object members =>
    simp only [readConstant, Expr.readConstant]
    split
    · exact .pure (.composite _)
    · exact .throw _

theorem readMembers_follows {members : List (String × Expr)}
    (h : ∀ m ∈ members, ReadsAlike env m.2) {owner : TypeId} {t : Ty} (howner : T.Names owner t) :
    ReadM.Follows T (fun _ _ _ => True) (readMembers env owner members)
      (Expr.readMembers env t members) := by
  induction members generalizing T with
  | nil => exact .pure trivial
  | cons m rest ih =>
    obtain ⟨hm, hrest⟩ := List.forall_mem_cons.mp h
    rw [readMembers, Expr.readMembers]
    refine (hm T).bind fun T₁ hle₁ x y hxy => ?_
    refine (ReadM.Follows.recordMember (howner.mono hle₁) _ hxy).bind fun T₂ hle₂ _ _ _ => ?_
    exact ih hrest (howner.mono (le_trans hle₁ hle₂))

theorem conditional_follows {test ifTrue ifFalse : Expr} (ht : ReadsAlike env test)
    (ha : ReadsAlike env ifTrue) (hb : ReadsAlike env ifFalse) :
    ReadsAlike env (.conditional test ifTrue ifFalse) := by
  intro T
  rw [toScalar, Expr.toScalar]
  refine (ht T).bind fun T₁ _ x y hxy => ?_
  have hcase : ReadM.Follows T₁ Scalar.Denotes
      (do
        let a ← toScalar env ifTrue
        let b ← toScalar env ifFalse
        return .case x a b)
      (do
        let a ← ifTrue.toScalar env
        let b ← ifFalse.toScalar env
        return .case y a b) :=
    (ha T₁).bind fun T₂ hle₂ _ _ h => (hb T₂).bind fun T₃ hle₃ _ _ h' =>
      .pure (.case (hxy.mono (le_trans hle₂ hle₃)) (h.mono hle₃) h')
  -- only a constant test picks a branch, and constants have no identifiers
  cases hxy with
  | value v =>
    cases v with
    | bool b =>
      cases b with
      | true => exact ha T₁
      | false => exact hb T₁
    | _ => exact hcase
  | _ => exact hcase

theorem string_follows {m : StringMethod} {receiver : Expr} {args : List Expr} (t : Ty)
    (hr : ReadsAlike env receiver) (hargs : ∀ arg ∈ args, ReadsAlike env arg) :
    ReadsAlike env (.call (.string m) (some receiver) args t) := by
  intro T
  rw [toScalar, Expr.toScalar]
  refine (hr T).bind fun T₁ _ x y hxy => ?_
  cases m with
  | startsWith | endsWith | contains =>
    cases args with
    | nil => exact .throw _
    | cons p rest =>
      cases rest with
      | nil =>
        exact (hargs p List.mem_cons_self T₁).bind fun T₂ hle _ _ h => .pure (.like _ (hxy.mono hle) h)
      | cons => exact .throw _
  | substring =>
    cases args with
    | nil => exact .throw _
    | cons start rest =>
      cases rest with
      | nil => exact .throw _
      | cons length rest =>
        cases rest with
        | nil =>
          refine (hargs start List.mem_cons_self T₁).bind fun T₂ hle₂ _ _ h => ?_
          refine (hargs length (by simp) T₂).bind fun T₃ hle₃ _ _ h' => ?_
          exact .pure (.function _
            (.cons (hxy.mono (le_trans hle₂ hle₃)) (.cons (h.mono hle₃) (.cons h' .nil))))
        | cons => exact .throw _
  | toUpper | toLower =>
    cases args with
    | nil => exact .pure (.function _ (.cons hxy .nil))
    | cons => exact .throw _

/-- **Reading an expression in a session follows reading it without identifiers.** -/
theorem toScalar_follows (e : Expr) : ReadsAlike env e := by
  induction e using Expr.children_induction with
  | node e ih =>
    intro T
    cases e with
    | binary op left right =>
      refine (ih left (by simp [Expr.children]) T).bind fun T₁ _ _ _ h => ?_
      refine (ih right (by simp [Expr.children]) T₁).bind fun T₂ hle _ _ h' => ?_
      exact .pure (.binary op (h.mono hle) h')
    | unary op operand =>
      have ho : ReadsAlike env operand := ih operand (by simp [Expr.children])
      cases op with
      | not => exact (ho T).bind fun _ _ _ _ h => .pure (.not h)
      | negate => exact (ho T).bind fun _ _ _ _ h => .pure (.negate h)
      | convert target =>
        rw [toScalar, Expr.toScalar]
        split
        · exact ho T
        · exact .throw _
    | member object name t => exact readMember_follows _ object name t
    | constant value t => exact readConstant_follows value t
    | parameter name t => exact .pure (.composite name)
    | new t members =>
      rw [toScalar, Expr.toScalar]
      have hmembers : ∀ m ∈ members, ReadsAlike env m.2 :=
        fun m hm => ih m.2 (List.mem_map_of_mem hm)
      refine (ReadM.Follows.lift (.identify t)).bind fun T₁ _ owner _ howner => ?_
      exact (readMembers_follows hmembers howner).bind fun _ _ _ _ _ => .pure (.composite _)
    | call m receiver args t =>
      cases m with
      | string m =>
        cases receiver with
        | none => exact .throw _
        | some r =>
          exact string_follows t (ih r (by simp [Expr.children]))
            (fun arg harg => ih arg (by simp [Expr.children, harg])) T
      | aggregate a =>
        rw [toScalar, Expr.toScalar]
        refine (ReadM.Follows.lift (.ofTraced _)).bind ?_
        rintro T₁ _ c _ rfl
        exact (ReadM.Follows.record (.subquery c)).bind fun _ _ _ _ _ => .pure (.subquery c)
      | other declaringType name => exact .throw _
    | conditional test ifTrue ifFalse =>
      exact conditional_follows (ih test (by simp [Expr.children]))
        (ih ifTrue (by simp [Expr.children])) (ih ifFalse (by simp [Expr.children])) T
    | lambda | typeIs | memberInit | listInit | newArray | invoke => exact .throw _

end Expressions

/-! ## 5. Lambdas -/

/-- **A lambda that was read in a session stands for the lambda read without identifiers.** -/
structure Projection.Denotes (T : TypeTable) (p : Projection) (p' : ChainQuery.Projection) :
    Prop where
  parameterType : p.parameterType = p'.parameterType
  returnType : p.returnType = p'.returnType
  body : p.body.Denotes T p'.body
  columns : List.Forall₂ (Scalar.Denotes T) p.columns p'.columns
  aliases : p.aliases.Denotes T p'.aliases

theorem Projection.Denotes.mono {p : Projection} {p' : ChainQuery.Projection} (h : p.Denotes T p')
    (hle : T ≤ T') : p.Denotes T' p' :=
  { h with
    body := h.body.mono hle
    columns := h.columns.imp fun _ _ hs => hs.mono hle
    aliases := h.aliases.mono hle }

/-- **Reading a lambda in a session follows reading it without identifiers.** -/
theorem read_follows (env : Env) (arity : Nat) (l : Lambda) :
    Follows T Projection.Denotes (read env arity l) (l.read env arity) := by
  obtain ⟨params, body⟩ := l
  cases params with
  | nil => exact .throw _
  | cons first rest =>
    unfold read Lambda.read
    dsimp only
    split
    · exact .throw _
    · have hempty : Reading.Denotes T {} {} := ⟨.nil, .nil⟩
      exact (toScalar_follows body T hempty).bind fun _ _ _ _ h =>
        .pure ⟨rfl, rfl, h.1, h.2.columns, h.2.aliases⟩

end ChainQuery.Session
