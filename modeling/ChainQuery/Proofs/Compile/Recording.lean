import ChainQuery.Proofs.Compile.ReadingLaws
/-!
# What reading a lambda records

Reading only ever adds to what has been recorded (`ReadM.Grows`, `Expr.toScalar_grows`).  So what a
record is built from is still there when its lambda has been read: every member under its name, and
every member that is a column among the columns (`Lambda.recorded_of_read`).  A row that is passed on
whole records nothing (`Lambda.read_isWhole`).
-/

namespace ChainQuery

/-! ## 1. Reading adds to the record -/

/-- **A record has grown**: no column and no member of a record was lost. -/
structure Reading.Grows (r r' : Reading) : Prop where
  columns : r.columns ⊆ r'.columns
  aliases : r.aliases.map Prod.fst ⊆ r'.aliases.map Prod.fst

theorem Reading.Grows.refl (r : Reading) : r.Grows r := ⟨List.Subset.refl _, List.Subset.refl _⟩

theorem Reading.Grows.trans {r r' r'' : Reading} (h : r.Grows r') (h' : r'.Grows r'') : r.Grows r'' :=
  ⟨List.Subset.trans h.columns h'.columns, List.Subset.trans h.aliases h'.aliases⟩

/-- A computation that only adds to the record. -/
def ReadM.Grows {α : Type} (m : ReadM α) : Prop :=
  ∀ ⦃r r' : Reading⦄ ⦃a : α⦄, (m.run r).outcome = .ok (a, r') → r.Grows r'

namespace ReadM

variable {α β : Type}

theorem Grows.pure (a : α) : Grows (pure a) := by
  intro r r' b h
  cases h
  exact .refl r

theorem Grows.throw (e : Error) : Grows (throw e : ReadM α) := by
  intro r r' b h
  cases h

theorem Grows.lift (x : Traced α) : Grows (liftM x) := by
  intro r r' b h
  obtain ⟨a, _, h⟩ := Traced.bind_eq_ok.mp h
  cases h
  exact .refl r

theorem Grows.bind {m : ReadM α} {f : α → ReadM β} (hm : m.Grows) (hf : ∀ a, (f a).Grows) :
    (m >>= f).Grows := by
  intro r r' b h
  obtain ⟨a, mid, ha, hb⟩ := ReadM.bind_eq_ok.mp h
  exact (hm ha).trans (hf a hb)

/-- Recording a column or an aggregate keeps what was there. -/
theorem record_grows (s : Scalar) : (ReadM.record s).Grows := by
  intro r r' u h
  cases h
  dsimp only
  split
  · exact .refl r
  · exact ⟨List.subset_append_left _ _, List.Subset.refl _⟩

/-- A column that has been recorded is there. -/
theorem column_mem_of_record {token : ColumnToken} {r r' : Reading} {u : Unit}
    (h : ((ReadM.record (.column token)).run r).outcome = .ok (u, r')) :
    .column token ∈ r'.columns := by
  cases h
  dsimp only
  split
  · rename_i hcontains
    obtain ⟨s, hs, hbeq⟩ := List.contains_iff_exists_mem_beq.mp hcontains
    cases s with
    | column other =>
      have heq : token = other := beq_iff_eq.mp hbeq
      exact heq ▸ hs
    | _ => cases hbeq
  · exact List.mem_append_right _ List.mem_cons_self

/-- Recording a member of a record keeps what was there. -/
theorem recordMember_grows (owner : Ty) (member : String) (s : Scalar) :
    (ReadM.recordMember owner member s).Grows := by
  intro r r' u h
  cases h
  exact ⟨List.Subset.refl _, Assoc.keys_subset_keys_put _ _ _⟩

theorem mem_keys_of_recordMember {owner : Ty} {member : String} {s : Scalar} {r r' : Reading}
    {u : Unit} (h : ((ReadM.recordMember owner member s).run r).outcome = .ok (u, r')) :
    (owner, member) ∈ r'.aliases.map Prod.fst := by
  cases h
  exact Assoc.mem_keys_put_self _ _ _

/-- Growing is a law of reading. -/
theorem grows_law : ReadM.Law fun _ m => m.Grows where
  pure := .pure
  throw _ := .throw _
  lift {_ x} _ := .lift x
  bind := .bind
  record := record_grows

end ReadM

/-! ## 2. Expressions -/

namespace Expr

variable {env : Env}

/-- **Reading an expression only adds to the record.** -/
theorem toScalar_grows (e : Expr) : (e.toScalar env).Grows :=
  toScalar_law ReadM.grows_law (fun _ _ _ _ => trivial) (fun _ _ _ _ _ => .lift _) trivial
    fun _ _ s => ReadM.recordMember_grows _ _ s

theorem readMembers_grows (owner : Ty) (members : List (String × Expr)) :
    (readMembers env owner members).Grows :=
  readMembers_law ReadM.grows_law (fun m _ => m.2.toScalar_grows)
    fun _ _ s => ReadM.recordMember_grows _ _ s

/-! ## 3. Records -/

/-- The column that an expression is, if it is nothing else. -/
def token? : Expr → Option ColumnToken
  | .member object name t =>
    if t.isScalar then object.memberPath?.map fun path => ⟨path, name⟩ else none
  | _ => none

/-- Whether an expression is a row or a record that is there already. -/
def isWhole : Expr → Bool
  | .parameter _ _ => true
  | .member _ _ t => !t.isScalar
  | _ => false

/-- A column that is read is recorded. -/
theorem column_mem_of_toScalar {e : Expr} {token : ColumnToken} (he : e.token? = some token)
    {s : Scalar} {r r' : Reading} (h : ((e.toScalar env).run r).outcome = .ok (s, r')) :
    .column token ∈ r'.columns := by
  cases e with
  | member object name t =>
    rw [token?] at he
    split at he
    · obtain ⟨path, hpath, rfl⟩ := Option.map_eq_some_iff.mp he
      rw [toScalar, readMember, hpath] at h
      split at h
      · cases h
      · obtain ⟨_, _, hmeet, h⟩ := ReadM.bind_eq_ok.mp h
        obtain ⟨_, _, hrecord, h⟩ := ReadM.bind_eq_ok.mp h
        cases h
        exact ReadM.column_mem_of_record hrecord
    · cases he
  | _ => cases he

/-- A row or a record that is there already is read without a record. -/
theorem reading_eq_of_isWhole {e : Expr} (he : e.isWhole = true) {s : Scalar} {r r' : Reading}
    (h : ((e.toScalar env).run r).outcome = .ok (s, r')) : r' = r := by
  cases e with
  | parameter name t =>
    cases h
    rfl
  | member object name t =>
    have ht : ¬t.isScalar = true := by simpa [isWhole] using he
    rw [toScalar, readMember] at h
    split at h
    · cases h
    · split at h
      · cases h
      · obtain ⟨_, _, hmeet, h⟩ := ReadM.bind_eq_ok.mp h
        cases hmeet
        cases h
        rfl
  | _ => cases he

/-- **What the members of a record are read from is recorded**: each member under its name, and each
that is a column among the columns. -/
theorem recorded_of_readMembers {owner : Ty} {members : List (String × Expr)} {r r' : Reading}
    {u : Unit} (h : ((readMembers env owner members).run r).outcome = .ok (u, r')) :
    ∀ m ∈ members, (owner, propertyName m.1) ∈ r'.aliases.map Prod.fst ∧
      ∀ token, m.2.token? = some token → .column token ∈ r'.columns := by
  induction members generalizing r with
  | nil => simp
  | cons m rest ih =>
    rw [readMembers] at h
    obtain ⟨value, mid, hvalue, h⟩ := ReadM.bind_eq_ok.mp h
    obtain ⟨_, mid', hmember, h⟩ := ReadM.bind_eq_ok.mp h
    have hrest : mid'.Grows r' := readMembers_grows _ _ h
    refine List.forall_mem_cons.mpr ⟨⟨?_, fun token htoken => ?_⟩, ih h⟩
    · exact hrest.aliases (ReadM.mem_keys_of_recordMember hmember)
    · have hread := column_mem_of_toScalar htoken hvalue
      exact hrest.columns ((ReadM.recordMember_grows _ _ _ hmember).columns hread)

end Expr

/-! ## 4. Lambdas -/

namespace Lambda

variable {env : Env} {arity : Nat} {l : Lambda} {p : Projection}

/-- **A lambda that has been read**: the first parameter, the body, and what was recorded. -/
theorem read_eq_ok : (l.read env arity).outcome = .ok p ↔
    ∃ first rest body reading, l.params = first :: rest ∧ l.params.length = arity ∧
      ((l.body.toScalar env).run {}).outcome = .ok (body, reading) ∧
      p = ⟨first.type, l.returnType, body, reading.columns, reading.aliases⟩ := by
  unfold read
  cases l.params with
  | nil => simp
  | cons first rest =>
    dsimp only
    split
    · rename_i hlength
      have hne : (first :: rest).length ≠ arity := by simpa using hlength
      constructor
      · intro h
        cases h
      · rintro ⟨_, _, _, _, _, harity, _⟩
        exact absurd harity hne
    · rename_i hlength
      have harity : (first :: rest).length = arity := by simpa using hlength
      rw [Traced.bind_eq_ok]
      constructor
      · rintro ⟨⟨body, reading⟩, hbody, h⟩
        cases h
        exact ⟨first, rest, body, reading, rfl, harity, hbody, rfl⟩
      · rintro ⟨_, _, body, reading, hparams, _, hbody, rfl⟩
        cases hparams
        exact ⟨⟨body, reading⟩, hbody, rfl⟩

theorem returnType_of_read (h : (l.read env arity).outcome = .ok p) :
    p.returnType = l.returnType := by
  obtain ⟨_, _, _, _, _, _, _, rfl⟩ := read_eq_ok.mp h
  rfl

theorem parameterType_of_read (h : (l.read env arity).outcome = .ok p) :
    l.params.head?.map Parameter.type = some p.parameterType := by
  obtain ⟨_, _, _, _, hparams, _, _, rfl⟩ := read_eq_ok.mp h
  rw [hparams]
  rfl

/-- A lambda that passes a row on records nothing. -/
theorem read_isWhole (h : (l.read env arity).outcome = .ok p) (hl : l.body.isWhole = true) :
    p.columns = [] ∧ p.aliases = [] := by
  obtain ⟨_, _, _, _, _, _, hbody, rfl⟩ := read_eq_ok.mp h
  obtain rfl := Expr.reading_eq_of_isWhole hl hbody
  exact ⟨rfl, rfl⟩

/-- **What a lambda builds its record from**: every member is there under its name, and those that are
columns are among the columns. -/
theorem recorded_of_read (h : (l.read env arity).outcome = .ok p) {t : Ty}
    {members : List (String × Expr)} (hl : l.body = .new t members) :
    ∀ m ∈ members, propertyName m.1 ∈ p.recordMembers.map Prod.fst ∧
      ∀ token, m.2.token? = some token → .column token ∈ p.columns := by
  obtain ⟨_, _, body, reading, _, _, hbody, rfl⟩ := read_eq_ok.mp h
  rw [hl, Expr.toScalar] at hbody
  obtain ⟨_, _, hmeet, hbody⟩ := ReadM.bind_eq_ok.mp hbody
  obtain ⟨_, reading', hmembers, hbody⟩ := ReadM.bind_eq_ok.mp hbody
  cases hbody
  intro m hm
  obtain ⟨hkey, hcolumns⟩ := Expr.recorded_of_readMembers hmembers m hm
  refine ⟨?_, hcolumns⟩
  obtain ⟨a, ha, hfst⟩ := List.mem_map.mp hkey
  have hreturn : l.returnType = t := by rw [Lambda.returnType, hl]; rfl
  refine List.mem_map.mpr ⟨(a.1.2, a.2), List.mem_map.mpr ⟨a, List.mem_filter.mpr ⟨ha, ?_⟩, rfl⟩, ?_⟩
  · simp [hfst, hreturn]
  · simp [hfst]

end Lambda

/-! ## 5. What a lambda builds -/

/-- **A computation that builds only members of `B`.** -/
def ReadM.Builds {α : Type} (B : Ty × String → Prop) (m : ReadM α) : Prop :=
  ∀ ⦃r r' : Reading⦄ ⦃a : α⦄, (m.run r).outcome = .ok (a, r') → (∀ x ∈ r.aliases, B x.1) →
    ∀ x ∈ r'.aliases, B x.1

theorem Assoc.mem_keys_put {key : Ty × String} {value : Scalar} {m : Aliases}
    {a : (Ty × String) × Scalar} (h : a ∈ Assoc.put key value m) :
    a.1 = key ∨ ∃ b ∈ m, b.1 = a.1 := by
  have hkeys : a.1 ∈ (Assoc.put key value m).map Prod.fst := List.mem_map_of_mem h
  by_cases hkey : key ∈ m.map Prod.fst
  · rw [Assoc.keys_put_of_mem hkey] at hkeys
    exact Or.inr (List.mem_map.mp hkeys)
  · rw [Assoc.put_of_not_mem hkey, List.map_append, List.mem_append] at hkeys
    rcases hkeys with hold | hnew
    · exact Or.inr (List.mem_map.mp hold)
    · exact Or.inl (by simpa using hnew)

namespace ReadM

variable {B : Ty × String → Prop}

theorem recordMember_builds {owner : Ty} {member : String} (h : B (owner, member)) (s : Scalar) :
    (ReadM.recordMember owner member s).Builds B := by
  rintro r r' u ⟨⟩ hr x hx
  rcases Assoc.mem_keys_put hx with hkey | ⟨y, hy, hkey⟩
  · exact hkey ▸ h
  · exact hkey ▸ hr y hy

/-- Building only members of `B` is a law of reading. -/
theorem builds_law (B : Ty × String → Prop) : ReadM.Law fun _ m => m.Builds B where
  pure a := by
    rintro r r' b ⟨⟩
    exact id
  throw _ := nofun
  lift {_ x} _ := by
    intro r r' b h
    obtain ⟨_, _, h⟩ := Traced.bind_eq_ok.mp h
    cases h
    exact id
  bind hm hf := by
    intro r r' b h hr
    obtain ⟨a, mid, ha, hb⟩ := ReadM.bind_eq_ok.mp h
    exact hf a hb (hm ha hr)
  record s := by
    rintro r r' u ⟨⟩ hr
    dsimp only
    split
    · exact hr
    · exact hr

end ReadM

/-- **Reading an expression builds only members that the expression builds.** -/
theorem Expr.mem_built_of_toScalar {env : Env} {e : Expr} {s : Scalar} {reading : Reading}
    (h : ((e.toScalar env).run {}).outcome = .ok (s, reading)) :
    ∀ a ∈ reading.aliases, a.1 ∈ e.built := by
  have hbuilds : (e.toScalar env).Builds (· ∈ e.built) :=
    toScalar_law (ReadM.builds_law _) (fun _ _ _ _ => trivial)
      (fun _ _ _ _ _ => by
        intro r r' b h
        obtain ⟨_, _, h⟩ := Traced.bind_eq_ok.mp h
        cases h
        exact id)
      trivial fun _ hkey s => ReadM.recordMember_builds hkey s
  exact hbuilds h (by simp)

/-- The record that a projection returns has only members of `O`. -/
def Projection.Offers (O : ColumnToken → Prop) (p : Projection) : Prop :=
  ∀ m ∈ p.recordMembers, O ⟨[p.returnType], m.1⟩

/-- A projection that was read from a lambda: it returns what the lambda returns, and the members of
its records are among those that the lambda builds. -/
structure Projection.ReadFrom (l : Lambda) (p : Projection) : Prop where
  returnType : p.returnType = l.returnType
  built : ∀ a ∈ p.aliases, a.1 ∈ l.body.built

theorem Lambda.readFrom_of_read {env : Env} {arity : Nat} {l : Lambda} {p : Projection}
    (h : (l.read env arity).outcome = .ok p) : p.ReadFrom l := by
  obtain ⟨_, _, _, _, _, _, hbody, rfl⟩ := Lambda.read_eq_ok.mp h
  exact ⟨rfl, Expr.mem_built_of_toScalar hbody⟩

theorem Projection.ReadFrom.offers {l : Lambda} {p : Projection} (h : p.ReadFrom l) :
    p.Offers (· ∈ l.offers) := by
  intro m hm
  obtain ⟨a, ha, rfl⟩ := List.mem_map.mp hm
  obtain ⟨ha, howner⟩ := List.mem_filter.mp ha
  have howner : a.1.1 = p.returnType := beq_iff_eq.mp howner
  refine List.mem_map.mpr ⟨a.1, List.mem_filter.mpr ⟨h.built a ha, ?_⟩, ?_⟩
  · exact beq_iff_eq.mpr (howner.trans h.returnType)
  · rw [howner]

/-- The records of a projection have no column that its body does not capture. -/
theorem Projection.ReadFrom.lookup_eq_none {l : Lambda} {p : Projection} (h : p.ReadFrom l)
    {token : ColumnToken} (htoken : l.body.captures token = false) {owner : Ty}
    (howner : token.owner? = some owner) : p.aliases.lookup (owner, token.member) = none := by
  have hbuilt : (owner, token.member) ∉ l.body.built := by
    simpa [Expr.captures, howner] using htoken
  rw [List.lookup_eq_none_iff]
  intro a ha
  have hne : (owner, token.member) ≠ a.1 := fun heq => hbuilt (heq ▸ h.built a ha)
  simpa using hne

end ChainQuery
