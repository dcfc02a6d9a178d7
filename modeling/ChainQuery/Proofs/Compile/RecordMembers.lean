import ChainQuery.Proofs.Compile.AddedProjection
import ChainQuery.Proofs.Compile.AggregateDepth
import ChainQuery.Proofs.Compile.ReadingLaws
import ChainQuery.Proofs.Compile.Recording
/-!
# Reading back the members of a record

The result of a join can be a record whose members are records again, and a filter on the join reads
its members through a path.  All records of a lambda share one list of aliases, in which a member is
known by the type of its record and its name, and an entry is overwritten by the next for the same
member.  So a member is read back as the last expression that any record of its type gave to it
(`Expr.lastDefinition?`, `Lambda.lookup_of_read`).

`Query.toSelect_filter_member` says when a filter on a path is a filter on the expression at its end:
if that is the last one for its member, and it reads no column that a record of the join captures.
Without the first condition another expression is compared (`Query.toSelect_filter_side`).
-/

namespace ChainQuery

/-! ## 1. Steady computations -/

/-- The value of a computation does not depend on what has been recorded before. -/
def ReadM.Steady (α : Type) (m : ReadM α) : Prop :=
  ∀ ⦃r r' : Reading⦄ ⦃a : α⦄, (m.run r).outcome = .ok (a, r') →
    ∀ r₀, ∃ r₀', (m.run r₀).outcome = .ok (a, r₀')

theorem ReadM.steady_lift {α : Type} (x : Traced α) : ReadM.Steady α (liftM x) := by
  intro r r' a h r₀
  obtain ⟨a, ha, h⟩ := Traced.bind_eq_ok.mp h
  cases h
  exact ⟨r₀, Traced.bind_eq_ok.mpr ⟨_, ha, rfl⟩⟩

theorem ReadM.steady_law : ReadM.Law ReadM.Steady where
  pure a := by
    intro r r' b h r₀
    cases h
    exact ⟨r₀, rfl⟩
  throw _ := by
    intro r r' b h
    cases h
  lift {α x} _ := ReadM.steady_lift x
  bind := by
    intro α β m f hm hf r r' b h r₀
    obtain ⟨a, mid, ha, hb⟩ := ReadM.bind_eq_ok.mp h
    obtain ⟨mid₀, ha₀⟩ := hm ha r₀
    obtain ⟨r₀', hb₀⟩ := hf a hb mid₀
    exact ⟨r₀', ReadM.bind_eq_ok.mpr ⟨a, mid₀, ha₀, hb₀⟩⟩
  record s := fun _ _ _ _ _ => ⟨_, rfl⟩

/-- **What an expression is read as does not depend on what was read before it.** -/
theorem Expr.toScalar_steady (env : Env) (e : Expr) : ReadM.Steady Scalar (e.toScalar env) :=
  toScalar_law ReadM.steady_law (fun _ _ _ _ => trivial)
    (fun _ _ _ _ _ => ReadM.steady_lift _) trivial fun _ _ _ _ _ _ _ _ => ⟨_, rfl⟩

/-- A computation that records no member. -/
def ReadM.KeepsAliases (α : Type) (m : ReadM α) : Prop :=
  ∀ ⦃r r' : Reading⦄ ⦃a : α⦄, (m.run r).outcome = .ok (a, r') → r'.aliases = r.aliases

theorem ReadM.keepsAliases_lift {α : Type} (x : Traced α) : ReadM.KeepsAliases α (liftM x) := by
  intro r r' a h
  obtain ⟨a, ha, h⟩ := Traced.bind_eq_ok.mp h
  cases h
  rfl

theorem ReadM.keepsAliases_law : ReadM.Law ReadM.KeepsAliases where
  pure a := by
    intro r r' b h
    cases h
    rfl
  throw _ := by
    intro r r' b h
    cases h
  lift {α x} _ := ReadM.keepsAliases_lift x
  bind := by
    intro α β m f hm hf r r' b h
    obtain ⟨a, mid, ha, hb⟩ := ReadM.bind_eq_ok.mp h
    rw [hf a hb, hm ha]
  record s := by
    intro r r' u h
    cases h
    dsimp only
    split
    · rfl
    · rfl

/-- **An expression that builds no record records no member.** -/
theorem Expr.aliases_of_toScalar {env : Env} {e : Expr} (he : e.built = []) :
    ReadM.KeepsAliases Scalar (e.toScalar env) := by
  refine toScalar_law ReadM.keepsAliases_law (fun _ _ _ _ => trivial)
    (fun _ _ _ _ _ => ReadM.keepsAliases_lift _) trivial fun key hkey => ?_
  rw [he] at hkey
  cases hkey

/-! ## 2. What records are built from -/

namespace Expr

/-- **What the members of records are built from**, in the order of reading.  The members of a record
come after those of the records in it. -/
def definitions (e : Expr) : List ((Ty × String) × Expr) :=
  e.fold fun node below =>
    match node with
    | .new t members =>
      (List.zipWith (fun m inner => inner ++ [((t, propertyName m.1), m.2)]) members below).flatten
    | _ => []

/-- The last expression that a member of a record is built from. -/
def lastDefinition? (e : Expr) (owner : Ty) (member : String) : Option Expr :=
  e.definitions.reverse.lookup (owner, member)

/-- **A tree of records**: a record whose members are such trees, or an expression that builds no
record. -/
inductive RecordTree : Expr → Prop
  | leaf {e : Expr} (h : e.built = []) : RecordTree e
  | new (t : Ty) {members : List (String × Expr)} (h : ∀ m ∈ members, RecordTree m.2) :
      RecordTree (.new t members)

theorem definitions_new (t : Ty) (members : List (String × Expr)) :
    (new t members).definitions
      = members.flatMap fun m => m.2.definitions ++ [((t, propertyName m.1), m.2)] := by
  rw [definitions, fold_eq]
  simp only [children, List.map_map, List.zipWith_map_right, List.zipWith_self, List.flatMap_def]
  rfl

theorem definitions_of_built_eq_nil {e : Expr} (h : e.built = []) : e.definitions = [] := by
  cases e with
  | new t members =>
    cases members with
    | nil => rfl
    | cons m rest =>
      have hm := mem_built_new (t := t) (List.mem_cons_self (a := m) (l := rest))
      rw [h] at hm
      cases hm
  | _ => rw [definitions, fold_eq]

/-- An expression is read as a scalar, after whatever else was read. -/
def ReadsAs (env : Env) (e : Expr) (s : Scalar) : Prop :=
  ∃ r r', ((e.toScalar env).run r).outcome = .ok (s, r')

/-- What an expression is read as is what it is read as by itself. -/
theorem ReadsAs.run {env : Env} {e : Expr} {s : Scalar} (h : e.ReadsAs env s) (r : Reading) :
    ∃ r', ((e.toScalar env).run r).outcome = .ok (s, r') := by
  obtain ⟨_, _, h⟩ := h
  exact e.toScalar_steady env h r

end Expr

/-- **Members of records have been given new values**: each of those in a list of definitions has that
of its last definition, and all others are as before. -/
structure Aliases.Updated (env : Env) (definitions : List ((Ty × String) × Expr))
    (before after : Aliases) : Prop where
  defined : ∀ key e, definitions.reverse.lookup key = some e →
    ∃ s, e.ReadsAs env s ∧ after.lookup key = some s
  kept : ∀ key, definitions.reverse.lookup key = none → after.lookup key = before.lookup key

namespace Aliases.Updated

variable {env : Env} {ds ds' : List ((Ty × String) × Expr)} {m m' m'' : Aliases}

theorem refl (m : Aliases) : Aliases.Updated env [] m m := ⟨by simp, fun _ _ => rfl⟩

theorem put {e : Expr} {s : Scalar} (hs : e.ReadsAs env s) (key : Ty × String) (m : Aliases) :
    Aliases.Updated env [(key, e)] m (Assoc.put key s m) := by
  refine ⟨fun other e' he' => ?_, fun other hnone => ?_⟩
  · by_cases hkey : other = key
    · subst hkey
      obtain rfl : e = e' := by simpa using he'
      exact ⟨s, hs, Assoc.lookup_put_self other s m⟩
    · simp [List.lookup_cons, beq_eq_false_iff_ne.mpr hkey] at he'
  · have hkey : other ≠ key := by
      rintro rfl
      simp at hnone
    exact Assoc.lookup_put_of_ne hkey s m

/-- **Later definitions win.** -/
theorem trans (h : Aliases.Updated env ds m m') (h' : Aliases.Updated env ds' m' m'') :
    Aliases.Updated env (ds ++ ds') m m'' := by
  refine ⟨fun key e he => ?_, fun key hnone => ?_⟩
  · rw [List.reverse_append, List.lookup_append] at he
    rcases Option.or_eq_some_iff.mp he with hlater | ⟨hlater, hearlier⟩
    · exact h'.defined key e hlater
    · rw [h'.kept key hlater]
      exact h.defined key e hearlier
  · rw [List.reverse_append, List.lookup_append, Option.or_eq_none_iff] at hnone
    rw [h'.kept key hnone.1, h.kept key hnone.2]

end Aliases.Updated

namespace Expr

variable {env : Env}

/-- Reading the members of a record gives each of them its value, after the records inside it. -/
theorem updated_of_readMembers {owner : Ty} {members : List (String × Expr)}
    (h : ∀ m ∈ members, ∀ ⦃s r r'⦄, ((m.2.toScalar env).run r).outcome = .ok (s, r') →
      Aliases.Updated env m.2.definitions r.aliases r'.aliases)
    {r r' : Reading} {u : Unit}
    (hread : ((readMembers env owner members).run r).outcome = .ok (u, r')) :
    Aliases.Updated env
      (members.flatMap fun m => m.2.definitions ++ [((owner, propertyName m.1), m.2)])
      r.aliases r'.aliases := by
  induction members generalizing r with
  | nil =>
    cases hread
    exact .refl _
  | cons m rest ih =>
    obtain ⟨hm, hrest⟩ := List.forall_mem_cons.mp h
    rw [readMembers] at hread
    obtain ⟨s, mid, hs, hread⟩ := ReadM.bind_eq_ok.mp hread
    obtain ⟨_, mid', hrecord, hread⟩ := ReadM.bind_eq_ok.mp hread
    cases hrecord
    have hput := Aliases.Updated.put ⟨r, mid, hs⟩ (owner, propertyName m.1) mid.aliases
    exact ((hm hs).trans hput).trans (ih hrest hread)

/-- **Reading a tree of records gives every member the value of its last definition.** -/
theorem RecordTree.updated {e : Expr} (he : e.RecordTree) {s : Scalar} {r r' : Reading}
    (h : ((e.toScalar env).run r).outcome = .ok (s, r')) :
    Aliases.Updated env e.definitions r.aliases r'.aliases := by
  induction he generalizing s r r' with
  | leaf hbuilt =>
    rw [definitions_of_built_eq_nil hbuilt, aliases_of_toScalar hbuilt h]
    exact .refl _
  | new t _ ih =>
    rw [toScalar] at h
    obtain ⟨_, _, hmeet, h⟩ := ReadM.bind_eq_ok.mp h
    obtain ⟨_, _, hmembers, h⟩ := ReadM.bind_eq_ok.mp h
    cases h
    cases hmeet
    rw [definitions_new]
    exact updated_of_readMembers (fun m hm _ _ _ hread => ih m hm hread) hmembers

end Expr

/-- **A member of a record is read back as the last expression that it was built from.** -/
theorem Lambda.lookup_of_read {env : Env} {arity : Nat} {l : Lambda} {p : Projection}
    (hread : (l.read env arity).outcome = .ok p) (htree : l.body.RecordTree) {owner : Ty}
    {member : String} {e : Expr} (he : l.body.lastDefinition? owner member = some e) :
    ∃ s, e.ReadsAs env s ∧ p.aliases.lookup (owner, member) = some s := by
  obtain ⟨_, _, _, _, _, _, hbody, rfl⟩ := Lambda.read_eq_ok.mp hread
  exact (htree.updated hbody).defined _ e he

/-! ## 3. Paths through records -/

namespace Expr

/-- **A path through a tree of records**: from a parameter that stands for all of it, by the names of
members, to an expression in it. -/
inductive LeadsTo (x : Parameter) (body : Expr) : Expr → Expr → Prop
  | root (h : x.type = body.type) : LeadsTo x body x.reference body
  | member {object : Expr} {t : Ty} {members : List (String × Expr)} {name : String} {e : Expr}
      (hobject : LeadsTo x body object (.new t members)) (h : (name, e) ∈ members) :
      LeadsTo x body (.member object name e.type) e

namespace LeadsTo

variable {x : Parameter} {body path e : Expr}

/-- The last type of a path is that of the expression to which it leads. -/
theorem memberPath?_eq (h : LeadsTo x body path e) :
    ∃ types, path.memberPath? = some types ∧ types.getLast? = some e.type := by
  induction h with
  | root htype => exact ⟨[x.type], rfl, congrArg some htype⟩
  | @member object _ _ _ e _ _ ih =>
    obtain ⟨types, htypes, _⟩ := ih
    refine ⟨types ++ [e.type], ?_, List.getLast?_concat⟩
    rw [memberPath?, htypes, Option.map_some]

/-- Neither a path nor what it leads to has aggregates deeper than the tree. -/
theorem aggregateDepth_le (h : LeadsTo x body path e) :
    path.aggregateDepth ≤ body.aggregateDepth ∧ e.aggregateDepth ≤ body.aggregateDepth := by
  induction h with
  | root => exact ⟨Nat.zero_le _, le_refl _⟩
  | member _ hmem ih =>
    refine ⟨Expr.aggregateDepth_le rfl (List.forall_mem_singleton.mpr ih.1), ?_⟩
    exact le_trans (aggregateDepth_le_of_child (List.mem_map_of_mem hmem)) ih.2

end LeadsTo

variable {env : Env}

/-- A member of scalar type is read as a column. -/
theorem ReadsAs.eq_column {object : Expr} {name : String} {t : Ty} {types : List Ty} {s : Scalar}
    (h : (member object name t).ReadsAs env s) (ht : t.isScalar = true)
    (htypes : object.memberPath? = some types) : s = .column ⟨types, name⟩ := by
  obtain ⟨r, r', h⟩ := h
  rw [toScalar, readMember, htypes, ht] at h
  split at h
  · cases h
  · obtain ⟨_, _, _, h⟩ := ReadM.bind_eq_ok.mp h
    obtain ⟨_, _, _, h⟩ := ReadM.bind_eq_ok.mp h
    cases h
    rfl

/-- **A lambda over an operator is read as the operator over what its sides are read as.** -/
theorem exists_read_binary {x : Parameter} {op : BinaryOp} {left right : Expr} {s : Scalar} :
    (∃ p, (Lambda.read env 1 ⟨[x], .binary op left right⟩).outcome = .ok p ∧ p.body = s) ↔
      ∃ l r, left.ReadsAs env l ∧ right.ReadsAs env r ∧ s = .binary op l r := by
  constructor
  · rintro ⟨p, hp, rfl⟩
    obtain ⟨_, _, _, _, _, _, hbody, rfl⟩ := Lambda.read_eq_ok.mp hp
    rw [toScalar] at hbody
    obtain ⟨l, _, hl, hbody⟩ := ReadM.bind_eq_ok.mp hbody
    obtain ⟨r, _, hr, hbody⟩ := ReadM.bind_eq_ok.mp hbody
    cases hbody
    exact ⟨l, r, ⟨_, _, hl⟩, ⟨_, _, hr⟩, rfl⟩
  · rintro ⟨l, r, hl, hr, rfl⟩
    obtain ⟨mid, hl⟩ := hl.run {}
    obtain ⟨reading, hr⟩ := hr.run mid
    have hbody : (((binary op left right).toScalar env).run {}).outcome
        = .ok (.binary op l r, reading) := by
      rw [toScalar]
      exact ReadM.bind_eq_ok.mpr ⟨l, mid, hl, ReadM.bind_eq_ok.mpr ⟨r, reading, hr, rfl⟩⟩
    exact ⟨_, Lambda.read_eq_ok.mpr ⟨x, [], _, _, rfl, rfl, hbody, rfl⟩, rfl⟩

end Expr

/-! ## 4. Filters on members -/

theorem Scalar.resolve_equal_eq_ok {dialect : Dialect} {subqueries : Subqueries} {scope : Scope}
    {position : Position} {left right : Scalar} {e : Sql.Expr} (hleft : left.isNull = false)
    (hright : right.isNull = false) :
    ((binary .equal left right).resolve dialect subqueries scope position).outcome = .ok e ↔
      ∃ x y, (left.resolve dialect subqueries scope position).outcome = .ok x ∧
        (right.resolve dialect subqueries scope position).outcome = .ok y ∧ e = .op x "=" y := by
  conv_lhs => unfold resolve
  rw [hleft, hright, Traced.bind_eq_ok]
  constructor
  · rintro ⟨x, hx, h⟩
    obtain ⟨y, hy, h⟩ := Traced.bind_eq_ok.mp h
    cases h
    exact ⟨x, y, hx, hy, rfl⟩
  · rintro ⟨x, y, hx, hy, rfl⟩
    exact ⟨x, hx, Traced.bind_eq_ok.mpr ⟨y, hy, rfl⟩⟩

/-- A constant other than null is not read as null. -/
theorem Expr.ReadsAs.isNull_constant {env : Env} {value : Literal} {t : Ty} {s : Scalar}
    (h : (Expr.constant value t).ReadsAs env s) (hvalue : value ≠ .null) : s.isNull = false := by
  obtain ⟨_, _, h⟩ := h
  rw [Expr.toScalar] at h
  obtain ⟨_, hread, h⟩ := Traced.bind_eq_ok.mp h
  cases h
  unfold Expr.readConstant at hread
  split at hread
  · exact absurd rfl hvalue
  · split at hread
    · cases hread
      rfl
    · cases hread
  · cases hread
  · cases hread
    rfl

/-- **Records do not change what reads none of their members.** -/
theorem Expr.ReadsAs.resolve_withLayer {env : Env} {e : Expr} {s : Scalar} (h : e.ReadsAs env s)
    {l : Lambda} {p : Projection} (hp : p.ReadFrom l)
    (hcaptures : ∀ token ∈ e.reads env.schema, l.body.captures token = false) (levels depth : Nat)
    (source : Source) {position : Position} {x : Sql.Expr}
    (hx : (s.resolve env.dialect (Correlated.toSelect env levels)
      (Frame.scope env (Correlated.toSelect env levels) ⟨depth, source, none⟩ []) position).outcome
      = .ok x) :
    (s.resolve env.dialect (Correlated.toSelect env levels)
      (Frame.scope env (Correlated.toSelect env levels) ⟨depth, source, none⟩ [p.aliases])
      position).outcome = .ok x := by
  -- both scopes beside each other, on the columns that the records do not capture
  let C : Coupling :=
    .self env fun token => l.body.captures token = false
  have hcoupled : s.Coupled C s := by
    have he : e.Coupled C e := Expr.coupled_self hcaptures
    obtain ⟨_, hrun⟩ := h.run {}
    exact ((he Reading.coupled_empty).related hrun hrun).1
  have hsub : Subqueries.Coupled C (Correlated.toSelect env levels) (Correlated.toSelect env levels) :=
    Correlated.toSelect_coupled Coupling.renaming_sound (Nat.le_refl levels) fun h => h.1.elim
  have hscope := (Frame.scope_coupled (C := C) depth source .none hsub .nil).withLayer
    fun token htoken owner howner => hp.lookup_eq_none htoken howner
  obtain ⟨_, hy, rfl⟩ := (Scalar.resolve_coupled hsub hscope hcoupled).forth x hx
  rw [Coupling.param_eq_id rfl, Sql.Expr.mapParams_id] at hy
  exact hy

/-- A column of a record is what the record has for its member, in the layers below. -/
theorem Frame.resolve_of_lookup {env : Env} {subqueries : Subqueries} {frame : Frame}
    {layer : Aliases} {below : List Aliases} {token : ColumnToken} {owner : Ty} {s : Scalar}
    {position : Position} {x : Sql.Expr}
    (hx : (frame.bindThrough env subqueries (layer :: below) token position).outcome = .ok x)
    (howner : token.owner? = some owner) (hlookup : layer.lookup (owner, token.member) = some s) :
    (s.resolve env.dialect subqueries (frame.scope env subqueries below) position).outcome
      = .ok x := by
  rcases Frame.bindThrough_cons_eq_ok.mp hx with ⟨owner', s', howner', hlookup', hx⟩ | ⟨hnone, _⟩
  · obtain rfl := Option.some.inj (howner.symm.trans howner')
    obtain rfl := Option.some.inj (hlookup.symm.trans hlookup')
    exact hx
  · rw [hnone owner howner] at hlookup
    cases hlookup

theorem Query.aggregateDepth_filter {source : Query} {predicate : Lambda}
    (h : predicate.body.aggregateDepth ≤ source.aggregateDepth) :
    (Query.filter source predicate).aggregateDepth = source.aggregateDepth := max_eq_left h

/-- A comparison with a constant has aggregates no deeper than what is compared. -/
theorem Expr.aggregateDepth_equal_le {e : Expr} {value : Literal} {t : Ty} {n : Nat}
    (h : e.aggregateDepth ≤ n) :
    (Expr.binary .equal e (.constant value t)).aggregateDepth ≤ n :=
  Expr.aggregateDepth_le rfl
    (List.forall_mem_cons.mpr ⟨h, List.forall_mem_singleton.mpr (Nat.zero_le n)⟩)

/-- **A filter on a member of a record is a filter on what the member was built from**, if that is the
last expression for a member of this type and name and reads no member of the records itself: the
same selection, which compares the two sides with `=`. -/
theorem Query.toSelect_filter_member {env : Env} {outer inner : Query}
    {outerKey innerKey result : Lambda} (htree : result.body.RecordTree) {x : Parameter}
    {object : Expr} {owner : Ty} {members : List (String × Expr)} {name : String} {e : Expr}
    (hobject : Expr.LeadsTo x result.body object (.new owner members))
    (hmember : (name, e) ∈ members) (hscalar : e.type.isScalar = true)
    (hlast : result.body.lastDefinition? owner name = some e)
    (hcaptures : ∀ token ∈ e.reads env.schema, result.body.captures token = false)
    (hnull : ∀ s, e.ReadsAs env s → s.isNull = false) {value : Literal} (hvalue : value ≠ .null)
    {t : Ty} {select : Sql.Select}
    (h : ((Query.filter (.join outer inner outerKey innerKey result)
      ⟨[x], .binary .equal (.member object name e.type) (.constant value t)⟩).toSelect env).outcome
        = .ok select) :
    ((Query.filter (.join outer inner outerKey innerKey result)
      ⟨[x], .binary .equal e (.constant value t)⟩).toSelect env).outcome = .ok select ∧
    ∃ left right, select.filter = .op left "=" right := by
  obtain ⟨s, lifted, hstatement, hselect⟩ := Query.toSelect_eq_ok.mp h
  obtain ⟨types, htypes, howner⟩ := hobject.memberPath?_eq
  obtain ⟨hpathDepth, heDepth⟩ := (hobject.member hmember).aggregateDepth_le
  have hdepth : result.body.aggregateDepth
      ≤ (Query.join outer inner outerKey innerKey result).aggregateDepth :=
    le_trans (le_max_right _ _) (le_max_right _ _)
  cases Query.toStatement_eq_ok.mp hstatement with
  | filter hgrouped hfirst hread hsource =>
    cases hsource with
    | join houterKey hinnerKey hresult hleft hright hdiffer =>
      rw [Query.aggregateDepth_filter (le_trans (Expr.aggregateDepth_equal_le hpathDepth) hdepth)]
        at hselect
      obtain ⟨list, joins, filter, orderBy, hjoins, hlist, hfilter, horder, rfl⟩ :=
        Statement.assemble_eq_ok.mp hselect
      obtain ⟨column, constant, hcolumn, hconstant, hbody⟩ :=
        Expr.exists_read_binary.mp ⟨_, hread, rfl⟩
      obtain rfl := hcolumn.eq_column hscalar htypes
      obtain ⟨s, hs, hlookup⟩ := Lambda.lookup_of_read hresult htree hlast
      have hconstantNull := hconstant.isNull_constant hvalue
      change (Binder.resolve _ .predicate _).outcome = _ at hfilter
      rw [hbody] at hfilter
      obtain ⟨left, right, hleftSql, hrightSql, rfl⟩ :=
        (Scalar.resolve_equal_eq_ok rfl hconstantNull).mp hfilter
      -- the column is bound to what the record has for the member, and that binds its own columns alike
      have hbound : (Frame.bindThrough env _ _ [_] ⟨types, name⟩ .predicate).outcome = .ok left :=
        hleftSql
      have hsSql := hs.resolve_withLayer (Lambda.readFrom_of_read hresult) hcaptures _ _ _
        (Frame.resolve_of_lookup hbound howner hlookup)
      obtain ⟨p, hread', hbody'⟩ :=
        Expr.exists_read_binary.mpr ⟨s, constant, hs, hconstant, rfl⟩
      have hfilter' := (Scalar.resolve_equal_eq_ok (hnull s hs) hconstantNull).mpr
        ⟨left, right, hsSql, hrightSql, rfl⟩
      refine ⟨Query.toSelect_eq_ok.mpr ⟨_, lifted, Query.toStatement_eq_ok.mpr
        (.filter hgrouped hfirst hread'
          (.join houterKey hinnerKey hresult hleft hright hdiffer)), ?_⟩, left, right, rfl⟩
      rw [Query.aggregateDepth_filter (le_trans (Expr.aggregateDepth_equal_le heDepth) hdepth)]
      refine Statement.assemble_eq_ok.mpr
        ⟨list, joins, _, orderBy, hjoins, hlist, ?_, horder, rfl⟩
      rw [← hbody'] at hfilter'
      exact hfilter'

/-! ## 5. Records of records -/

namespace Shop

/-- The number of a row, in a record of the given name. -/
def numbered (name : String) (p : Parameter) : Expr := .record name [("Number", field p "Id")]

/-- A customer. -/
def aCustomer : Parameter := ⟨"c", .row "Customer"⟩

/-- An order. -/
def anOrder : Parameter := ⟨"o", .row "Order"⟩

/-- A record of the numbers of a customer and an order, each in a record of the given name. -/
def bothNumbers (left right : String) : Expr :=
  .record "Both" [("Left", numbered left aCustomer), ("Right", numbered right anOrder)]

/-- The records of the customers with their orders for which an expression is five. -/
def bothNumbersWhere (left right : String) (e : Expr) : Query :=
  .filter
    (.join (.table "Customer") (.table "Order") ⟨[aCustomer], field aCustomer "Id"⟩
      ⟨[anOrder], field anOrder "CustomerId"⟩ ⟨[aCustomer, anOrder], bothNumbers left right⟩)
    ⟨[⟨"r", (bothNumbers left right).type⟩], .binary .equal e
      (.constant (.int 5) (.scalar .int64))⟩

/-- The left record of both. -/
def leftOfBoth (left right : String) : Expr :=
  Parameter.member ⟨"r", (bothNumbers left right).type⟩ "Left" (numbered left aCustomer).type

/-- The number in the left record of both. -/
def leftNumber (left right : String) : Expr :=
  .member (leftOfBoth left right) "Number" (.scalar .int32)

theorem recordTree_bothNumbers (left right : String) : (bothNumbers left right).RecordTree := by
  refine .new _ (List.forall_mem_cons.mpr ⟨?_, List.forall_mem_singleton.mpr ?_⟩)
  · exact .new _ (List.forall_mem_singleton.mpr (.leaf rfl))
  · exact .new _ (List.forall_mem_singleton.mpr (.leaf rfl))

/-- The path to the left record. -/
theorem leftOfBoth_leadsTo (left right : String) :
    Expr.LeadsTo ⟨"r", (bothNumbers left right).type⟩ (bothNumbers left right)
      (leftOfBoth left right) (numbered left aCustomer) :=
  .member (.root rfl) List.mem_cons_self

end Shop

/-- The two numbers in records of different names: the left one is that of the customer. -/
theorem Query.toSelect_filter_buyer :
    let env : Env := ⟨Shop.schema, {}⟩
    let body : Expr := Shop.bothNumbers "Buyer" "Purchase"
    let e : Expr := Shop.field Shop.aCustomer "Id"
    body.RecordTree ∧
    Expr.LeadsTo ⟨"r", body.type⟩ body (Shop.leftOfBoth "Buyer" "Purchase")
      (Shop.numbered "Buyer" Shop.aCustomer) ∧
    body.lastDefinition? (Shop.numbered "Buyer" Shop.aCustomer).type "Number" = some e ∧
    (∀ token ∈ e.reads env.schema, body.captures token = false) ∧
    ∃ select, ((Shop.bothNumbersWhere "Buyer" "Purchase"
        (Shop.leftNumber "Buyer" "Purchase")).toSelect env).outcome = .ok select ∧
      ((Shop.bothNumbersWhere "Buyer" "Purchase" e).toSelect env).outcome = .ok select ∧
      select.filter = .op (.tableColumn "Customer" "Id") "=" (.param (.int 5)) := by
  intro env body e
  have htree : body.RecordTree := Shop.recordTree_bothNumbers _ _
  have hobject := Shop.leftOfBoth_leadsTo "Buyer" "Purchase"
  have hlast : body.lastDefinition? (Shop.numbered "Buyer" Shop.aCustomer).type "Number" = some e :=
    rfl
  have hcaptures : ∀ token ∈ e.reads env.schema, body.captures token = false := by decide
  have hnull : ∀ s, e.ReadsAs env s → s.isNull = false := by
    rintro s ⟨r, r', h⟩
    cases h
    rfl
  exact ⟨htree, hobject, hlast, hcaptures, _, rfl,
    (Query.toSelect_filter_member htree hobject List.mem_cons_self rfl hlast hcaptures hnull
      (by simp) rfl).1, rfl⟩

/-- **Two records of one type in a record share their members.**  The number in the left record is that
of the customer, but a filter on it compares the number of the order, which was read last. -/
theorem Query.toSelect_filter_side :
    let env : Env := ⟨Shop.schema, {}⟩
    let five (table : String) : Sql.Expr := .op (.tableColumn table "Id") "=" (.param (.int 5))
    Expr.LeadsTo ⟨"r", (Shop.bothNumbers "Side" "Side").type⟩ (Shop.bothNumbers "Side" "Side")
      (Shop.leftNumber "Side" "Side") (Shop.field Shop.aCustomer "Id") ∧
    ∃ select select',
      ((Shop.bothNumbersWhere "Side" "Side" (Shop.leftNumber "Side" "Side")).toSelect env).outcome
        = .ok select ∧
      ((Shop.bothNumbersWhere "Side" "Side" (Shop.field Shop.aCustomer "Id")).toSelect env).outcome
        = .ok select' ∧
      select.filter = five "Order" ∧ select'.filter = five "Customer" ∧
      select.filter ≠ select'.filter := by
  intro env five
  refine ⟨.member (Shop.leftOfBoth_leadsTo "Side" "Side") List.mem_cons_self, _, _, rfl, rfl, rfl,
    rfl, fun h => ?_⟩
  have htable : five "Order" = five "Customer" := h
  simp [five, Sql.Expr.tableColumn] at htable

end ChainQuery
