import ChainQuery.Proofs.Schema.Validated
/-!
# What the query of an aggregate is

An aggregate over related rows is compiled iff its arguments are a collection that a navigation of the
schema leads to, and a selector of one parameter if there is any (`Correlated.Call`).
`Correlated.ofCall_eq_ok` says so, and what the query then is: the rows of the navigation's target,
under a filter that compares their foreign key with the primary key of the row at hand.
-/

namespace ChainQuery

/-- **A navigation that can be followed**: from one row type to the rows of another that refer to it
by a foreign key. -/
structure Navigation (s : Schema) where
  parentName : String
  childName : String
  parent : RowType
  child : RowType
  /-- The member that leads from a row to those that refer to it. -/
  member : String
  /-- The member of the related rows that refers back, and its column. -/
  foreignKey : String
  reference : Column
  /-- The column of the primary key. -/
  key : Column
  parent_eq : s.rowTypes.lookup parentName = some parent
  child_eq : s.rowTypes.lookup childName = some child
  member_eq : parent.navigations.lookup member = some childName
  foreignKey_eq : child.foreignKeys.lookup parentName = some foreignKey
  reference_eq : child.columns.lookup foreignKey = some reference
  key_eq : parent.columns.lookup parent.primaryKey = some key

/-- **Every navigation of a schema that can be relied on can be followed.** -/
theorem Schema.Valid.exists_navigation {s : Schema} (hs : s.Valid)
    {parentName childName member : String} {parent : RowType}
    (hparent : s.rowTypes.lookup parentName = some parent)
    (hmember : parent.navigations.lookup member = some childName) :
    ∃ n : Navigation s, n.parentName = parentName ∧ n.parent = parent ∧ n.member = member ∧
      n.childName = childName := by
  obtain ⟨child, foreignKey, hchild, hforeignKey⟩ := hs.navigation hparent hmember
  obtain ⟨reference, hreference⟩ := hs.foreignKey hchild hforeignKey
  obtain ⟨key, hkey⟩ := hs.primaryKey hparent
  exact ⟨⟨parentName, childName, parent, child, member, foreignKey, reference, key, hparent, hchild,
    hmember, hforeignKey, hreference, hkey⟩, rfl, rfl, rfl, rfl⟩

/-- The collection of the related rows of an object. -/
def Navigation.collection {s : Schema} (n : Navigation s) (object : Expr) : Expr :=
  .member object n.member (.collection (.row n.childName))

theorem Ty.row?_eq_some {t : Ty} {name : String} : t.row? = some name ↔ t = .row name := by
  cases t <;> simp [row?]

theorem Ty.element?_eq_some {t u : Ty} : t.element? = some u ↔ t = .collection u := by
  cases t <;> simp [element?]

namespace Correlated

/-- **The arguments of an aggregate over a navigation**: the collection, and a selector of one
parameter if there is any. -/
structure Call (schema : Schema) (args : List Expr) where
  navigation : Navigation schema
  /-- The row whose related rows are meant, and how it is reached. -/
  object : Expr
  path : List Ty
  selector : Option Lambda
  args_eq : arguments? args = some (navigation.collection object, selector)
  type_eq : object.type = .row navigation.parentName
  path_eq : object.memberPath? = some path
  arity : ∀ l, selector = some l → l.params.length = 1

/-- Arguments that are mapped under the parameters of lambdas are still a collection and a selector. -/
theorem arguments?_map_of_lambda {f : Expr → Expr}
    (hf : ∀ params body, f (.lambda params body) = .lambda params (f body)) {args : List Expr}
    {source : Expr} {selector : Option Lambda} (h : arguments? args = some (source, selector)) :
    arguments? (args.map f)
      = some (f source, selector.map fun l => { l with body := f l.body }) := by
  unfold arguments? at h
  split at h
  · cases h
    rfl
  · cases h
    rw [List.map_cons, List.map_singleton, hf]
    rfl
  · cases h

/-- The arguments of an aggregate with a selector. -/
theorem eq_of_arguments?_eq_some {args : List Expr} {source : Expr} {l : Lambda}
    (h : arguments? args = some (source, some l)) : args = [source, l.toExpr] := by
  unfold arguments? at h
  split at h
  · cases h
  · cases h
    rfl
  · cases h

namespace Call

variable {schema : Schema} {args : List Expr} (k : Call schema args)

theorem collection_mem : k.navigation.collection k.object ∈ args := by
  have hargs := k.args_eq
  unfold arguments? at hargs
  split at hargs
  · rw [← (Prod.mk.inj (Option.some.inj hargs)).1]
    exact List.mem_cons_self
  · rw [← (Prod.mk.inj (Option.some.inj hargs)).1]
    exact List.mem_cons_self
  · cases hargs

theorem selector_mem {l : Lambda} (hl : k.selector = some l) : l.toExpr ∈ args := by
  have hargs := eq_of_arguments?_eq_some (hl ▸ k.args_eq)
  rw [hargs]
  exact List.mem_cons_of_mem _ List.mem_cons_self

/-- The parameter that stands for a related row. -/
def row : Parameter :=
  (k.selector.bind fun l => l.params.head?).getD ⟨"src", .row k.navigation.childName⟩

/-- The parameter is known by the selector's parameters and the related rows. -/
theorem row_eq {args' : List Expr} {k : Call schema args} {k' : Call schema args'}
    (hchild : k.navigation.childName = k'.navigation.childName)
    (hparams : k.selector.map Lambda.params = k'.selector.map Lambda.params) : k.row = k'.row := by
  have hfirst : ∀ selector : Option Lambda, (selector.bind fun l => l.params.head?)
      = (selector.map Lambda.params).bind List.head? := by
    rintro (_ | l) <;> rfl
  rw [row, row, hfirst, hfirst, hparams, hchild]

/-- The foreign key of a related row. -/
def reference : Expr := k.row.member k.navigation.foreignKey (.scalar k.navigation.reference.type)

/-- The primary key of the row at hand. -/
def key : Expr :=
  .member k.object k.navigation.parent.primaryKey (.scalar k.navigation.key.type)

/-- The query of the aggregate, with its filter and its projection. -/
def query (predicate : Expr) (projection : Lambda) : Query :=
  .select (.filter (.table k.navigation.childName) ⟨[k.row], predicate⟩) projection

end Call

/-- **What holds of the parts of an aggregate holds of the filter and the projection of its query**, if
a filter and a pair have it from their parts. -/
theorem clauses_parts {P : Expr → Prop} {text : String} {a : Aggregate} {row : Parameter}
    {reference correlation predicate : Expr} {selector : Option Lambda} {projection : Lambda}
    {nested : Bool}
    (h : clauses text a row reference correlation selector = .ok (predicate, projection, nested))
    (hcorrelation : P correlation) (hrow : P row.reference)
    (hselector : ∀ l, selector = some l → P l.body)
    (hand : ∀ body, P body → P (.binary .and correlation body))
    (hpair : ∀ body, P body → P (Expr.record "KeyValuePair" [("Key", reference), ("Value", body)])) :
    P predicate ∧ P projection.body := by
  unfold clauses at h
  split at h
  · cases h
    exact ⟨hcorrelation, hrow⟩
  · rename_i l
    cases h
    exact ⟨hand _ (hselector l rfl), hrow⟩
  · cases h
  · rename_i l _
    split at h
    · cases h
      exact ⟨hcorrelation, hpair _ (hselector l rfl)⟩
    · cases h
      exact ⟨hcorrelation, hselector _ rfl⟩

/-- The projection of the query has the parameter of the filter, or is the selector. -/
theorem params_of_clauses {text : String} {a : Aggregate} {row : Parameter}
    {reference correlation predicate : Expr} {selector : Option Lambda} {projection : Lambda}
    {nested : Bool}
    (h : clauses text a row reference correlation selector = .ok (predicate, projection, nested)) :
    projection.params = [row] ∨ selector = some projection := by
  unfold clauses at h
  split at h
  · cases h
    exact Or.inl rfl
  · cases h
    exact Or.inl rfl
  · cases h
  · split at h
    · cases h
      exact Or.inl rfl
    · cases h
      exact Or.inr rfl

/-- **The query of an aggregate over a navigation.** -/
theorem ofCall_eq_ok {schema : Schema} {text : String} {a : Aggregate} {args : List Expr}
    {c : Correlated} :
    (ofCall schema text a args).outcome = .ok c ↔
      ∃ (k : Call schema args) (predicate : Expr) (projection : Lambda) (nested : Bool),
        clauses text a k.row k.reference (.binary .equal k.reference k.key) k.selector
          = .ok (predicate, projection, nested) ∧
        c = ⟨k.query predicate projection, a, nested⟩ := by
  constructor
  · intro h
    unfold ofCall at h
    dsimp only at h
    split at h
    · cases h
    · rename_i object member type selector hargs
      split at h
      · rename_i childName parentName hchildName hparentName
        split at h
        · cases h
        · rename_i path hpath
          obtain ⟨_, _, h⟩ := Traced.bind_eq_ok.mp h
          obtain ⟨target, htarget, h⟩ := Traced.bind_eq_ok.mp h
          split at h
          · cases h
          · rename_i hsame
            obtain ⟨foreignKey, hforeignKey, h⟩ := Traced.bind_eq_ok.mp h
            obtain ⟨info, hinfo, h⟩ := Traced.bind_eq_ok.mp h
            split at h
            · cases h
            · rename_i harity
              obtain ⟨referenceType, hreference, h⟩ := Traced.bind_eq_ok.mp h
              obtain ⟨keyType, hkey, h⟩ := Traced.bind_eq_ok.mp h
              obtain ⟨⟨predicate, projection, nested⟩, hclauses, h⟩ := Traced.bind_eq_ok.mp h
              cases h
              obtain ⟨element, helement, helementRow⟩ := Option.bind_eq_some_iff.mp hchildName
              obtain rfl := Ty.element?_eq_some.mp helement
              obtain rfl := Ty.row?_eq_some.mp helementRow
              obtain rfl : target = childName := by simpa using hsame
              obtain ⟨parent, hparent, hmember⟩ := Schema.navigation_eq_ok.mp htarget
              obtain ⟨child, hchild, hforeignKey⟩ := Schema.foreignKey_eq_ok.mp hforeignKey
              obtain rfl := Option.some.inj (hparent.symm.trans (Schema.rowType_eq_ok.mp hinfo))
              obtain ⟨_, reference, hchild', hreference, rfl⟩ := Schema.columnType_eq_ok.mp hreference
              obtain rfl := Option.some.inj (hchild.symm.trans hchild')
              obtain ⟨_, key, hparent', hkey, rfl⟩ := Schema.columnType_eq_ok.mp hkey
              obtain rfl := Option.some.inj (hparent.symm.trans hparent')
              let n : Navigation schema := ⟨parentName, target, parent, child, member, foreignKey,
                reference, key, hparent, hchild, hmember, hforeignKey, hreference, hkey⟩
              refine ⟨⟨n, object, path, selector, hargs, Ty.row?_eq_some.mp hparentName, hpath, ?_⟩,
                predicate, projection, nested, hclauses, rfl⟩
              rintro l rfl
              simpa using harity
      · cases h
    · cases h
  · rintro ⟨k, predicate, projection, nested, hclauses, rfl⟩
    have hnavigation := Schema.navigation_eq_ok.mpr ⟨_, k.navigation.parent_eq, k.navigation.member_eq⟩
    have hforeignKey :=
      Schema.foreignKey_eq_ok.mpr ⟨_, k.navigation.child_eq, k.navigation.foreignKey_eq⟩
    have hparent := Schema.rowType_eq_ok.mpr k.navigation.parent_eq
    have hreference :=
      Schema.columnType_eq_ok.mpr ⟨_, _, k.navigation.child_eq, k.navigation.reference_eq, rfl⟩
    have hkey := Schema.columnType_eq_ok.mpr ⟨_, _, k.navigation.parent_eq, k.navigation.key_eq, rfl⟩
    have harity : (k.selector.map fun l => l.params.length != 1).getD false = false := by
      cases hselector : k.selector with
      | none => rfl
      | some l => simp [k.arity l hselector]
    simp only [ofCall, k.args_eq, Navigation.collection, Ty.element?, Ty.row?, Option.bind_some,
      k.type_eq, k.path_eq, Bool.false_eq_true, if_false, harity]
    refine Traced.bind_eq_ok.mpr ⟨(), rfl, Traced.bind_eq_ok.mpr ⟨_, hnavigation, ?_⟩⟩
    simp only [bne_self_eq_false, Bool.false_eq_true, if_false]
    exact Traced.bind_eq_ok.mpr ⟨_, hforeignKey, Traced.bind_eq_ok.mpr ⟨_, hparent,
      Traced.bind_eq_ok.mpr ⟨_, hreference, Traced.bind_eq_ok.mpr ⟨_, hkey,
        Traced.bind_eq_ok.mpr ⟨_, hclauses, rfl⟩⟩⟩⟩⟩

end Correlated

end ChainQuery
