import ChainQuery.Compile.Projection
import ChainQuery.Proofs.Compile.Correlation
import ChainQuery.Proofs.Expr.Children
/-!
# What a query reads and builds

Two inventories of a query, taken from its expressions without compiling it: the columns that it asks
for (`Query.reads`) and the members of the records that a body builds (`Expr.built`).  A column is
asked for by a member of scalar type, by an aggregate, which compares two keys
(`Correlated.keyColumns`), and by a cross join, which may order its rows by the members that its sides
offer (`Query.offers`).

The query that computes an aggregate reads no more than the aggregate does
(`Correlated.reads_query_subset`).
-/

namespace ChainQuery

/-! ## 1. Expressions -/

/-- **The keys that an aggregate compares**: the foreign key of the related rows, and the primary key
of the row at hand. -/
def Correlated.keyColumns (schema : Schema) (args : List Expr) : List ColumnToken :=
  match arguments? args with
  | some (.member object _ type, selector) =>
    match type.element?.bind Ty.row?, object.type.row?, object.memberPath? with
    | some child, some parent, some path =>
      let row := (selector.bind fun l => l.params.head?).getD ⟨"src", .row child⟩
      ((schema.foreignKey child parent).toOption.map fun key => ⟨[row.type], key⟩).toList
        ++ ((schema.rowType parent).toOption.map fun info => ⟨path, info.primaryKey⟩).toList
    | _, _, _ => []
  | _ => []

namespace Expr

/-- **The columns that an expression reads.** -/
def reads (schema : Schema) (e : Expr) : List ColumnToken :=
  e.fold fun node below =>
    match node with
    | .member object name t =>
      if t.isScalar then (object.memberPath?.map fun path => ⟨path, name⟩).toList else []
    | .call (.aggregate _) _ args _ => Correlated.keyColumns schema args ++ below.flatten
    | _ => below.flatten

/-- **The members of the records that an expression builds**, each with the type of the record.
What the arguments of an aggregate build is not seen outside of it. -/
def built (e : Expr) : List (Ty × String) :=
  e.fold fun node below =>
    match node with
    | .new t members => members.map (fun m => (t, propertyName m.1)) ++ below.flatten
    | .member _ _ _ => []
    | .call (.aggregate _) _ _ _ => []
    | _ => below.flatten

/-- The members of the record at the root of an expression. -/
def ownMembers : Expr → List (Ty × String)
  | .new t members => members.map fun m => (t, propertyName m.1)
  | _ => []

/-- Whether a column is one of the members that an expression builds. -/
def captures (e : Expr) (token : ColumnToken) : Bool :=
  (token.owner?.map fun owner => e.built.contains (owner, token.member)).getD false

/-- Whether an expression is read as a whole, not through its children. -/
def isReadWhole : Expr → Bool
  | .member _ _ _ => true
  | .call (.aggregate _) _ _ _ => true
  | _ => false

variable {schema : Schema}

theorem reads_member {object : Expr} {name : String} {t : Ty} {path : List Ty}
    (ht : t.isScalar = true) (hpath : object.memberPath? = some path) :
    (member object name t).reads schema = [⟨path, name⟩] := by
  simp [reads, fold_eq, ht, hpath]

theorem reads_aggregate (a : Aggregate) (receiver : Option Expr) (args : List Expr) (t : Ty) :
    (call (.aggregate a) receiver args t).reads schema
      = Correlated.keyColumns schema args ++ (receiver.toList ++ args).flatMap (reads schema) := by
  rw [reads, fold_eq, List.flatMap_def]
  rfl

/-- An expression reads what its children read. -/
theorem reads_eq_flatMap {e : Expr} (h : e.isReadWhole = false) :
    e.reads schema = e.children.flatMap (reads schema) := by
  rw [reads, fold_eq, List.flatMap_def]
  cases e with
  | member => cases h
  | call m receiver args t =>
    cases m with
    | aggregate a => cases h
    | string | other => rfl
  | _ => rfl

theorem built_of_isReadWhole {e : Expr} (h : e.isReadWhole = true) : e.built = [] := by
  rw [built, fold_eq]
  cases e with
  | member => rfl
  | call m receiver args t =>
    cases m with
    | aggregate a => rfl
    | string | other => cases h
  | _ => cases h

/-- An expression builds the record at its root, and what its children build. -/
theorem built_eq {e : Expr} (h : e.isReadWhole = false) :
    e.built = e.ownMembers ++ e.children.flatMap built := by
  rw [built, fold_eq, List.flatMap_def]
  cases e with
  | member => cases h
  | call m receiver args t =>
    cases m with
    | aggregate a => cases h
    | string | other => rfl
  | _ => rfl

theorem built_subset {e c : Expr} (h : e.isReadWhole = false) (hc : c ∈ e.children) :
    c.built ⊆ e.built := by
  rw [built_eq h]
  exact List.subset_append_of_subset_right _ fun key hkey => List.mem_flatMap.mpr ⟨c, hc, hkey⟩

theorem mem_built_new {t : Ty} {members : List (String × Expr)} {m : String × Expr}
    (hm : m ∈ members) : (t, propertyName m.1) ∈ (new t members).built := by
  rw [built_eq rfl]
  exact List.mem_append_left _ (List.mem_map_of_mem hm)

theorem isReadWhole_withChildren (e : Expr) (cs : List Expr) :
    (e.withChildren cs).isReadWhole = e.isReadWhole := by
  cases e with
  | call m receiver args t =>
    cases receiver <;> cases cs <;> cases m <;> rfl
  | _ =>
    unfold withChildren
    split <;> first | rfl | simp_all

theorem ownMembers_withChildren {e : Expr} {cs : List Expr} (h : cs.length = e.children.length) :
    (e.withChildren cs).ownMembers = e.ownMembers := by
  cases e with
  | new t members =>
    rw [children, List.length_map] at h
    change ((rename members cs).map fun m => (t, propertyName m.1)) = _
    rw [rename, List.map_zipWith]
    induction members generalizing cs with
    | nil => rfl
    | cons m rest ih =>
      obtain ⟨c, cs, rfl⟩ := List.exists_cons_of_length_eq_add_one h
      exact congrArg _ (ih (Nat.succ.inj h))
  | call m receiver args t => cases receiver <;> cases cs <;> rfl
  | _ =>
    unfold withChildren
    split <;> first | rfl | simp_all

end Expr

/-! ## 2. Queries -/

/-- The members of the record that a lambda returns, as columns of that record. -/
def Lambda.offers (l : Lambda) : List ColumnToken :=
  (l.body.built.filter fun b => b.1 == l.returnType).map fun b => ⟨[b.1], b.2⟩

namespace Query

/-- The columns under which a query, as a side of a cross join, may hand on its orderings. -/
def offers : Query → List ColumnToken
  | .select source selector => selector.offers ++ source.offers
  | .filter source _ => source.offers
  | .orderBy source _ _ => source.offers
  | .call _ source _ => source.offers
  | .table _ | .join .. | .crossJoin .. => []

/-- **The columns that a query reads**: those that its lambdas read, and those by which a cross join
may order the rows of its sides. -/
def reads (schema : Schema) : Query → List ColumnToken
  | .table _ => []
  | .select source selector => source.reads schema ++ selector.body.reads schema
  | .filter source predicate => source.reads schema ++ predicate.body.reads schema
  | .join outer inner outerKey innerKey result =>
    outer.reads schema ++ inner.reads schema ++ outerKey.body.reads schema
      ++ innerKey.body.reads schema ++ result.body.reads schema
  | .crossJoin source collection result =>
    source.reads schema ++ collection.reads schema ++ result.body.reads schema
      ++ source.offers ++ collection.offers
  | .orderBy source key _ => source.reads schema ++ key.body.reads schema
  | .call _ source _ => source.reads schema

end Query

/-! ## 3. Aggregates -/

namespace Correlated

variable {schema : Schema} {args : List Expr}

theorem Call.keyColumns_eq (k : Call schema args) :
    keyColumns schema args = [⟨[k.row.type], k.navigation.foreignKey⟩,
      ⟨k.path, k.navigation.parent.primaryKey⟩] := by
  have hforeignKey :=
    Schema.foreignKey_eq_ok.mpr ⟨_, k.navigation.child_eq, k.navigation.foreignKey_eq⟩
  have hparent := Schema.rowType_eq_ok.mpr k.navigation.parent_eq
  simp [keyColumns, k.args_eq, Navigation.collection, Ty.element?, Ty.row?, k.type_eq, k.path_eq,
    hforeignKey, hparent, Except.toOption, Call.row]

theorem Call.reads_reference (k : Call schema args) :
    k.reference.reads schema = [⟨[k.row.type], k.navigation.foreignKey⟩] :=
  Expr.reads_member rfl rfl

/-- The comparison of the keys reads the keys. -/
theorem Call.reads_correlation (k : Call schema args) :
    (Expr.binary .equal k.reference k.key).reads schema = keyColumns schema args := by
  have hkey : k.key.reads schema = [⟨k.path, k.navigation.parent.primaryKey⟩] :=
    Expr.reads_member rfl k.path_eq
  rw [Expr.reads_eq_flatMap rfl, k.keyColumns_eq]
  simp [Expr.children, k.reads_reference, hkey]

/-- The selector of an aggregate is read with its arguments. -/
theorem Call.reads_selector_subset (k : Call schema args) {l : Lambda} (hl : k.selector = some l) :
    l.body.reads schema ⊆ args.flatMap (Expr.reads schema) := by
  have hbody : l.toExpr.reads schema = l.body.reads schema := by
    rw [Expr.reads_eq_flatMap rfl]
    simp [Lambda.toExpr, Expr.children]
  exact fun t ht => List.mem_flatMap.mpr ⟨l.toExpr, k.selector_mem hl, hbody ▸ ht⟩

/-- **The query of an aggregate reads no more than the aggregate**: its keys, and what its selector
reads. -/
theorem reads_query_subset {text : String} {a : Aggregate} {c : Correlated}
    (h : (ofCall schema text a args).outcome = .ok c) :
    c.query.reads schema ⊆ keyColumns schema args ++ args.flatMap (Expr.reads schema) := by
  obtain ⟨k, predicate, projection, nested, hclauses, rfl⟩ := ofCall_eq_ok.mp h
  let all := keyColumns schema args ++ args.flatMap (Expr.reads schema)
  have hcorrelation : (Expr.binary .equal k.reference k.key).reads schema ⊆ all :=
    k.reads_correlation ▸ List.subset_append_left _ _
  have hreference : k.reference.reads schema ⊆ all := by
    rw [k.reads_reference]
    exact fun t ht => List.mem_append_left _ (by simp_all [k.keyColumns_eq])
  have hselector : ∀ l, k.selector = some l → l.body.reads schema ⊆ all :=
    fun l hl => List.subset_append_of_subset_right _ (k.reads_selector_subset hl)
  have hand : ∀ body : Expr, body.reads schema ⊆ all →
      (Expr.binary .and (.binary .equal k.reference k.key) body).reads schema ⊆ all := by
    intro body hbody
    rw [Expr.reads_eq_flatMap rfl]
    simpa [Expr.children] using ⟨hcorrelation, hbody⟩
  have hpair : ∀ body : Expr, body.reads schema ⊆ all →
      (Expr.record "KeyValuePair" [("Key", k.reference), ("Value", body)]).reads schema ⊆ all := by
    intro body hbody
    rw [Expr.reads_eq_flatMap rfl]
    simpa [Expr.record, Expr.children] using ⟨hreference, hbody⟩
  obtain ⟨hpredicate, hprojection⟩ := clauses_parts (P := fun e => e.reads schema ⊆ all) hclauses
    hcorrelation (List.nil_subset _) hselector hand hpair
  simpa [Call.query, Query.reads, List.append_subset] using ⟨hpredicate, hprojection⟩

end Correlated

end ChainQuery
