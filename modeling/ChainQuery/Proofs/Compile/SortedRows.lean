import ChainQuery.Proofs.Compile.Binding
import ChainQuery.Proofs.Compile.Orderings
import ChainQuery.Proofs.Compile.Recording
import ChainQuery.Proofs.Compile.ScalarMeaning
import ChainQuery.Proofs.Sql.StableSort
/-!
# The rows of a chain of orderings

An operator of the `OrderBy` kind sorts the rows that it is given anew, and one of the `ThenBy` kind
refines the order that they have (`Query.orderRows?`).  The order of a compiled selection is taken
lexicographically (`Sql.orderRows?`).

The elements of the order stand in the order of their operators.  That is the order of the chain as long
as only the first operator sorts anew.  Where one comes later its key decides before the keys of the
operators in front of it, so the elements would have to stand by rank (`byRank`).
`Query.orderRows_of_toSelect` says both, and `Query.orderRows_name_city` has a chain for which the two
are not the same.
-/

namespace ChainQuery

variable {ρ V : Type}

/-! ## 1. What a chain of orderings does to rows -/

/-- Whether an ordering operator sorts anew, instead of refining the order that there is. -/
def OrderingKind.sortsAnew : OrderingKind → Bool
  | orderBy | orderByDescending => true
  | thenBy | thenByDescending => false

/-- The direction of an ordering operator. -/
def OrderingKind.direction (kind : OrderingKind) : Sql.Direction :=
  if kind.isDescending then .desc else .asc

/-- A comparison in a direction. -/
def Sql.Direction.of (c : Comparison ρ) : Sql.Direction → Comparison ρ
  | asc => c
  | desc => c.reverse

/-- Rows in the making: the sequence that was last sorted anew, and what it is sorted by. -/
structure Arrangement (ρ : Type) where
  rows : List ρ
  keys : List (Comparison ρ) := []

/-- The sequence of an arrangement. -/
def Arrangement.sequence (a : Arrangement ρ) : List ρ := (Comparison.lexicographic a.keys).sort a.rows

/-- **One ordering operator**: it sorts the sequence that there is, or refines its order. -/
def Arrangement.order (a : Arrangement ρ) (kind : OrderingKind) (c : Comparison ρ) : Arrangement ρ :=
  if kind.sortsAnew then { rows := a.sequence, keys := [c] } else { a with keys := a.keys ++ [c] }

/-- The member that a key reads, if it is one of the row itself. -/
def Lambda.columnKey? (l : Lambda) : Option String :=
  match l.params, l.body with
  | [p], .member (.parameter name type) member _ =>
    if name = p.name ∧ type = p.type then some member else none
  | _, _ => none

section Rows

variable [Ord V] [Std.TransOrd V] (column : ρ → String → V)

/-- The comparison by a column in a direction, given the values of the columns. -/
def Comparison.byColumn (key : String × Sql.Direction) : Comparison ρ :=
  key.2.of (.on (column · key.1))

/-- A chain of orderings over rows of a type. -/
def Query.arrange? (info : RowType) (rows : List ρ) : Query → Option (Arrangement ρ)
  | .table _ => some { rows }
  | .orderBy source key kind => do
    let a ← source.arrange? info rows
    let member ← key.columnKey?
    return a.order kind (.byColumn column (info.columnOf member, kind.direction))
  | _ => none

/-- **The rows of a chain of orderings by columns.** -/
def Query.orderRows? (info : RowType) (q : Query) (rows : List ρ) : Option (List ρ) :=
  (q.arrange? column info rows).map Arrangement.sequence

/-- **The rows in the order of some columns**, compared by one after another. -/
def Sql.orderRows (keys : List (String × Sql.Direction)) (rows : List ρ) : List ρ :=
  (Comparison.lexicographic (keys.map (.byColumn column))).sort rows

end Rows

/-! ## 2. Keys by rank -/

/-- Keys in two ranks: those since an operator sorted anew, and those before, which decide where the
former leave rows equal. -/
structure Ranks (α : Type) where
  recent : List α := []
  earlier : List α := []

namespace Ranks

variable {α β : Type}

/-- All keys, by rank. -/
def keys (r : Ranks α) : List α := r.recent ++ r.earlier

/-- One more operator. -/
def add (r : Ranks α) (item : OrderingKind × α) : Ranks α :=
  if item.1.sortsAnew then { recent := [item.2], earlier := r.keys }
  else { r with recent := r.recent ++ [item.2] }

/-- The keys with `f` applied to each. -/
def map (f : α → β) (r : Ranks α) : Ranks β := ⟨r.recent.map f, r.earlier.map f⟩

theorem keys_map (f : α → β) (r : Ranks α) : (r.map f).keys = r.keys.map f := by
  simp [keys, map]

theorem add_map (f : α → β) (r : Ranks α) (item : OrderingKind × α) :
    (r.map f).add (item.1, f item.2) = (r.add item).map f := by
  rw [add, add]
  split
  · simp [map, keys]
  · simp [map]

end Ranks

/-- The keys of ordering operators in two ranks. -/
def ranks {α : Type} (items : List (OrderingKind × α)) : Ranks α := items.foldl Ranks.add {}

/-- **The keys of ordering operators by rank**: each that sorts anew comes before all keys in front of
it, with those that refine it. -/
def byRank {α : Type} (items : List (OrderingKind × α)) : List α := (ranks items).keys

section Ranks

variable {α β : Type}

theorem ranks_map (f : α → β) (items : List (OrderingKind × α)) :
    ranks (items.map fun item => (item.1, f item.2)) = (ranks items).map f := by
  have hfoldl : ∀ r : Ranks α, (items.map fun item => (item.1, f item.2)).foldl Ranks.add (r.map f)
      = (items.foldl Ranks.add r).map f := by
    induction items with
    | nil => exact fun _ => rfl
    | cons item items ih =>
      intro r
      rw [List.map_cons, List.foldl_cons, Ranks.add_map, ih, List.foldl_cons]
  exact hfoldl {}

theorem ranks_append_singleton (items : List (OrderingKind × α)) (item : OrderingKind × α) :
    ranks (items ++ [item]) = (ranks items).add item := by
  rw [ranks, List.foldl_append]
  rfl

/-- Keys that only refine keep their places. -/
theorem Ranks.foldl_add {items : List (OrderingKind × α)}
    (h : ∀ item ∈ items, item.1.sortsAnew = false) (r : Ranks α) :
    items.foldl Ranks.add r = { r with recent := r.recent ++ items.map Prod.snd } := by
  induction items generalizing r with
  | nil => simp
  | cons item items ih =>
    obtain ⟨hitem, hitems⟩ := List.forall_mem_cons.mp h
    rw [List.foldl_cons, ih hitems, Ranks.add, if_neg (by simp [hitem])]
    simp

/-- **Where only the first operator sorts anew, the keys are by rank as they stand.** -/
theorem byRank_of_tail {items : List (OrderingKind × α)}
    (h : ∀ item ∈ items.tail, item.1.sortsAnew = false) : byRank items = items.map Prod.snd := by
  cases items with
  | nil => rfl
  | cons item items =>
    rw [List.tail_cons] at h
    have hfirst : Ranks.add {} item = { recent := [item.2] } := by
      rw [Ranks.add]
      split
      · rfl
      · rfl
    rw [byRank, ranks, List.foldl_cons, hfirst, Ranks.foldl_add h]
    simp [Ranks.keys]

end Ranks

/-- What an arrangement is sorted by, if the rows that it started from are sorted by its ranks. -/
structure Arrangement.RankedBy (a : Arrangement ρ) (rows : List ρ) (r : Ranks (Comparison ρ)) :
    Prop where
  rows : a.rows = (Comparison.lexicographic r.earlier).sort rows
  keys : a.keys = r.recent

namespace Arrangement.RankedBy

variable {a : Arrangement ρ} {rows : List ρ} {r : Ranks (Comparison ρ)}

/-- The sequence is sorted by all keys, by rank. -/
theorem sequence (h : a.RankedBy rows r) :
    a.sequence = (Comparison.lexicographic r.keys).sort rows := by
  rw [Arrangement.sequence, h.rows, h.keys, Comparison.sort_sort, Ranks.keys,
    Comparison.lexicographic_append]

/-- **One ordering operator keeps the ranks.** -/
theorem order (h : a.RankedBy rows r) (kind : OrderingKind) (c : Comparison ρ) :
    (a.order kind c).RankedBy rows (r.add (kind, c)) := by
  rw [Arrangement.order, Ranks.add]
  split
  · exact ⟨h.sequence, rfl⟩
  · exact ⟨h.rows, congrArg (· ++ [c]) h.keys⟩

end Arrangement.RankedBy

/-! ## 3. Chains over a table -/

/-- The column and the direction of an ordering operator whose key is a column. -/
def Query.OrderingOperator.sortColumn (info : RowType) (o : OrderingOperator) :
    String × Sql.Direction :=
  (info.columnOf (o.key.columnKey?.getD ""), o.kind.direction)

theorem Lambda.columnKey?_eq_some {l : Lambda} {member : String} (h : l.columnKey? = some member) :
    ∃ p t, l = ⟨[p], p.member member t⟩ := by
  unfold Lambda.columnKey? at h
  split at h
  · rename_i p name type _ t hparams hbody
    split at h
    · rename_i hsame
      cases h
      refine ⟨p, t, ?_⟩
      cases l
      simp_all [Parameter.member, Parameter.reference]
    · cases h
  · cases h

namespace Query

variable {q : Query} {rowType : String}

theorem base_of_orderedTable (h : q.orderedTable? = some rowType) : q.base = .table rowType := by
  induction q with
  | table name => simpa [orderedTable?, base] using h
  | orderBy source key kind ih => exact ih h
  | select | filter | join | crossJoin | call => cases h

theorem projections_of_orderedTable (h : q.orderedTable? = some rowType) : q.projections = [] := by
  induction q with
  | table name => rfl
  | orderBy source key kind ih => exact ih h
  | select | filter | join | crossJoin | call => cases h

/-- The orderings of a table are handed on by nothing. -/
theorem through_of_orderedTable (h : q.orderedTable? = some rowType) :
    ∀ o ∈ q.orderings, o.through = [] := by
  induction q with
  | table name => simp [orderings]
  | orderBy source key kind ih =>
    rw [orderings]
    exact List.forall_mem_append.mpr ⟨ih h, by simp⟩
  | select | filter | join | crossJoin | call => cases h

/-- **A chain of orderings sorts the rows by its keys, by rank.** -/
theorem arrange?_rankedBy [Ord V] [Std.TransOrd V] (column : ρ → String → V) (info : RowType)
    (rows : List ρ) (htable : q.orderedTable? = some rowType)
    (hkeys : ∀ o ∈ q.orderings, o.key.columnKey?.isSome = true) :
    ∃ a, q.arrange? column info rows = some a ∧
      a.RankedBy rows
        (ranks (q.orderings.map fun o => (o.kind, .byColumn column (o.sortColumn info)))) := by
  induction q with
  | table name => exact ⟨{ rows }, rfl, (Comparison.sort_equal rows).symm, rfl⟩
  | orderBy source key kind ih =>
    rw [orderings, List.forall_mem_append] at hkeys
    obtain ⟨a, ha, hranked⟩ := ih htable hkeys.1
    obtain ⟨member, hmember⟩ := Option.isSome_iff_exists.mp (hkeys.2 _ List.mem_cons_self)
    refine ⟨a.order kind (.byColumn column (info.columnOf member, kind.direction)), ?_, ?_⟩
    · simp [arrange?, ha, hmember]
    · rw [orderings, List.map_append, List.map_singleton, ranks_append_singleton]
      simpa [OrderingOperator.sortColumn, hmember] using hranked.order kind _
  | select | filter | join | crossJoin | call => cases htable

end Query

/-! ## 4. The order of a compiled chain -/

variable {env : Env}

/-- A member of the row is read as a column, or it has no SQL. -/
theorem Lambda.body_of_columnKey {l : Lambda} {member : String} {p : Projection}
    (hkey : l.columnKey? = some member) (h : (l.read env 1).outcome = .ok p) :
    (∃ owner, p.body = .column ⟨[owner], member⟩) ∨ ∃ text, p.body = .composite text := by
  obtain ⟨x, t, rfl⟩ := Lambda.columnKey?_eq_some hkey
  obtain ⟨_, _, body, reading, _, _, hbody, rfl⟩ := Lambda.read_eq_ok.mp h
  simp only [Parameter.member, Parameter.reference, Expr.toScalar, Expr.readMember,
    Expr.memberPath?] at hbody
  split at hbody
  · cases hbody
  · obtain ⟨_, _, _, hbody⟩ := ReadM.bind_eq_ok.mp hbody
    split at hbody
    · obtain ⟨_, _, _, hbody⟩ := ReadM.bind_eq_ok.mp hbody
      cases hbody
      exact Or.inl ⟨x.type, rfl⟩
    · cases hbody
      exact Or.inr ⟨_, rfl⟩

/-- **An ordering by a column is an element of the order by that column.** -/
theorem Query.OrderingOperator.item_of_restated {o : Query.OrderingOperator} {info : RowType}
    {b : Binder} {k : SortKey} {item : Sql.Expr × Sql.Direction} {label : String}
    (hcolumn : ∀ {token : ColumnToken} {e : Sql.Expr},
      (b.scope.column token .predicate).outcome = .ok e →
        e = .aliasedColumn label (info.columnOf token.member))
    (hthrough : o.through = []) (hkey : o.key.columnKey?.isSome = true)
    (hk : o.restated env = .ok k) (hitem : (k.toSql b).outcome = .ok item) :
    item = (.aliasedColumn label (o.sortColumn info).1, (o.sortColumn info).2) := by
  obtain ⟨member, hmember⟩ := Option.isSome_iff_exists.mp hkey
  obtain ⟨ordering, hordering, hrestate⟩ := Except.bind_eq_ok.mp hk
  rw [hthrough] at hrestate
  cases hrestate
  obtain ⟨p, hread, hordering⟩ := Traced.bind_eq_ok.mp hordering
  cases hordering
  obtain ⟨e, he, hitem⟩ := Traced.bind_eq_ok.mp hitem
  cases hitem
  rcases Lambda.body_of_columnKey hmember hread with ⟨owner, hbody⟩ | ⟨text, hbody⟩
  · rw [hbody] at he
    rw [hcolumn he, Query.OrderingOperator.sortColumn, hmember]
    rfl
  · rw [hbody] at he
    cases he

/-- The statement of a chain of orderings is over its table, and builds no records. -/
theorem Query.statement_of_orderedTable {q : Query} {rowType : String} {s : Statement}
    (htable : q.orderedTable? = some rowType) (hq : q.Gathers env {} s) :
    (∃ clauses, s = .table clauses rowType) ∧ s.layers = [] := by
  have hbase := Query.base_of_orderedTable htable
  cases s with
  | table clauses name =>
    rw [hq.base_table] at hbase
    obtain rfl : name = rowType := Query.table.inj hbase
    have htaken := hq.select_taken
    rw [Query.projections_of_orderedTable htable] at htaken
    generalize hselect : (Statement.table clauses name).clauses.select = select at htaken
    cases htaken
    refine ⟨⟨clauses, rfl⟩, ?_⟩
    rw [Statement.layers, hselect]
    rfl
  | join =>
    obtain ⟨_, _, _, _, _, _, _, hjoin, _⟩ := hq.base_join
    rw [hjoin] at hbase
    cases hbase
  | crossJoin =>
    obtain ⟨_, _, _, hcross, _⟩ := hq.base_crossJoin
    rw [hcross] at hbase
    cases hbase

/-- The columns of a chain over a table are those of its row type. -/
theorem Query.column_of_orderedTable {q : Query} {rowType : String} {b : Binder}
    (htable : q.orderedTable? = some rowType) (hb : (q.binder env).outcome = .ok b) :
    ∃ info, env.schema.rowType rowType = .ok info ∧
      ∀ {token : ColumnToken} {e : Sql.Expr}, (b.scope.column token .predicate).outcome = .ok e →
        e = .aliasedColumn "t0" (info.columnOf token.member) := by
  obtain ⟨s, hs, hb⟩ := Traced.bind_eq_ok.mp hb
  obtain ⟨ground, hground, hb⟩ := Traced.bind_eq_ok.mp hb
  cases hb
  obtain ⟨⟨clauses, rfl⟩, hlayers⟩ :=
    Query.statement_of_orderedTable htable (Query.toStatement_eq_ok.mp hs)
  obtain ⟨info, hinfo, rfl⟩ := Ground.table_eq_ok.mp hground
  refine ⟨info, hinfo, fun {token e} h => ?_⟩
  simp only [Statement.binder, hlayers, Frame.scope] at h
  obtain ⟨owner, howner, h | ⟨_, _, houter, _⟩⟩ := Frame.bindToSource_eq_ok.mp h
  · simp only [Source.column?] at h
    split at h
    · rw [Schema.columnName_eq hinfo] at h
      cases h
      rfl
    · cases h
  · cases houter

/-- The elements of the order are the columns of the keys. -/
theorem Query.orderBy_of_orderedTable {q : Query} {rowType : String} {select : Sql.Select}
    (htable : q.orderedTable? = some rowType)
    (hkeys : ∀ o ∈ q.orderings, o.key.columnKey?.isSome = true)
    (h : (q.toSelect env).outcome = .ok select) :
    ∃ info, env.schema.rowType rowType = .ok info ∧
      select.orderBy = q.orderings.map fun o =>
        (.aliasedColumn "t0" (o.sortColumn info).1, (o.sortColumn info).2) := by
  obtain ⟨b, hb, hitems⟩ := Query.forall₂_orderings_of_toSelect h
  obtain ⟨info, hinfo, hcolumn⟩ := Query.column_of_orderedTable htable hb
  refine ⟨info, hinfo, ?_⟩
  have hthrough := Query.through_of_orderedTable htable
  generalize select.orderBy = items at hitems
  generalize q.orderings = os at hitems hkeys hthrough
  induction hitems with
  | nil => rfl
  | cons hitem _ ih =>
    obtain ⟨k, hk, hitem⟩ := hitem
    obtain ⟨hkey, hkeys⟩ := List.forall_mem_cons.mp hkeys
    obtain ⟨hfirst, hthrough⟩ := List.forall_mem_cons.mp hthrough
    rw [List.map_cons, ← ih hkeys hthrough,
      OrderingOperator.item_of_restated hcolumn hfirst hkey hk hitem]

/-- **Sorting by the order of a compiled chain of orderings.**  A chain over a table, with columns for
its keys, is compiled to one element of the order for each operator, in their order, each a column of
the table.  The rows of the chain are those of the table sorted lexicographically by these columns, if
they are taken by rank: the columns of the last operator that sorts anew and of those that refine it,
then those of the one before, and so on.  Where only the first operator sorts anew, that is the order
of the selection as it stands. -/
theorem Query.orderRows_of_toSelect {env : Env} {q : Query} {rowType : String} {select : Sql.Select}
    (htable : q.orderedTable? = some rowType)
    (hkeys : ∀ o ∈ q.orderings, o.key.columnKey?.isSome = true)
    (h : (q.toSelect env).outcome = .ok select) :
    ∃ info columns, env.schema.rowType rowType = .ok info ∧
      select.orderBy = columns.map (fun c => (.aliasedColumn "t0" c.1, c.2)) ∧
      columns.length = q.orderings.length ∧
      ∀ {ρ V : Type} [Ord V] [Std.TransOrd V] (column : ρ → String → V) (rows : List ρ),
        q.orderRows? column info rows
          = some (Sql.orderRows column (byRank ((q.orderings.map (·.kind)).zip columns)) rows) ∧
        ((∀ kind ∈ (q.orderings.map (·.kind)).tail, kind.sortsAnew = false) →
          q.orderRows? column info rows = some (Sql.orderRows column columns rows)) := by
  obtain ⟨info, hinfo, horderBy⟩ := Query.orderBy_of_orderedTable htable hkeys h
  refine ⟨info, q.orderings.map (·.sortColumn info), hinfo, ?_, ?_, fun column rows => ?_⟩
  · rw [horderBy, List.map_map]
    rfl
  · rw [List.length_map]
  have hzip : (q.orderings.map (·.kind)).zip (q.orderings.map (·.sortColumn info))
      = q.orderings.map fun o => (o.kind, o.sortColumn info) := List.zip_map'
  have hrows : q.orderRows? column info rows
      = some (Sql.orderRows column (byRank (q.orderings.map fun o => (o.kind, o.sortColumn info))) rows) := by
    obtain ⟨a, ha, hranked⟩ := Query.arrange?_rankedBy column info rows htable hkeys
    have hranks := ranks_map (Comparison.byColumn column)
      (q.orderings.map fun o => (o.kind, o.sortColumn info))
    rw [List.map_map] at hranks
    rw [Query.orderRows?, ha, Option.map_some, hranked.sequence, Sql.orderRows, byRank,
      ← Ranks.keys_map, ← hranks]
    rfl
  refine ⟨hzip ▸ hrows, fun hfirst => ?_⟩
  rw [hrows, byRank_of_tail, List.map_map]
  · rfl
  · intro item hitem
    rw [← List.map_tail] at hitem
    obtain ⟨o, ho, rfl⟩ := List.mem_map.mp hitem
    refine hfirst _ ?_
    rw [← List.map_tail]
    exact List.mem_map_of_mem ho

/-- Customers by their cities, those of a city by falling names: only the first operator sorts anew. -/
theorem Query.orderRows_of_toSelect_city_name :
    let env : Env := ⟨Shop.schema, {}⟩
    let c : Parameter := ⟨"c", .row "Customer"⟩
    let q := Query.orderBy (.orderBy (.table "Customer") ⟨[c], Shop.field c "City"⟩ .orderBy)
      ⟨[c], Shop.field c "Name"⟩ .thenByDescending
    let column (row : Nat × Nat) (name : String) := if name = "Name" then row.1 else row.2
    let keys : List (String × Sql.Direction) := [("City", .asc), ("Name", .desc)]
    ∃ select, (q.toSelect env).outcome = .ok select ∧
      select.orderBy = keys.map (fun k => (.aliasedColumn "t0" k.1, k.2)) ∧
      ∀ rows, q.orderRows? column Shop.customer rows = some (Sql.orderRows column keys rows) := by
  intro env c q column keys
  have hselect : (q.toSelect env).outcome = .ok _ := rfl
  have htable : q.orderedTable? = some "Customer" := rfl
  obtain ⟨info, columns, hinfo, horderBy, _, hrows⟩ :=
    Query.orderRows_of_toSelect htable (by decide) hselect
  obtain rfl : Shop.customer = info := Except.ok.inj hinfo
  -- the columns are read off the order of the selection
  have hinjective : Function.Injective fun k : String × Sql.Direction =>
      (Sql.Expr.aliasedColumn "t0" k.1, k.2) := by
    rintro ⟨name, direction⟩ ⟨name', direction'⟩ heq
    simpa [Sql.Expr.aliasedColumn] using heq
  obtain rfl : keys = columns := List.map_injective_iff.mpr hinjective horderBy
  exact ⟨_, hselect, horderBy, fun rows => (hrows column rows).2 (by decide)⟩

/-- **A later sort that does not decide first.**  Customers by name, sorted anew by city: the chain has
the customer of the first city in front, and the order of the selection the one of the first name. -/
theorem Query.orderRows_name_city :
    let env : Env := ⟨Shop.schema, {}⟩
    let c : Parameter := ⟨"c", .row "Customer"⟩
    let q := Query.orderBy (.orderBy (.table "Customer") ⟨[c], Shop.field c "Name"⟩ .orderBy)
      ⟨[c], Shop.field c "City"⟩ .orderBy
    let column (row : Nat × Nat) (name : String) := if name = "Name" then row.1 else row.2
    let keys : List (String × Sql.Direction) := [("Name", .asc), ("City", .asc)]
    let rows := [(0, 1), (1, 0)]
    ∃ select, (q.toSelect env).outcome = .ok select ∧
      select.orderBy = keys.map (fun k => (.aliasedColumn "t0" k.1, k.2)) ∧
      q.orderRows? column Shop.customer rows = some [(1, 0), (0, 1)] ∧
      Sql.orderRows column keys rows = [(0, 1), (1, 0)] := by
  intro env c q column keys rows
  refine ⟨_, rfl, rfl, ?_, ?_⟩
  · have hname : (Comparison.lexicographic [.byColumn column ("Name", .asc)]).sort rows = rows := by
      rw [Comparison.sort_pair]
      decide
    have hcity : (Comparison.lexicographic [.byColumn column ("City", .asc)]).sort rows
        = [(1, 0), (0, 1)] := by
      rw [Comparison.sort_pair]
      decide
    have hrows : q.orderRows? column Shop.customer rows
        = some ((Comparison.lexicographic [.byColumn column ("City", .asc)]).sort
            ((Comparison.lexicographic [.byColumn column ("Name", .asc)]).sort
              (Comparison.equal.sort rows))) := rfl
    rw [hrows, Comparison.sort_equal, hname, hcity]
  · rw [Sql.orderRows, Comparison.sort_pair]
    decide

end ChainQuery
