import ChainQuery.Proofs.Compile.Chains
import ChainQuery.Proofs.Compile.Selection
import ChainQuery.Schema.Shop
import Mathlib.Data.List.Perm.Basic
/-!
# The order of the operators of a chain

The operators of a chain may stand in any order, as long as the orderings keep theirs
(`Query.toSelect_under_perm`): a projection above a filter and a filter above a projection are the same
two clauses, and both range over the rows of the table or join that the chain ends in.

What a chain makes of the clauses is `Clauses.Extended`, in which the order of the operators does not
show: it lists the projections, the filters and the orderings apart.  The compiler's pass follows the
chain operator by operator, and meets types in that order; `Query.gathers_under` says that it makes of
the clauses what `Extended` says.
-/

namespace ChainQuery

/-! ## 1. Chains as lists of operators -/

/-- An operator of a chain that a clause stands for. -/
inductive Query.Operator where
  | select (selector : Lambda)
  | filter (predicate : Lambda)
  | orderBy (key : Lambda) (kind : OrderingKind)

namespace Query.Operator

/-- A query with an operator on top. -/
def apply (q : Query) : Operator → Query
  | .select selector => .select q selector
  | .filter predicate => .filter q predicate
  | .orderBy key kind => .orderBy q key kind

/-- The lambda of an operator. -/
def lambda : Operator → Lambda
  | .select l | .filter l | .orderBy l _ => l

def selector? : Operator → Option Lambda
  | .select selector => some selector
  | _ => none

def predicate? : Operator → Option Lambda
  | .filter predicate => some predicate
  | _ => none

def ordering? : Operator → Option (Lambda × OrderingKind)
  | .orderBy key kind => some (key, kind)
  | _ => none

end Query.Operator

/-- **A query under a chain of operators**, outermost first. -/
def Query.under (q : Query) (ops : List Query.Operator) : Query :=
  ops.foldr (fun op source => op.apply source) q

/-! ## 2. What a chain makes of the clauses -/

/-- **The clauses before and after a chain of operators**: there is one projection at most and one
filter at most, and the orderings found are put in front, innermost first. -/
structure Clauses.Extended (env : Env) (ops : List Query.Operator) (before after : Clauses) :
    Prop where
  plain : ∀ op ∈ ops, op.lambda.isGrouped = false
  select : Clauses.Taken env (ops.filterMap Query.Operator.selector?) before.select after.select
  filter : Clauses.Taken env (ops.filterMap Query.Operator.predicate?) before.filter after.filter
  orderings : ∃ own : List OrderingClause,
    (ops.filterMap Query.Operator.ordering?).Forall₂
      (fun o ordering => (o.1.readOrdering env o.2).outcome = .ok ordering) own ∧
    after.orderings = own.reverse ++ before.orderings
  unsupported : after.unsupported = before.unsupported

namespace Clauses

variable {env : Env} {ops ops' : List Query.Operator} {before after : Clauses}

/-- A clause that is taken by the operators of a chain is taken by them in any order. -/
theorem Taken.perm {ls ls' : List Lambda} {p p' : Option Projection} (h : Taken env ls p p')
    (hperm : ls.Perm ls') : Taken env ls' p p' := by
  cases h with
  | none p =>
    rw [List.nil_perm.mp hperm]
    exact .none p
  | one hread =>
    rw [List.perm_singleton.mp hperm.symm]
    exact .one hread

theorem taken_nil_iff {p p' : Option Projection} : Taken env [] p p' ↔ p = p' := by
  constructor
  · intro h
    cases h with
    | none p => rfl
  · rintro rfl
    exact .none p

/-- One more operator further out takes the clause, which was free. -/
theorem taken_cons_iff {l : Lambda} {ls : List Lambda} {p p' : Option Projection} :
    Taken env (l :: ls) p p' ↔
      p = none ∧ ∃ read, (l.read env 1).outcome = .ok read ∧ Taken env ls (some read) p' := by
  constructor
  · intro h
    cases h with
    | one hread => exact ⟨rfl, _, hread, .none _⟩
  · rintro ⟨rfl, read, hread, h⟩
    exact h.cons hread

namespace Extended

theorem nil_iff : Extended env [] before after ↔ before = after := by
  constructor
  · intro h
    obtain ⟨own, hown, horderings⟩ := h.orderings
    cases hown
    have hselect : before.select = after.select := taken_nil_iff.mp h.select
    have hfilter : before.filter = after.filter := taken_nil_iff.mp h.filter
    have hunsupported : before.unsupported = after.unsupported := h.unsupported.symm
    have horder : before.orderings = after.orderings := horderings.symm
    cases before
    cases after
    simp_all
  · rintro rfl
    exact ⟨by simp, .none _, .none _, ⟨[], .nil, rfl⟩, rfl⟩

/-- A projection on top of a chain is read first, and takes the clause for projections. -/
theorem select_iff {selector : Lambda} :
    Extended env (.select selector :: ops) before after ↔
      selector.isGrouped = false ∧ before.select = none ∧
        ∃ p, (selector.read env 1).outcome = .ok p ∧
          Extended env ops { before with select := some p } after := by
  constructor
  · intro h
    obtain ⟨hgrouped, hplain⟩ := List.forall_mem_cons.mp h.plain
    obtain ⟨hfirst, p, hread, hselect⟩ := taken_cons_iff.mp h.select
    exact ⟨hgrouped, hfirst, p, hread, hplain, hselect, h.filter, h.orderings, h.unsupported⟩
  · rintro ⟨hgrouped, hfirst, p, hread, h⟩
    exact ⟨List.forall_mem_cons.mpr ⟨hgrouped, h.plain⟩,
      taken_cons_iff.mpr ⟨hfirst, p, hread, h.select⟩, h.filter, h.orderings, h.unsupported⟩

/-- A filter on top of a chain is read first, and takes the clause for filters. -/
theorem filter_iff {predicate : Lambda} :
    Extended env (.filter predicate :: ops) before after ↔
      predicate.isGrouped = false ∧ before.filter = none ∧
        ∃ p, (predicate.read env 1).outcome = .ok p ∧
          Extended env ops { before with filter := some p } after := by
  constructor
  · intro h
    obtain ⟨hgrouped, hplain⟩ := List.forall_mem_cons.mp h.plain
    obtain ⟨hfirst, p, hread, hfilter⟩ := taken_cons_iff.mp h.filter
    exact ⟨hgrouped, hfirst, p, hread, hplain, h.select, hfilter, h.orderings, h.unsupported⟩
  · rintro ⟨hgrouped, hfirst, p, hread, h⟩
    exact ⟨List.forall_mem_cons.mpr ⟨hgrouped, h.plain⟩, h.select,
      taken_cons_iff.mpr ⟨hfirst, p, hread, h.filter⟩, h.orderings, h.unsupported⟩

/-- An ordering on top of a chain is read first, and comes after those below it. -/
theorem orderBy_iff {key : Lambda} {kind : OrderingKind} :
    Extended env (.orderBy key kind :: ops) before after ↔
      key.isGrouped = false ∧ ∃ ordering, (key.readOrdering env kind).outcome = .ok ordering ∧
        Extended env ops { before with orderings := ordering :: before.orderings } after := by
  constructor
  · intro h
    obtain ⟨hgrouped, hplain⟩ := List.forall_mem_cons.mp h.plain
    obtain ⟨_, hown, horderings⟩ := h.orderings
    cases hown with
    | cons hread hown =>
      refine ⟨hgrouped, _, hread, hplain, h.select, h.filter, ⟨_, hown, ?_⟩, h.unsupported⟩
      rw [horderings, List.reverse_cons, List.append_assoc, List.singleton_append]
  · rintro ⟨hgrouped, ordering, hread, h⟩
    obtain ⟨own, hown, horderings⟩ := h.orderings
    refine ⟨List.forall_mem_cons.mpr ⟨hgrouped, h.plain⟩, h.select, h.filter,
      ⟨ordering :: own, .cons hread hown, ?_⟩, h.unsupported⟩
    rw [horderings, List.reverse_cons, List.append_assoc, List.singleton_append]

/-- **A chain makes the same of the clauses in any order of its operators** in which the orderings
keep theirs. -/
theorem perm (h : Extended env ops before after) (hperm : ops.Perm ops')
    (horder : ops.filterMap Query.Operator.ordering? = ops'.filterMap Query.Operator.ordering?) :
    Extended env ops' before after where
  plain op hop := h.plain op (hperm.mem_iff.mpr hop)
  select := h.select.perm (hperm.filterMap _)
  filter := h.filter.perm (hperm.filterMap _)
  orderings := horder ▸ h.orderings
  unsupported := h.unsupported

end Extended

end Clauses

/-! ## 3. The pass over a chain -/

namespace Query

variable {env : Env}

/-- **The pass over a chain extends the clauses, and goes on below it.** -/
theorem gathers_under {q : Query} {ops : List Operator} {clauses : Clauses} {s : Statement} :
    (q.under ops).Gathers env clauses s ↔
      ∃ clauses', Clauses.Extended env ops clauses clauses' ∧ q.Gathers env clauses' s := by
  induction ops generalizing clauses with
  | nil => simp [under, Clauses.Extended.nil_iff]
  | cons op ops ih =>
    -- one step of the pass, and one line of `Extended`, for each kind of operator
    cases op with
    | select selector =>
      constructor
      · intro h
        cases h with
        | select hgrouped hfirst hread hsource =>
          obtain ⟨clauses', hextended, hq⟩ := ih.mp hsource
          exact ⟨clauses', Clauses.Extended.select_iff.mpr ⟨hgrouped, hfirst, _, hread, hextended⟩, hq⟩
      · rintro ⟨clauses', h, hq⟩
        obtain ⟨hgrouped, hfirst, p, hread, hextended⟩ := Clauses.Extended.select_iff.mp h
        exact .select hgrouped hfirst hread (ih.mpr ⟨clauses', hextended, hq⟩)
    | filter predicate =>
      constructor
      · intro h
        cases h with
        | filter hgrouped hfirst hread hsource =>
          obtain ⟨clauses', hextended, hq⟩ := ih.mp hsource
          exact ⟨clauses', Clauses.Extended.filter_iff.mpr ⟨hgrouped, hfirst, _, hread, hextended⟩, hq⟩
      · rintro ⟨clauses', h, hq⟩
        obtain ⟨hgrouped, hfirst, p, hread, hextended⟩ := Clauses.Extended.filter_iff.mp h
        exact .filter hgrouped hfirst hread (ih.mpr ⟨clauses', hextended, hq⟩)
    | orderBy key kind =>
      constructor
      · intro h
        cases h with
        | orderBy hgrouped hread hsource =>
          obtain ⟨clauses', hextended, hq⟩ := ih.mp hsource
          exact ⟨clauses', Clauses.Extended.orderBy_iff.mpr ⟨hgrouped, _, hread, hextended⟩, hq⟩
      · rintro ⟨clauses', h, hq⟩
        obtain ⟨hgrouped, ordering, hread, hextended⟩ := Clauses.Extended.orderBy_iff.mp h
        exact .orderBy hgrouped hread (ih.mpr ⟨clauses', hextended, hq⟩)

/-- Aggregates are nested in a chain as deep as in the deepest of its lambdas. -/
theorem aggregateDepth_under (q : Query) (ops : List Operator) :
    (q.under ops).aggregateDepth
      = (ops.map fun op => op.lambda.body.aggregateDepth).foldr max q.aggregateDepth := by
  induction ops with
  | nil => rfl
  | cons op ops ih =>
    rw [List.map_cons, List.foldr_cons, ← ih]
    cases op with
    | select l => exact Nat.max_comm _ _
    | filter l => exact Nat.max_comm _ _
    | orderBy l kind => exact Nat.max_comm _ _

theorem aggregateDepth_under_perm (q : Query) {ops ops' : List Operator} (hperm : ops.Perm ops') :
    (q.under ops).aggregateDepth = (q.under ops').aggregateDepth := by
  rw [aggregateDepth_under, aggregateDepth_under]
  exact (hperm.map _).foldr_eq _

/-! ## 4. The theorem -/

/-- **The order of the operators of a chain is irrelevant**, except for the orderings among each
other: over any query, two chains of the same operators are compiled to the same selections. -/
theorem toSelect_under_perm (q : Query) {ops ops' : List Operator} (hperm : ops.Perm ops')
    (horder : ops.filterMap Operator.ordering? = ops'.filterMap Operator.ordering?)
    (select : Sql.Select) :
    ((q.under ops).toSelect env).outcome = .ok select ↔
      ((q.under ops').toSelect env).outcome = .ok select := by
  have hstatement : ∀ s, ((q.under ops).toStatement env).outcome = .ok s ↔
      ((q.under ops').toStatement env).outcome = .ok s := by
    intro s
    rw [toStatement_eq_ok, toStatement_eq_ok, gathers_under, gathers_under]
    refine exists_congr fun clauses => and_congr_left fun _ => ?_
    exact ⟨fun h => h.perm hperm horder, fun h => h.perm hperm.symm horder.symm⟩
  rw [toSelect_eq_ok, toSelect_eq_ok, aggregateDepth_under_perm q hperm]
  exact exists_congr fun s => exists_congr fun lifted => and_congr_left fun _ => hstatement s

/-- The names of the customers in a city, ordered by city and name: the projection may come first or
last. -/
theorem toSelect_customers_of_city :
    let env : Env := ⟨Shop.schema, {}⟩
    let c : Parameter := ⟨"c", .row "Customer"⟩
    let city : Lambda := ⟨[c], Shop.field c "City"⟩
    let name : Lambda := ⟨[c], Shop.field c "Name"⟩
    let london : Lambda :=
      ⟨[c], .binary .equal city.body (.constant (.string "London") (.scalar .string))⟩
    let ops : List Operator :=
      [.select name, .orderBy name .thenBy, .filter london, .orderBy city .orderBy]
    let ops' : List Operator :=
      [.orderBy name .thenBy, .filter london, .orderBy city .orderBy, .select name]
    ops.Perm ops' ∧
    ops.filterMap Operator.ordering? = ops'.filterMap Operator.ordering? ∧
    ∃ select, (((Query.table "Customer").under ops).toSelect env).outcome = .ok select ∧
      (((Query.table "Customer").under ops').toSelect env).outcome = .ok select := by
  intro env c city name london ops ops'
  have hperm : ops.Perm ops' := (List.perm_append_singleton (Operator.select name) _).symm
  exact ⟨hperm, rfl, _, rfl, (toSelect_under_perm _ hperm rfl _).mp rfl⟩

end Query

end ChainQuery
