import ChainQuery.Compile.Plan
import ChainQuery.Proofs.Coupling.Renaming
import ChainQuery.Schema.Shop
/-!
# Registering more row types

A schema that has every row type of another one, with the same information, compiles every query that the
other compiles, to the same plan (`Query.compile_of_within`).

The reason is that the compiler never takes an absence for an answer: a look-up that finds nothing ends the
compilation.  So a run that succeeds has asked for row types that are there, and finds the same ones in the
larger schema.  The two runs are coupled with no string renamed, and nothing is said of the runs that find
more in the larger schema.
-/

namespace ChainQuery

/-- **Registering more row types changes no compiled query**: a query that compiles has the same plan
against every schema that has the row types of the first one, under every dialect. -/
theorem Query.compile_of_within {schema schema' : Schema} (h : schema.Within schema')
    {dialect : Dialect} {q : Query} {plan : Plan} (hq : q.compile ⟨schema, dialect⟩ = .ok plan) :
    q.compile ⟨schema', dialect⟩ = .ok plan := by
  have henv : Env.Within ⟨schema, dialect⟩ ⟨schema', dialect⟩ := ⟨h, rfl⟩
  obtain ⟨evaluated, hevaluated, hq⟩ := Except.bind_eq_ok.mp hq
  obtain ⟨select, hselect, hplan⟩ := Except.bind_eq_ok.mp hq
  refine Except.bind_eq_ok.mpr ⟨evaluated, hevaluated, Except.bind_eq_ok.mpr ⟨select, ?_, hplan⟩⟩
  have hsame : evaluated.Coupled
      (.renaming henv Function.injective_id (fun _ => True) False) evaluated :=
    Query.coupled_self fun _ _ => trivial
  exact hsame.toSelect_eq Coupling.renaming_sound rfl rfl hselect

/-- The number of orders of each customer, against the customers and orders of the shop alone and against
the whole shop.  The navigation from an order to its lines leads nowhere in the first. -/
theorem Query.compile_of_within_shop :
    let schema : Schema := ⟨[("Customer", Shop.customer), ("Order", Shop.order)]⟩
    let c : Parameter := ⟨"c", .row "Customer"⟩
    let q := Query.select (.table "Customer")
      ⟨[c], .aggregate .count (Shop.field c "Orders") none (.scalar .int32)⟩
    let orders : Sql.Select :=
      { list := .plain [.countAll]
        source := some (.table (.table "Order") (some (Sql.depthAlias 1)))
        joins := []
        filter := .op (.aliasedColumn (Sql.depthAlias 1) "CustomerId") "="
          (.aliasedColumn (Sql.depthAlias 0) "Id")
        orderBy := [] }
    let plan : Plan :=
      { rowType := "int32"
        select := { list := .plain [.subselect orders]
                    source := some (.table (.table "Customer") (some (Sql.depthAlias 0)))
                    joins := []
                    filter := .always
                    orderBy := [] } }
    schema.Within Shop.schema ∧ schema.rowType "OrderLine" ≠ Shop.schema.rowType "OrderLine" ∧
    q.compile ⟨schema, {}⟩ = .ok plan ∧ q.compile ⟨Shop.schema, {}⟩ = .ok plan := by
  intro schema c q orders plan
  have hwithin : schema.Within Shop.schema := .append schema.rowTypes [("OrderLine", Shop.orderLine)]
  have hplan : q.compile ⟨schema, {}⟩ = .ok plan := rfl
  exact ⟨hwithin, nofun, hplan, Query.compile_of_within hwithin hplan⟩

end ChainQuery
