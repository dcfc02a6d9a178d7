import ChainQuery.Proofs.Coupling.Renaming
import ChainQuery.Schema.Shop
/-!
# String constants never reach the text of a statement

Whatever strings the constants of a query hold, they end up as parameters.
`Query.toSelect_mapStrings` says so by comparing two queries that differ only in these strings: they
compile together, to the same text, and the parameters of the one are those of the other with their
strings replaced.
-/

namespace ChainQuery

/-- **String constants never reach the text.**  For every injective renaming of the strings of its
constants, a query compiles iff the renamed query does; both have the same text, and the parameters
are renamed one by one. -/
theorem Query.toSelect_mapStrings (env : Env) (q : Query) {f : String → String} (hf : f.Injective) :
    ((q.mapStrings f).toSelect env).outcome.isOk = (q.toSelect env).outcome.isOk ∧
    ∀ ⦃select select' : Sql.Select⦄, (q.toSelect env).outcome = .ok select →
      ((q.mapStrings f).toSelect env).outcome = .ok select' →
        select'.render.text = select.render.text ∧
        select'.render.params = select.render.params.map (Sql.Param.mapString f) := by
  have hq : q.Coupled (.renaming (.refl env) hf (fun _ => True) True) (q.mapStrings f) :=
    Query.coupled_mapStrings fun _ _ => trivial
  have hagrees := hq.toSelect Coupling.renaming_sound q.aggregateDepth_mapStrings
  refine ⟨(hagrees.isOk_eq ⟨trivial, .refl env⟩).symm, fun select select' h h' => ?_⟩
  rw [hagrees.related h h', Sql.Select.render_mapParams]
  exact ⟨rfl, rfl⟩

/-- A quote in front of a name: the customers of that name are still those whose name is the first
parameter. -/
theorem Query.toSelect_mapStrings_sample :
    let env : Env := ⟨Shop.schema, {}⟩
    let c : Parameter := ⟨"c", .row "Customer"⟩
    let q := Query.filter (.table "Customer")
      ⟨[c], .binary .equal (Shop.field c "Name") (.constant (.string "Ada") (.scalar .string))⟩
    let f := fun s : String => "'" ++ s
    f.Injective ∧ ∃ select select',
      (q.toSelect env).outcome = .ok select ∧
      ((q.mapStrings f).toSelect env).outcome = .ok select' ∧
      select'.render.text = select.render.text ∧
      select.render.params = [.string "Ada"] ∧
      select'.render.params = select.render.params.map (Sql.Param.mapString f) := by
  intro env c q f
  have hf : f.Injective := fun s t h => by simpa [f] using h
  obtain ⟨_, hrender⟩ := Query.toSelect_mapStrings env q hf
  obtain ⟨htext, hparams⟩ := hrender rfl rfl
  exact ⟨hf, _, _, rfl, rfl, htext, rfl, hparams⟩

end ChainQuery
