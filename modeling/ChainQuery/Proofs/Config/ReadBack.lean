import ChainQuery.Config.Basic
import ChainQuery.Proofs.Json.ReadBack
import ChainQuery.Schema.Shop
/-!
# Reading back configurations

A written configuration is read back as it was, if it is of the current version, and refused for its
version otherwise.  The maps of a schema are kept as lists of entries: row types, foreign keys and
navigations in the order of their names, columns in the order of their declaration.  That these lists
are maps at all is what `Config.WellFormed` says.  Reading gives the entries back in the same order:
those of a sorted map because sorting changes nothing, those of the columns because no member is
declared twice.
-/

namespace ChainQuery

/-! ## 1. Sorted maps -/

namespace Assoc

variable {α : Type}

/-- Whether the names of a map ascend. -/
def Sorted (m : List (String × α)) : Prop := (m.map Prod.fst).Pairwise (· < ·)

instance (m : List (String × α)) : Decidable (Sorted m) :=
  inferInstanceAs (Decidable ((m.map Prod.fst).Pairwise (· < ·)))

/-- A name after all others goes to the end. -/
theorem insertSorted_of_forall_lt {name : String} {m : List (String × α)}
    (h : ∀ k ∈ m.map Prod.fst, k < name) (value : α) :
    insertSorted name value m = m ++ [(name, value)] := by
  induction m with
  | nil => rfl
  | cons e rest ih =>
    obtain ⟨k, v⟩ := e
    obtain ⟨hk, hrest⟩ := List.forall_mem_cons.mp h
    have hbefore : ¬ name < k := String.lt_asymm hk
    have hne : ¬ (k == name) = true := by
      intro heq
      rw [beq_iff_eq.mp heq] at hk
      exact String.lt_irrefl _ hk
    rw [insertSorted, if_neg hbefore, if_neg hne, ih hrest, List.cons_append]

/-- **A sorted map is the map of its entries.** -/
theorem sortedOfEntries_eq_self {entries : List (String × α)} (h : Sorted entries) :
    sortedOfEntries entries = entries := by
  have grow : ∀ rest m : List (String × α), Sorted (m ++ rest) →
      rest.foldl (fun m e => insertSorted e.1 e.2 m) m = m ++ rest := by
    intro rest
    induction rest with
    | nil => simp
    | cons e rest ih =>
      intro m hm
      have hlast : ∀ k ∈ m.map Prod.fst, k < e.1 := by
        rw [Sorted, List.map_append, List.pairwise_append] at hm
        exact fun k hk => hm.2.2 k hk e.1 List.mem_cons_self
      rw [List.foldl_cons, insertSorted_of_forall_lt hlast, ih _ (by simpa using hm)]
      simp
  simpa [sortedOfEntries] using grow entries [] (by simpa using h)

theorem mem_insertSorted {name : String} {value : α} {m : List (String × α)} {e : String × α}
    (h : e ∈ insertSorted name value m) : e = (name, value) ∨ e ∈ m := by
  induction m with
  | nil => exact .inl (List.mem_singleton.mp h)
  | cons e' rest ih =>
    rw [insertSorted] at h
    split at h
    · exact List.mem_cons.mp h
    · split at h
      · exact (List.mem_cons.mp h).imp_right (List.mem_cons_of_mem _)
      · rcases List.mem_cons.mp h with rfl | h
        · exact .inr List.mem_cons_self
        · exact (ih h).imp_right (List.mem_cons_of_mem _)

/-- An entry more keeps a map sorted. -/
theorem Sorted.insertSorted {m : List (String × α)} (h : Sorted m) (name : String) (value : α) :
    Sorted (insertSorted name value m) := by
  induction m with
  | nil => exact List.pairwise_singleton _ _
  | cons e rest ih =>
    obtain ⟨k, v⟩ := e
    obtain ⟨hfirst, hrest⟩ := List.pairwise_cons.mp h
    rw [Assoc.insertSorted]
    split
    · rename_i hbefore
      refine List.pairwise_cons.mpr ⟨?_, h⟩
      exact List.forall_mem_cons.mpr ⟨hbefore, fun k' hk' => String.lt_trans hbefore (hfirst k' hk')⟩
    · rename_i hbefore
      split
      · rename_i heq
        rw [← beq_iff_eq.mp heq]
        exact h
      · rename_i hne
        have hafter : k < name := by
          refine Classical.byContradiction fun hnot => hne (beq_iff_eq.mpr ?_)
          exact String.le_antisymm (String.not_lt.mp hbefore) (String.not_lt.mp hnot)
        refine List.pairwise_cons.mpr ⟨List.forall_mem_map.mpr fun e he => ?_, ih hrest⟩
        rcases mem_insertSorted he with rfl | he
        · exact hafter
        · exact hfirst e.1 (List.mem_map_of_mem he)

/-- **What is read as a sorted map is sorted.** -/
theorem sorted_sortedOfEntries (entries : List (String × α)) : Sorted (sortedOfEntries entries) := by
  have grow : ∀ rest m : List (String × α), Sorted m →
      Sorted (rest.foldl (fun m e => insertSorted e.1 e.2 m) m) := by
    intro rest
    induction rest with
    | nil => exact fun _ hm => hm
    | cons e rest ih => exact fun m hm => ih _ (hm.insertSorted e.1 e.2)
  exact grow entries [] List.Pairwise.nil

/-- **What is read as a map has every key once.** -/
theorem nodup_keys_ofEntries (entries : List (String × α)) :
    ((ofEntries entries).map Prod.fst).Nodup := by
  have grow : ∀ rest m : List (String × α), (m.map Prod.fst).Nodup →
      ((rest.foldl (fun m e => put e.1 e.2 m) m).map Prod.fst).Nodup := by
    intro rest
    induction rest with
    | nil => exact fun _ hm => hm
    | cons e rest ih => exact fun m hm => ih _ (nodup_keys_put hm e.1 e.2)
  exact grow entries [] List.Pairwise.nil

/-- What is in a sorted map is one of the entries that it was read from. -/
theorem mem_of_mem_sortedOfEntries {entries : List (String × α)} {e : String × α}
    (h : e ∈ sortedOfEntries entries) : e ∈ entries := by
  have grow : ∀ rest m : List (String × α),
      e ∈ rest.foldl (fun m e => insertSorted e.1 e.2 m) m → e ∈ m ∨ e ∈ rest := by
    intro rest
    induction rest with
    | nil => exact fun _ he => .inl he
    | cons e' rest ih =>
      intro m he
      rcases ih _ he with he | he
      · rcases mem_insertSorted he with rfl | he
        · exact .inr List.mem_cons_self
        · exact .inl he
      · exact .inr (List.mem_cons_of_mem _ he)
  exact (grow entries [] h).resolve_left List.not_mem_nil

end Assoc

/-! ## 2. Well-formed configurations -/

/-- The maps of a row type are maps. -/
structure RowType.WellFormed (r : RowType) : Prop where
  columns : (r.columns.map Prod.fst).Nodup
  foreignKeys : Assoc.Sorted r.foreignKeys
  navigations : Assoc.Sorted r.navigations

instance (r : RowType) : Decidable r.WellFormed :=
  decidable_of_iff ((r.columns.map Prod.fst).Nodup ∧ Assoc.Sorted r.foreignKeys ∧
      Assoc.Sorted r.navigations)
    ⟨fun h => ⟨h.1, h.2.1, h.2.2⟩, fun h => ⟨h.columns, h.foreignKeys, h.navigations⟩⟩

/-- The maps of a schema are maps. -/
structure Schema.WellFormed (s : Schema) : Prop where
  names : Assoc.Sorted s.rowTypes
  rowTypes : ∀ e ∈ s.rowTypes, e.2.WellFormed

instance (s : Schema) : Decidable s.WellFormed :=
  decidable_of_iff (Assoc.Sorted s.rowTypes ∧ ∀ e ∈ s.rowTypes, e.2.WellFormed)
    ⟨fun h => ⟨h.1, h.2⟩, fun h => ⟨h.names, h.rowTypes⟩⟩

/-- **What every configuration has**: a version of 32 bits, and maps that are maps. -/
structure Config.WellFormed (c : Config) : Prop where
  version : c.version < UInt32.size
  schema : c.schema.WellFormed

instance (c : Config) : Decidable c.WellFormed :=
  decidable_of_iff (c.version < UInt32.size ∧ c.schema.WellFormed)
    ⟨fun h => ⟨h.1, h.2⟩, fun h => ⟨h.version, h.schema⟩⟩

/-! ## 3. Schemas -/

namespace RowType

/-- The entries of an object are read back if their contents are. -/
theorem entriesOf?_object {α : Type} (write : α → Json) {read : Json → Option α}
    {entries : List (String × α)} (h : ∀ e ∈ entries, read (write e.2) = some e.2) :
    entriesOf? read (.object (entries.map fun e => (e.1, write e.2))) = some entries := by
  refine Json.mapM_map_eq_some fun e he => ?_
  have hread : (do return (e.1, ← read (write e.2))) = some e := by
    rw [h e he]
    rfl
  exact hread

end RowType

namespace Column

theorem stringOrNull?_optionalString (s : Option String) :
    stringOrNull? (.optionalString s) = some s := by
  cases s <;> rfl

theorem ofJson?_toJson (c : Column) : ofJson? c.toJson = some c := by
  have hread : ofJson? c.toJson = do
      return { name := c.name, type := ← ScalarType.ofJson? .strict c.type.toJson
               description := ← stringOrNull? (.optionalString c.description) } := rfl
  rw [hread, ScalarType.ofJson?_toJson, stringOrNull?_optionalString]
  rfl

end Column

/-- **A row type is read back**, its columns in their order. -/
theorem RowType.ofJson?_toJson {r : RowType} (h : r.WellFormed) : ofJson? r.toJson = some r := by
  have hread : ofJson? r.toJson = do
      return { table := r.table, primaryKey := r.primaryKey
               columns := Assoc.ofEntries (← entriesOf? Column.ofJson?
                 (.object (r.columns.map fun e => (e.1, e.2.toJson))))
               foreignKeys := Assoc.sortedOfEntries (← entriesOf? Json.string?
                 (.object (r.foreignKeys.map fun e => (e.1, .string e.2))))
               navigations := Assoc.sortedOfEntries (← entriesOf? target?
                 (.object (r.navigations.map fun e => (e.1, .object [("target", .string e.2)])))) } := rfl
  have hnavigations : entriesOf? target?
      (.object (r.navigations.map fun e => (e.1, .object [("target", .string e.2)])))
        = some r.navigations :=
    entriesOf?_object (fun target => .object [("target", .string target)]) fun _ _ => rfl
  rw [hread, entriesOf?_object Column.toJson fun e _ => e.2.ofJson?_toJson,
    entriesOf?_object Json.string fun _ _ => rfl, hnavigations]
  have hvalue : some { r with
      columns := Assoc.ofEntries r.columns
      foreignKeys := Assoc.sortedOfEntries r.foreignKeys
      navigations := Assoc.sortedOfEntries r.navigations } = some r := by
    rw [Assoc.ofEntries_eq_self h.columns, Assoc.sortedOfEntries_eq_self h.foreignKeys,
      Assoc.sortedOfEntries_eq_self h.navigations]
  exact hvalue

/-- **A schema is read back.** -/
theorem Schema.ofJson?_toJson {s : Schema} (h : s.WellFormed) : ofJson? s.toJson = some s := by
  have hread : ofJson? s.toJson = do
      return { rowTypes := Assoc.sortedOfEntries (← RowType.entriesOf? RowType.ofJson?
        (.object (s.rowTypes.map fun e => (e.1, e.2.toJson)))) } := rfl
  rw [hread, RowType.entriesOf?_object RowType.toJson fun e he =>
    RowType.ofJson?_toJson (h.rowTypes e he)]
  have hvalue : some { s with rowTypes := Assoc.sortedOfEntries s.rowTypes } = some s := by
    rw [Assoc.sortedOfEntries_eq_self h.names]
  exact hvalue

theorem Dialect.ofJson?_toJson (d : Dialect) : ofJson? d.toJson = some d := by
  have hread : ofJson? d.toJson = do return { division := ← DivisionOp.ofName? d.division.name } := rfl
  rw [hread, DivisionOp.ofName?_name]
  rfl

/-! There is no number in what is written for a schema. -/

theorem Column.numbers_toJson (c : Column) : c.toJson.numbers = [] := by
  have hnumbers : c.toJson.numbers = (Json.optionalString c.description).numbers ++ [] := rfl
  rw [hnumbers]
  cases c.description <;> rfl

theorem RowType.numbers_toJson (r : RowType) : r.toJson.numbers = [] := by
  have hcolumns : Json.memberNumbers (r.columns.map fun e => (e.1, e.2.toJson)) = [] :=
    Json.memberNumbers_map_eq_nil Column.toJson fun e _ => e.2.numbers_toJson
  have hforeignKeys : Json.memberNumbers (r.foreignKeys.map fun e => (e.1, .string e.2)) = [] :=
    Json.memberNumbers_map_eq_nil Json.string fun _ _ => rfl
  have hnavigations : Json.memberNumbers
      (r.navigations.map fun e => (e.1, .object [("target", .string e.2)])) = [] :=
    Json.memberNumbers_map_eq_nil (fun target => .object [("target", .string target)]) fun _ _ => rfl
  have hnumbers : r.toJson.numbers
      = Json.memberNumbers (r.columns.map fun e => (e.1, e.2.toJson))
        ++ (Json.memberNumbers (r.foreignKeys.map fun e => (e.1, .string e.2))
        ++ (Json.memberNumbers (r.navigations.map fun e => (e.1, .object [("target", .string e.2)]))
        ++ [])) := rfl
  rw [hnumbers, hcolumns, hforeignKeys, hnavigations]
  rfl

@[simp] theorem Schema.numbers_toJson (s : Schema) : s.toJson.numbers = [] :=
  Json.memberNumbers_map_eq_nil RowType.toJson fun e _ => e.2.numbers_toJson

/-! ## 4. Configurations -/

namespace Config

theorem version?_int {version : Nat} (h : version < UInt32.size) :
    version? (.int version) = some version := by
  have hrange : 0 ≤ (version : Int) ∧ (version : Int).toNat < UInt32.size := by
    simpa using h
  rw [Json.int, version?, if_pos hrange]
  simp

/-- **A configuration of any version is read back from its JSON form**, with or without a dialect. -/
theorem decode_toJson {c : Config} (h : c.WellFormed) : decode c.toJson = some c := by
  have hversion := version?_int h.version
  have hschema := Schema.ofJson?_toJson h.schema
  by_cases hdialect : c.dialect = {}
  · have hread : decode c.toJson = do
        return { version := ← version? (.int c.version), schema := ← Schema.ofJson? c.schema.toJson
                 dialect := {} } := by
      rw [toJson, if_pos (beq_iff_eq.mpr hdialect)]
      rfl
    rw [hread, hversion, hschema, ← hdialect]
    rfl
  · have hread : decode c.toJson = do
        return { version := ← version? (.int c.version), schema := ← Schema.ofJson? c.schema.toJson
                 dialect := ← Dialect.ofJson? c.dialect.toJson } := by
      rw [toJson, if_neg (by simpa using hdialect)]
      rfl
    rw [hread, hversion, hschema, c.dialect.ofJson?_toJson]
    rfl

/-- **The only number in a written configuration** is its version. -/
theorem numbers_toJson (c : Config) : c.toJson.numbers = [.int c.version] := by
  by_cases hdialect : c.dialect = {}
  · simp [toJson, hdialect, Json.numbers, Json.memberNumbers, Json.int]
  · simp [toJson, hdialect, Json.numbers, Json.memberNumbers, Json.int, Dialect.toJson]

/-- **A written configuration is read back** if it is of the current version, and refused for its
version otherwise. -/
theorem parse_write {c : Config} (h : c.WellFormed) :
    parse c.write
      = if c.version = currentVersion then .ok c else .error (.unsupportedVersion c.version) := by
  have hversion : (Json.Number.int c.version).ReadsBack := by
    have hsize : UInt32.size ≤ Decimal.significandMax := by decide
    have hbound := h.version
    exact Json.Number.readsBack_int (by omega) (by omega)
  have htext : Json.parse? c.write = some c.toJson := by
    refine Json.parse?_pretty (fun n hn => ?_) rfl
    rw [numbers_toJson, List.mem_singleton] at hn
    rw [hn]
    exact hversion
  rw [parse, htext]
  simp only [ofJson, decode_toJson h, beq_iff_eq]

theorem parse_write_shop :
    ({ version := 1, schema := Shop.schema, dialect := { division := .backslash } }
      : Config).WellFormed ∧
    parse (write { version := 1, schema := Shop.schema, dialect := { division := .backslash } })
      = .ok { version := 1, schema := Shop.schema, dialect := { division := .backslash } } ∧
    parse (write { version := 2, schema := Shop.schema }) = .error (.unsupportedVersion 2) :=
  ⟨by decide, parse_write (by decide), parse_write (by decide)⟩

end Config

/-! ## 5. Configurations that were read -/

theorem RowType.wellFormed_of_ofJson? {j : Json} {r : RowType} (h : ofJson? j = some r) :
    r.WellFormed := by
  unfold ofJson? at h
  obtain ⟨ms, -, h⟩ := Option.bind_eq_some_iff.mp h
  obtain ⟨table, -, h⟩ := Option.bind_eq_some_iff.mp h
  obtain ⟨primaryKey, -, h⟩ := Option.bind_eq_some_iff.mp h
  obtain ⟨j', -, h⟩ := Option.bind_eq_some_iff.mp h
  obtain ⟨columns, -, h⟩ := Option.bind_eq_some_iff.mp h
  obtain ⟨foreignKeys, -, h⟩ := Option.bind_eq_some_iff.mp h
  obtain ⟨navigations, -, h⟩ := Option.bind_eq_some_iff.mp h
  cases h
  exact ⟨Assoc.nodup_keys_ofEntries _, Assoc.sorted_sortedOfEntries _,
    Assoc.sorted_sortedOfEntries _⟩

theorem Schema.wellFormed_of_ofJson? {j : Json} {s : Schema} (h : ofJson? j = some s) :
    s.WellFormed := by
  unfold ofJson? at h
  obtain ⟨entries, hentries, h⟩ := Option.bind_eq_some_iff.mp h
  cases h
  refine ⟨Assoc.sorted_sortedOfEntries _, fun e he => ?_⟩
  obtain ⟨ms, -, hread⟩ := Option.bind_eq_some_iff.mp hentries
  obtain ⟨m, -, hread⟩ := Json.exists_of_mem_mapM hread e (Assoc.mem_of_mem_sortedOfEntries he)
  obtain ⟨r, hr, hread⟩ := Option.bind_eq_some_iff.mp hread
  cases hread
  exact RowType.wellFormed_of_ofJson? hr

namespace Config

theorem lt_of_version? {j : Json} {version : Nat} (h : version? j = some version) :
    version < UInt32.size := by
  unfold version? at h
  split at h
  · obtain ⟨hrange, h⟩ := Option.ite_none_right_eq_some.mp h
    cases h
    exact hrange.2
  · cases h

/-- The schema of a configuration without one is empty. -/
theorem wellFormed_of_schema? {ms : Json.Members} {schema : Schema}
    (h : ms.orElse? "metadata" {} schema? = some schema) : schema.WellFormed := by
  unfold Json.Members.orElse? at h
  obtain ⟨metadata, -, h⟩ := Option.bind_eq_some_iff.mp h
  cases metadata with
  | none =>
    cases h
    exact ⟨List.Pairwise.nil, nofun⟩
  | some j =>
    obtain ⟨members, -, h⟩ := Option.bind_eq_some_iff.mp h
    obtain ⟨rowTypes, -, h⟩ := Option.bind_eq_some_iff.mp h
    exact Schema.wellFormed_of_ofJson? h

theorem wellFormed_of_decode {j : Json} {c : Config} (h : decode j = some c) : c.WellFormed := by
  unfold decode at h
  obtain ⟨ms, -, h⟩ := Option.bind_eq_some_iff.mp h
  obtain ⟨jversion, -, h⟩ := Option.bind_eq_some_iff.mp h
  obtain ⟨version, hversion, h⟩ := Option.bind_eq_some_iff.mp h
  obtain ⟨schema, hschema, h⟩ := Option.bind_eq_some_iff.mp h
  obtain ⟨dialect, -, h⟩ := Option.bind_eq_some_iff.mp h
  cases h
  exact ⟨lt_of_version? hversion, wellFormed_of_schema? hschema⟩

/-- **Every configuration that is read is well-formed**, and of the current version. -/
theorem wellFormed_of_parse {text : String} {c : Config} (h : parse text = .ok c) :
    c.WellFormed ∧ c.version = currentVersion := by
  unfold parse at h
  split at h
  · cases h
  · unfold ofJson at h
    split at h
    · cases h
    · rename_i c' hdecode
      split at h
      · rename_i hversion
        cases h
        exact ⟨wellFormed_of_decode hdecode, beq_iff_eq.mp hversion⟩
      · cases h

/-- **A configuration that was read is read again** from what is written for it. -/
theorem parse_write_of_parse {text : String} {c : Config} (h : parse text = .ok c) :
    parse c.write = .ok c := by
  obtain ⟨hwell, hversion⟩ := wellFormed_of_parse h
  rw [parse_write hwell, if_pos hversion]

end Config

end ChainQuery
