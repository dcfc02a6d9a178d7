/-!
# Association lists

Two ways to keep a map as a list of entries with distinct keys.  `put` remembers the order in which
keys first came: an entry for a known key takes its place.  `insertSorted` keeps the entries in the
order of their names.  Entries are read with `List.lookup` in both.
-/

namespace ChainQuery.Assoc

variable {κ α : Type}

/-- Gives a key a value: in the place of the key if it is there, else at the end. -/
def put [BEq κ] (key : κ) (value : α) : List (κ × α) → List (κ × α)
  | [] => [(key, value)]
  | (k, v) :: rest => if k == key then (k, value) :: rest else (k, v) :: put key value rest

/-- The map of a list of entries: each key stands where it first came and has its last value. -/
def ofEntries [BEq κ] (entries : List (κ × α)) : List (κ × α) :=
  entries.foldl (fun m e => put e.1 e.2 m) []

/-- Gives a name a value, keeping the names in ascending order. -/
def insertSorted (name : String) (value : α) : List (String × α) → List (String × α)
  | [] => [(name, value)]
  | (k, v) :: rest =>
    if name < k then (name, value) :: (k, v) :: rest
    else if k == name then (name, value) :: rest
    else (k, v) :: insertSorted name value rest

/-- The sorted map of a list of entries: each name has its last value. -/
def sortedOfEntries (entries : List (String × α)) : List (String × α) :=
  entries.foldl (fun m e => insertSorted e.1 e.2 m) []

/-! ## What the operations do to a reader -/

/-- After `put`, the key has the value. -/
theorem lookup_put_self [BEq κ] [LawfulBEq κ] (key : κ) (value : α) (m : List (κ × α)) :
    (put key value m).lookup key = some value := by
  induction m with
  | nil => simp [put]
  | cons e rest ih =>
    obtain ⟨k, v⟩ := e
    by_cases h : k = key
    · simp [put, h]
    · simp [put, h, List.lookup_cons, ih, beq_eq_false_iff_ne.mpr (Ne.symm h)]

/-- `put` leaves every other key alone. -/
theorem lookup_put_of_ne [BEq κ] [LawfulBEq κ] {key other : κ} (h : other ≠ key) (value : α)
    (m : List (κ × α)) : (put key value m).lookup other = m.lookup other := by
  induction m with
  | nil => simp [put, List.lookup_cons, beq_eq_false_iff_ne.mpr h]
  | cons e rest ih =>
    obtain ⟨k, v⟩ := e
    by_cases hk : k = key
    · subst hk
      simp [put, List.lookup_cons, beq_eq_false_iff_ne.mpr h]
    · simp [put, hk, List.lookup_cons, ih]

/-- After `put`, an entry is the new one or was there before. -/
theorem mem_put [BEq κ] [LawfulBEq κ] {key : κ} {value : α} {m : List (κ × α)} {e : κ × α}
    (h : e ∈ put key value m) : e = (key, value) ∨ e ∈ m := by
  induction m with
  | nil => exact Or.inl (List.mem_singleton.mp h)
  | cons entry rest ih =>
    obtain ⟨k, v⟩ := entry
    rw [put] at h
    split at h
    · rename_i hk
      rcases List.mem_cons.mp h with rfl | h
      · exact Or.inl (congrArg (·, value) (beq_iff_eq.mp hk))
      · exact Or.inr (List.mem_cons_of_mem _ h)
    · rcases List.mem_cons.mp h with rfl | h
      · exact Or.inr List.mem_cons_self
      · exact (ih h).imp_right (List.mem_cons_of_mem _)

/-- What a key has is one of the entries. -/
theorem mem_of_lookup [BEq κ] [LawfulBEq κ] {key : κ} {value : α} {m : List (κ × α)}
    (h : m.lookup key = some value) : (key, value) ∈ m := by
  obtain ⟨before, rest, rfl, _⟩ := List.lookup_eq_some_iff.mp h
  exact List.mem_append_right before List.mem_cons_self

/-- Looking up a changed value is changing what is looked up. -/
theorem lookup_map [BEq κ] {β : Type} (f : α → β) (key : κ) (m : List (κ × α)) :
    (m.map fun (k, v) => (k, f v)).lookup key = (m.lookup key).map f := by
  induction m with
  | nil => rfl
  | cons e rest ih =>
    obtain ⟨k, v⟩ := e
    rw [List.map_cons, List.lookup_cons, List.lookup_cons, ih]
    cases key == k <;> rfl

/-! ## Distinct keys -/

/-- `put` for a known key moves no key. -/
theorem keys_put_of_mem [BEq κ] [LawfulBEq κ] {key : κ} {m : List (κ × α)}
    (h : key ∈ m.map Prod.fst) (value : α) :
    (put key value m).map Prod.fst = m.map Prod.fst := by
  induction m with
  | nil => simp at h
  | cons e rest ih =>
    obtain ⟨k, v⟩ := e
    by_cases hk : k = key
    · simp [put, hk]
    · have hrest : key ∈ rest.map Prod.fst := by
        rcases List.mem_cons.mp h with heq | hmem
        · exact absurd heq.symm hk
        · exact hmem
      simp [put, hk, ih hrest]

/-- `put` for a new key adds an entry at the end. -/
theorem put_of_not_mem [BEq κ] [LawfulBEq κ] {key : κ} {m : List (κ × α)}
    (h : key ∉ m.map Prod.fst) (value : α) : put key value m = m ++ [(key, value)] := by
  induction m with
  | nil => simp [put]
  | cons e rest ih =>
    obtain ⟨k, v⟩ := e
    have hk : k ≠ key := fun heq => h (by simp [heq])
    have hrest : key ∉ rest.map Prod.fst := fun hmem => h (List.mem_cons_of_mem _ hmem)
    simp [put, hk, ih hrest]

/-- After `put`, the key is there. -/
theorem mem_keys_put_self [BEq κ] [LawfulBEq κ] (key : κ) (value : α) (m : List (κ × α)) :
    key ∈ (put key value m).map Prod.fst :=
  List.mem_map_of_mem (mem_of_lookup (lookup_put_self key value m))

/-- `put` takes no key away. -/
theorem keys_subset_keys_put [BEq κ] [LawfulBEq κ] (key : κ) (value : α) (m : List (κ × α)) :
    m.map Prod.fst ⊆ (put key value m).map Prod.fst := by
  by_cases hkey : key ∈ m.map Prod.fst
  · rw [keys_put_of_mem hkey]
    exact List.Subset.refl _
  · rw [put_of_not_mem hkey, List.map_append]
    exact List.subset_append_left _ _

/-- `put` keeps the keys distinct. -/
theorem nodup_keys_put [BEq κ] [LawfulBEq κ] {m : List (κ × α)} (h : (m.map Prod.fst).Nodup)
    (key : κ) (value : α) : ((put key value m).map Prod.fst).Nodup := by
  by_cases hmem : key ∈ m.map Prod.fst
  · rw [keys_put_of_mem hmem]
    exact h
  · rw [put_of_not_mem hmem, List.map_append, List.nodup_append]
    refine ⟨h, by simp, ?_⟩
    intro a ha b hb heq
    have hbk : b = key := by simpa using hb
    exact hmem (hbk ▸ heq ▸ ha)

/-- **Entries with distinct keys are their own map.** -/
theorem ofEntries_eq_self [BEq κ] [LawfulBEq κ] {entries : List (κ × α)}
    (h : (entries.map Prod.fst).Nodup) : ofEntries entries = entries := by
  have grow : ∀ (rest m : List (κ × α)), ((m ++ rest).map Prod.fst).Nodup →
      rest.foldl (fun m e => put e.1 e.2 m) m = m ++ rest := by
    intro rest
    induction rest with
    | nil => simp
    | cons e rest ih =>
      intro m hm
      have hnew : e.1 ∉ m.map Prod.fst := by
        rw [List.map_append, List.nodup_append] at hm
        exact fun hmem => hm.2.2 _ hmem e.1 (by simp) rfl
      rw [List.foldl_cons, put_of_not_mem hnew, ih _ (by simpa using hm)]
      simp
  simpa [ofEntries] using grow entries [] (by simpa using h)

end ChainQuery.Assoc
