import ChainQuery.Proofs.Session.History
/-!
# The identifiers of a session

A session hands out identifiers all along: for the types that it is asked for, and for those that come up
while it reads lambdas and compiles queries, also where it fails in the end.  What happens in a run is
therefore told by the types whose identifiers are asked for, in order (`Session.asked`).  A point of the
run, within a request or between two, is a beginning of this list, and the table at that point is made by
meeting the types up to there.

As long as there are identifiers for all of them, a type has the same identifier whenever it is asked for,
different types have different ones, and each can be looked up from then on (`Session.identifiers_stable`).
-/

namespace ChainQuery

/-! ## 1. Handing out identifiers -/

namespace TypeTable

variable {T : TypeTable} {ts : List Ty}

/-- **The identifiers that are handed out** for types that are asked for one after the other. -/
def handOuts (T : TypeTable) : List Ty → List (Ty × TypeId)
  | [] => []
  | t :: ts => (t, (T.register t).identifier t) :: (T.register t).handOuts ts

/-- What is handed out is what the computations return that ask. -/
theorem exec_identifyAll (T : TypeTable) (ts : List Ty) :
    (SessionM.identifyAll ts).exec T = (.ok ((T.handOuts ts).map Prod.snd), T.registerAll ts) := by
  induction ts generalizing T with
  | nil => rfl
  | cons t ts ih =>
    have hfirst : (SessionM.identify t).exec T
        = (.ok ((T.register t).identifier t), T.register t) := rfl
    rw [SessionM.identifyAll, List.mapM_cons, SessionM.exec_bind_of_ok hfirst]
    exact SessionM.exec_bind_of_ok (ih _) _

theorem handOuts_append (T : TypeTable) (ts us : List Ty) :
    T.handOuts (ts ++ us) = T.handOuts ts ++ (T.registerAll ts).handOuts us := by
  induction ts generalizing T with
  | nil => rfl
  | cons t ts ih => exact congrArg (_ :: ·) (ih _)

theorem registerAll_mono (T : TypeTable) {past : List Ty} (h : past <+: ts) :
    T.registerAll past ≤ T.registerAll ts := by
  obtain ⟨future, rfl⟩ := h
  rw [registerAll_append]
  exact le_registerAll _ _

/-- **An identifier that has been handed out names the type that it was handed out for.** -/
theorem names_of_mem_handOuts (hfits : (T.registerAll ts).Fits) {t : Ty} {n : TypeId}
    (h : (t, n) ∈ T.handOuts ts) : (T.registerAll ts).Names n t := by
  induction ts generalizing T with
  | nil => cases h
  | cons u ts ih =>
    rw [registerAll_cons] at hfits ⊢
    rcases List.mem_cons.mp h with hfirst | hrest
    · obtain ⟨rfl, rfl⟩ := Prod.mk.inj hfirst
      have hle : T.register t ≤ (T.register t).registerAll ts := le_registerAll _ _
      exact (names_identifier (hfits.of_le hle) (T.mem_register t)).mono hle
    · exact ih hfits hrest

end TypeTable

namespace Session

/-! ## 2. Runs -/

/-- **The types whose identifiers a request asks for**, in order, until it succeeds or fails. -/
def Request.asked : Request → List Ty
  | .identify t => [t]
  | .read env arity l => (l.read env arity).met
  | .compile env q => (q.toSelect env).met

/-- The types whose identifiers are asked for in a run. -/
def asked (requests : List Request) : List Ty := requests.flatMap Request.asked

/-- **The identifiers that are handed out in a run.** -/
def handOuts (requests : List Request) : List (Ty × TypeId) := TypeTable.handOuts {} (asked requests)

theorem asked_append (before later : List Request) :
    asked (before ++ later) = asked before ++ asked later :=
  List.flatMap_append

theorem asked_singleton (r : Request) : asked [r] = r.asked := List.flatMap_singleton _ _

theorem Request.le_after (T : TypeTable) (r : Request) : T ≤ r.after T := by
  cases r with
  | identify t => exact SessionM.le_exec _ T
  | read env arity l => exact SessionM.le_exec _ T
  | compile env q => exact SessionM.le_exec _ T

/-- **All that a request does to the table is to ask for identifiers**, as long as there are any. -/
theorem Request.after_eq {T : TypeTable} {r : Request} (hfits : (r.after T).Fits) :
    r.after T = T.registerAll r.asked := by
  cases r with
  | identify t => rfl
  | read env arity l =>
    obtain ⟨_, hexec, _⟩ := read_follows env arity l (.inl hfits)
    exact congrArg Prod.snd hexec
  | compile env q =>
    obtain ⟨_, hexec, _⟩ := toSelect_follows q (.inl hfits)
    exact congrArg Prod.snd hexec

/-- The table only grows in a run. -/
theorem after_mono {before requests : List Request} (h : before <+: requests) :
    after before ≤ after requests := by
  obtain ⟨later, rfl⟩ := h
  induction later using List.reverseRecOn with
  | nil => rw [List.append_nil]
  | append_singleton later r ih =>
    rw [← List.append_assoc, after_concat]
    exact le_trans ih (r.le_after _)

/-- **The table after a run is that of all types that were asked for.** -/
theorem after_eq_registerAll {requests : List Request} (hfits : (after requests).Fits) :
    after requests = TypeTable.registerAll {} (asked requests) := by
  induction requests using List.reverseRecOn with
  | nil => rfl
  | append_singleton requests r ih =>
    rw [after_concat] at hfits ⊢
    have hbefore : (after requests).Fits := hfits.of_le (r.le_after _)
    rw [Request.after_eq hfits, ih hbefore, asked_append, TypeTable.registerAll_append, asked_singleton]

/-! ## 3. The theorem -/

/-- **Identifiers are stable and different for different types.**  In any run that sees fewer than `2 ^ 32`
types, between two requests the table holds no type twice, and a request only appends to it.  A type has
the same identifier whenever it is asked for, by itself or on the way of a request, and no other type has
it.  At every point of the run the identifiers handed out up to there are looked up as the types that they
were handed out for. -/
theorem identifiers_stable (requests : List Request)
    (hsize : (after requests).types.length < 2 ^ 32) :
    (∀ before, before <+: requests →
      (after before).types.Nodup ∧ after before = TypeTable.registerAll {} (asked before)) ∧
    (∀ before r, before ++ [r] <+: requests →
      (after before).types <+: (after (before ++ [r])).types) ∧
    (∀ before t, before ++ [.identify t] <+: requests →
      ∃ n, ((SessionM.identify t).exec (after before)).1 = .ok n ∧ (t, n) ∈ handOuts requests) ∧
    (∀ t n u m, (t, n) ∈ handOuts requests → (u, m) ∈ handOuts requests → (n = m ↔ t = u)) ∧
    ∀ past t n, past <+: asked requests → (t, n) ∈ TypeTable.handOuts {} past →
      (TypeTable.registerAll {} past).type? n.toNat = some t := by
  have hfits : (after requests).Fits := ⟨nodup_after requests, hsize⟩
  have htable {before : List Request} (h : before <+: requests) :
      after before = TypeTable.registerAll {} (asked before) :=
    after_eq_registerAll (hfits.of_le (after_mono h))
  have hasked : (TypeTable.registerAll {} (asked requests)).Fits := htable List.prefix_rfl ▸ hfits
  refine ⟨fun before h => ⟨nodup_after before, htable h⟩, ?_, ?_, ?_, ?_⟩
  · intro before r _
    exact after_mono (List.prefix_append _ _)
  · intro before t h
    refine ⟨_, rfl, ?_⟩
    have hbefore : before <+: requests := (List.prefix_append _ _).trans h
    obtain ⟨later, rfl⟩ := h
    rw [htable hbefore, handOuts, asked_append, asked_append, asked_singleton, List.append_assoc,
      TypeTable.handOuts_append]
    exact List.mem_append_right _ List.mem_cons_self
  · intro t n u m ht hu
    exact (TypeTable.names_of_mem_handOuts hasked ht).eq_iff hasked
      (TypeTable.names_of_mem_handOuts hasked hu)
  · intro past t n hpast hn
    exact TypeTable.names_of_mem_handOuts (hasked.of_le (TypeTable.registerAll_mono {} hpast)) hn

/-- A session that is asked for orders, fails to join customers with themselves, for which it asks for them
five times, and is then asked for both. -/
theorem identifiers_stable_after_failure :
    let env : Env := ⟨Shop.schema, {}⟩
    let c : Parameter := ⟨"c", .row "Customer"⟩
    let key : Lambda := ⟨[c], Shop.field c "Id"⟩
    let failing := Query.join (.table "Customer") (.table "Customer") key key
      ⟨[c, c], Shop.field c "Name"⟩
    let requests : List Request :=
      [.identify (.row "Order"), .compile env failing, .identify (.row "Order"), .identify (.row "Customer")]
    (after requests).types.length < 2 ^ 32 ∧
      handOuts requests = (.row "Order", 0) :: List.replicate 5 (.row "Customer", 1)
        ++ [(.row "Order", 0), (.row "Customer", 1)] ∧
      ((1 : TypeId) = 0 ↔ Ty.row "Customer" = Ty.row "Order") := by
  intro env c key failing requests
  have hsize : (after requests).types.length < 2 ^ 32 := by decide +kernel
  have hhanded : handOuts requests = (.row "Order", 0) :: List.replicate 5 (.row "Customer", 1)
      ++ [(.row "Order", 0), (.row "Customer", 1)] := by
    decide +kernel
  refine ⟨hsize, hhanded, ?_⟩
  obtain ⟨-, -, -, hinjective, -⟩ := identifiers_stable requests hsize
  exact hinjective _ _ _ _ (by simp [hhanded]) (by simp [hhanded])

end Session

end ChainQuery
