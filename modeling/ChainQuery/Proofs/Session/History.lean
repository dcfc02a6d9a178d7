import ChainQuery.Proofs.Session.Selection
import ChainQuery.Schema.Shop
import Mathlib.Data.List.Induction
import Mathlib.Data.List.Perm.Subperm
/-!
# The past of a session

A session may have been asked for identifiers, to read lambdas and to compile queries, each with its
own schema and dialect, and any of this may have failed half way (`Request`).  What the next query
compiles to does not depend on it (`outcome_toSelect_after`): not on which types have identifiers by
then, nor on which ones.

Whatever has been asked, the table holds no type twice (`nodup_after`).  The session then compiles the
query to what it is without identifiers, and so does a fresh session, which meets no more types than
the old one knows in the end (`length_registerAll_le`).
-/

namespace ChainQuery

namespace TypeTable

/-- A type is in a table after others were met if it was there before or is one of them. -/
theorem mem_registerAll {T : TypeTable} {ts : List Ty} {t : Ty} :
    t ∈ (T.registerAll ts).types ↔ t ∈ T.types ∨ t ∈ ts := by
  induction ts generalizing T with
  | nil => simp
  | cons u ts ih =>
    have hregister : t ∈ (T.register u).types ↔ t ∈ T.types ∨ t = u := by
      unfold register
      split
      · rename_i hknown
        exact ⟨Or.inl, fun h => h.elim id fun heq => heq ▸ hknown⟩
      · simp
    rw [registerAll_cons, ih, hregister, List.mem_cons, or_assoc]

/-- A fresh table that meets some types is no longer than any other table after meeting them. -/
theorem length_registerAll_le (T : TypeTable) (ts : List Ty) :
    (registerAll {} ts).types.length ≤ (T.registerAll ts).types.length := by
  have hnodup : (registerAll {} ts).types.Nodup := nodup_registerAll List.nodup_nil ts
  refine (List.subperm_of_subset hnodup fun t ht => ?_).length_le
  rcases mem_registerAll.mp ht with hfresh | ht
  · cases hfresh
  · exact mem_registerAll.mpr (Or.inr ht)

end TypeTable

namespace Session

/-! ## Requests -/

/-- What a session can be asked for. -/
inductive Request where
  /-- The identifier of a type. -/
  | identify (t : Ty)
  /-- A lambda with its body read. -/
  | read (env : Env) (arity : Nat) (l : Lambda)
  /-- The selection of a query. -/
  | compile (env : Env) (q : Query)

/-- The table of a session after a request, whatever came of it. -/
def Request.after (T : TypeTable) : Request → TypeTable
  | .identify t => ((SessionM.identify t).exec T).2
  | .read env arity l => ((Session.read env arity l).exec T).2
  | .compile env q => ((toSelect env q).exec T).2

/-- **The table of a session after requests**, from a fresh one on. -/
def after (requests : List Request) : TypeTable := requests.foldl Request.after {}

/-- A request adds types that were not there. -/
theorem Request.nodup_after {T : TypeTable} (h : T.types.Nodup) (r : Request) :
    (r.after T).types.Nodup := by
  cases r with
  | identify t => exact SessionM.nodup_exec _ h
  | read env arity l => exact SessionM.nodup_exec _ h
  | compile env q => exact SessionM.nodup_exec _ h

theorem after_concat (requests : List Request) (r : Request) :
    after (requests ++ [r]) = r.after (after requests) := by
  simp [after]

/-- **No session holds a type twice.** -/
theorem nodup_after (requests : List Request) : (after requests).types.Nodup := by
  induction requests using List.reverseRecOn with
  | nil => exact List.nodup_nil
  | append_singleton requests r ih =>
    rw [after_concat]
    exact r.nodup_after ih

/-! ## Independence -/

/-- What follows and fits has the outcome and leaves the table of what it follows. -/
theorem exec_eq_run {T : TypeTable} {α : Type} {m : SessionM α} {x : Traced α}
    (h : Follows T (fun _ => Eq) m x) (hfits : (m.exec T).2.Fits ∨ (T.registerAll x.met).Fits) :
    m.exec T = T.run x := by
  obtain ⟨r, hr, hrel⟩ := h hfits
  have houtcome : r = x.outcome := by
    generalize x.outcome = outcome at hrel ⊢
    cases hrel with
    | ok heq => exact congrArg Except.ok heq
    | error e => rfl
  rw [hr, houtcome]
  rfl

/-- **What a query compiles to does not depend on the past of the session**: after any requests it is
what it is in a fresh session, as long as there are identifiers for all types that the session has met
in the end.  The session then also has met exactly the types of its past and of the query. -/
theorem outcome_toSelect_after (env : Env) (requests : List Request) (q : Query)
    (hsize : ((toSelect env q).exec (after requests)).2.types.length < 2 ^ 32) :
    ((toSelect env q).exec (after requests)).1 = ((toSelect env q).exec {}).1 ∧
      (toSelect env q).exec (after requests) = (after requests).run (q.toSelect env) := by
  have hnodup : ((toSelect env q).exec (after requests)).2.types.Nodup :=
    SessionM.nodup_exec _ (nodup_after requests)
  have hold : (toSelect env q).exec (after requests) = (after requests).run (q.toSelect env) :=
    exec_eq_run (toSelect_follows q) (.inl ⟨hnodup, hsize⟩)
  have htypes : ((after requests).registerAll (q.toSelect env).met).types.length < 2 ^ 32 := by
    rw [hold] at hsize
    exact hsize
  have hfits : (TypeTable.registerAll {} (q.toSelect env).met).Fits :=
    ⟨TypeTable.nodup_registerAll List.nodup_nil _,
      Nat.lt_of_le_of_lt (TypeTable.length_registerAll_le _ _) htypes⟩
  have hfresh : (toSelect env q).exec {} = TypeTable.run {} (q.toSelect env) :=
    exec_eq_run (toSelect_follows q) (.inr hfits)
  refine ⟨?_, hold⟩
  rw [hold, hfresh]
  rfl

/-- The orders of customers, in a session that has numbered orders first and has failed to join
customers with themselves: `Order` is the first type there, and `Customer` is in a fresh session. -/
theorem outcome_toSelect_after_failure :
    let env : Env := ⟨Shop.schema, {}⟩
    let c : Parameter := ⟨"c", .row "Customer"⟩
    let o : Parameter := ⟨"o", .row "Order"⟩
    let key : Lambda := ⟨[c], Shop.field c "Id"⟩
    let failing := Query.join (.table "Customer") (.table "Customer") key key
      ⟨[c, c], Shop.field c "Name"⟩
    let q := Query.join (.table "Customer") (.table "Order") key ⟨[o], Shop.field o "CustomerId"⟩
      ⟨[c, o], Shop.field o "Amount"⟩
    let requests : List Request := [.read env 1 ⟨[o], Shop.field o "Amount"⟩, .compile env failing]
    (after requests).types = [.row "Order", .row "Customer"] ∧
      ((toSelect env q).exec {}).2.types = [.row "Customer", .row "Order"] ∧
      ((toSelect env q).exec (after requests)).2.types.length < 2 ^ 32 ∧
      ((toSelect env q).exec (after requests)).1 = ((toSelect env q).exec {}).1 := by
  intro env c o key failing q requests
  have hsize : ((toSelect env q).exec (after requests)).2.types.length < 2 ^ 32 :=
    by decide +kernel
  exact ⟨by decide +kernel, by decide +kernel, hsize, (outcome_toSelect_after env requests q hsize).1⟩

end Session

end ChainQuery
