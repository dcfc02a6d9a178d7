import ChainQuery.Compile.TypeTable
import ChainQuery.Proofs.Outcome
import Mathlib.Algebra.Ring.Nat
import Mathlib.Data.List.Forall2
import Mathlib.Data.List.Infix
import Mathlib.Data.List.Nodup
import Mathlib.Order.Defs.PartialOrder
/-!
# Computations in a session

A session hands out identifiers of 32 bits for the types that it meets.  A computation in a session
(`SessionM`) may fail, and the identifiers that it has handed out by then stay handed out.

Such a computation follows one that knows types by themselves (`Follows`) if it has the same failures
and leaves the session with the same table, and what it returns stands for what the other one returns.
What stands for what depends on the table, and is kept while the table grows: a table only gets longer,
so that an identifier names the same type ever after (`TypeTable.Names.mono`).  As long as the table
fits into the identifiers, different types have different ones (`TypeTable.Names.eq_iff`).
-/

namespace ChainQuery

/-! ## 1. Tables -/

/-- An identifier of a type. -/
abbrev TypeId := UInt32

namespace TypeTable

variable {T T' : TypeTable}

/-- A table grows to another by meeting more types. -/
instance : Preorder TypeTable where
  le T T' := T.types <+: T'.types
  le_refl _ := List.prefix_rfl
  le_trans _ _ _ := List.IsPrefix.trans

theorem le_register (T : TypeTable) (t : Ty) : T ≤ T.register t := by
  unfold register
  split
  · exact le_refl T
  · exact List.prefix_append _ _

theorem le_registerAll (T : TypeTable) (ts : List Ty) : T ≤ T.registerAll ts := by
  induction ts generalizing T with
  | nil => exact le_refl T
  | cons t ts ih => exact le_trans (T.le_register t) (ih _)

@[simp] theorem registerAll_nil (T : TypeTable) : T.registerAll [] = T := rfl

theorem registerAll_cons (T : TypeTable) (t : Ty) (ts : List Ty) :
    T.registerAll (t :: ts) = (T.register t).registerAll ts := rfl

theorem registerAll_append (T : TypeTable) (ts us : List Ty) :
    T.registerAll (ts ++ us) = (T.registerAll ts).registerAll us :=
  List.foldl_append

/-- The types of a table are different from each other, and there are identifiers for all of them. -/
structure Fits (T : TypeTable) : Prop where
  nodup : T.types.Nodup
  size : T.types.length < 2 ^ 32

theorem Fits.of_le (h : T'.Fits) (hle : T ≤ T') : T.Fits :=
  ⟨h.nodup.sublist hle.sublist, Nat.lt_of_le_of_lt hle.length_le h.size⟩

theorem nodup_register (h : T.types.Nodup) (t : Ty) : (T.register t).types.Nodup := by
  unfold register
  split
  · exact h
  · rename_i hnew
    exact h.append (List.nodup_singleton t) (by simpa using hnew)

theorem nodup_registerAll (h : T.types.Nodup) (ts : List Ty) : (T.registerAll ts).types.Nodup := by
  induction ts generalizing T with
  | nil => exact h
  | cons t ts ih => exact ih (nodup_register h t)

theorem mem_register (T : TypeTable) (t : Ty) : t ∈ (T.register t).types := by
  unfold register
  split
  · assumption
  · exact List.mem_append_right _ List.mem_cons_self

/-- The identifier of a type that has been met. -/
def identifier (T : TypeTable) (t : Ty) : TypeId := UInt32.ofNatClamp ((T.number? t).getD 0)

/-- An identifier names a type. -/
def Names (T : TypeTable) (n : TypeId) (t : Ty) : Prop := T.type? n.toNat = some t

theorem Names.mono {n : TypeId} {t : Ty} (h : T.Names n t) (hle : T ≤ T') : T'.Names n t := by
  obtain ⟨rest, hrest⟩ := hle
  obtain ⟨hn, _⟩ := List.getElem?_eq_some_iff.mp h
  unfold Names type?
  rw [← hrest, List.getElem?_append_left hn]
  exact h

/-- **Different types have different identifiers.** -/
theorem Names.eq_iff (hT : T.Fits) {n m : TypeId} {t u : Ty} (h : T.Names n t) (h' : T.Names m u) :
    n = m ↔ t = u := by
  constructor
  · rintro rfl
    exact Option.some.inj (h.symm.trans h')
  · rintro rfl
    obtain ⟨hn, _⟩ := List.getElem?_eq_some_iff.mp h
    exact UInt32.toNat.inj ((List.getElem?_inj hn hT.nodup).mp (h.trans h'.symm))

theorem Names.beq_eq (hT : T.Fits) {n m : TypeId} {t u : Ty} (h : T.Names n t) (h' : T.Names m u) :
    (n == m) = (t == u) := by
  rw [Bool.eq_iff_iff, beq_iff_eq, beq_iff_eq, h.eq_iff hT h']

/-- The identifier of a type names it. -/
theorem names_identifier (hT : T.Fits) {t : Ty} (ht : t ∈ T.types) : T.Names (T.identifier t) t := by
  have hindex : T.types.idxOf t < T.types.length := List.idxOf_lt_length_of_mem ht
  have hnumber : (T.number? t).getD 0 = T.types.idxOf t := by
    obtain ⟨n, hn⟩ := Option.isSome_iff_exists.mp (List.isSome_idxOf?.mpr ht)
    rw [number?, List.idxOf_eq_getD_idxOf?, hn]
    rfl
  unfold Names identifier type?
  rw [hnumber, UInt32.toNat_ofNatClamp_of_lt (Nat.lt_trans hindex hT.size),
    List.getElem?_eq_getElem hindex, List.getElem_idxOf]

end TypeTable

/-! ## 2. Computations -/

/-- **A computation in a session**: its outcome and the table afterwards.  All that it does to the table
is to meet types, whether it succeeds or not. -/
structure SessionM (α : Type) where
  exec : TypeTable → Except Error α × TypeTable
  meets : ∀ T, ∃ ts, (exec T).2 = T.registerAll ts

namespace SessionM

variable {α β γ : Type} {T : TypeTable}

theorem ext {m m' : SessionM α} (h : ∀ T, m.exec T = m'.exec T) : m = m' := by
  cases m
  cases m'
  congr
  exact funext h

/-- A computation whose outcome is known. -/
def ofExcept (x : Except Error α) : SessionM α where
  exec T := (x, T)
  meets _ := ⟨[], rfl⟩

/-- A computation and what is done about its outcome. -/
def andThen (m : SessionM α) (k : Except Error α → SessionM β) : SessionM β where
  exec T := (k (m.exec T).1).exec (m.exec T).2
  meets T := by
    obtain ⟨ts, hts⟩ := m.meets T
    obtain ⟨us, hus⟩ := (k (m.exec T).1).meets (m.exec T).2
    exact ⟨ts ++ us, by rw [hus, hts, TypeTable.registerAll_append]⟩

/-- One computation after another.  The second does not happen if the first failed. -/
def bind (m : SessionM α) (f : α → SessionM β) : SessionM β :=
  m.andThen fun
    | .ok a => f a
    | .error e => ofExcept (.error e)

/-- The handling of a failure. -/
def orElse (m : SessionM α) (f : Error → SessionM α) : SessionM α :=
  m.andThen fun
    | .ok a => ofExcept (.ok a)
    | .error e => f e

instance : Monad SessionM where
  pure a := ofExcept (.ok a)
  bind := bind

instance : MonadExceptOf Error SessionM where
  throw e := ofExcept (.error e)
  tryCatch := orElse

instance : MonadLift (Except Error) SessionM where
  monadLift := ofExcept

/-- The table of the session. -/
def table : SessionM TypeTable where
  exec T := (.ok T, T)
  meets _ := ⟨[], rfl⟩

/-- Meets a type and gives its identifier.  All types for which there is none share the last one. -/
def identify (t : Ty) : SessionM TypeId where
  exec T := (.ok ((T.register t).identifier t), T.register t)
  meets _ := ⟨[t], rfl⟩

/-- Meets types, in order. -/
def identifyAll (ts : List Ty) : SessionM (List TypeId) := ts.mapM identify

/-- A computation that uses none of the identifiers of the types that it meets. -/
def ofTraced (x : Traced α) : SessionM α where
  exec T := T.run x
  meets _ := ⟨x.met, rfl⟩

theorem exec_bind_of_ok {m : SessionM α} {a : α} {T' : TypeTable} (h : m.exec T = (.ok a, T'))
    (f : α → SessionM β) : (m >>= f).exec T = (f a).exec T' := by
  change (bind m f).exec T = _
  simp only [bind, andThen, h]

theorem exec_bind_of_error {m : SessionM α} {e : Error} {T' : TypeTable}
    (h : m.exec T = (.error e, T')) (f : α → SessionM β) : (m >>= f).exec T = (.error e, T') := by
  change (bind m f).exec T = _
  simp only [bind, andThen, h, ofExcept]

theorem id_map (m : SessionM α) : id <$> m = m := by
  refine ext fun T => ?_
  rcases h : m.exec T with ⟨r, T'⟩
  cases r with
  | error e => exact exec_bind_of_error h _
  | ok a => exact exec_bind_of_ok h _

theorem pure_bind (a : α) (f : α → SessionM β) : pure a >>= f = f a := rfl

theorem bind_assoc (m : SessionM α) (f : α → SessionM β) (g : β → SessionM γ) :
    m >>= f >>= g = m >>= fun a => f a >>= g := by
  refine ext fun T => ?_
  rcases h : m.exec T with ⟨r, T'⟩
  cases r with
  | error e => rw [exec_bind_of_error (exec_bind_of_error h f), exec_bind_of_error h]
  | ok a =>
    rw [exec_bind_of_ok h]
    change (bind (bind m f) g).exec T = (bind (f a) g).exec T'
    simp only [bind, andThen, h]

instance : LawfulMonad SessionM := LawfulMonad.mk' SessionM id_map pure_bind bind_assoc

theorem le_exec (m : SessionM α) (T : TypeTable) : T ≤ (m.exec T).2 := by
  obtain ⟨ts, hts⟩ := m.meets T
  exact hts ▸ T.le_registerAll ts

theorem nodup_exec (m : SessionM α) (h : T.types.Nodup) : (m.exec T).2.types.Nodup := by
  obtain ⟨ts, hts⟩ := m.meets T
  exact hts ▸ TypeTable.nodup_registerAll h ts

/-- The table after a computation grows to the one after a longer computation. -/
theorem exec_le_bind (m : SessionM α) (f : α → SessionM β) (T : TypeTable) :
    (m.exec T).2 ≤ ((m >>= f).exec T).2 :=
  le_exec _ _

end SessionM

/-! ## 3. Following -/

/-- Outcomes that are related: the same failure, or related values. -/
inductive Outcome.Rel {α β : Type} (R : α → β → Prop) : Except Error α → Except Error β → Prop
  | ok {a : α} {b : β} (h : R a b) : Rel R (.ok a) (.ok b)
  | error (e : Error) : Rel R (.error e) (.error e)

/-- **A computation in a session follows one that knows types by themselves**: if there are
identifiers enough for one of them, it leaves the same table and has a related outcome.  The bound may
be on either table, so that the size of a session need only be known where the session is. -/
def Follows {α β : Type} (T : TypeTable) (R : TypeTable → α → β → Prop) (m : SessionM α)
    (x : Traced β) : Prop :=
  (m.exec T).2.Fits ∨ (T.registerAll x.met).Fits →
    ∃ r, m.exec T = (r, T.registerAll x.met) ∧
      Outcome.Rel (R (T.registerAll x.met)) r x.outcome

theorem Traced.registerAll_le_bind {α β : Type} (x : Traced α) (g : α → Traced β) (T : TypeTable) :
    T.registerAll x.met ≤ T.registerAll (x >>= g).met := by
  cases hx : x.outcome with
  | error e => rw [Traced.bind_of_error hx]
  | ok b =>
    rw [Traced.bind_of_ok hx, TypeTable.registerAll_append]
    exact TypeTable.le_registerAll _ _

namespace Follows

variable {α β γ δ : Type} {T : TypeTable} {R : TypeTable → α → β → Prop}
  {S : TypeTable → γ → δ → Prop}

theorem pure {a : α} {b : β} (h : R T a b) : Follows T R (pure a) (pure b) :=
  fun _ => ⟨.ok a, rfl, .ok h⟩

theorem throw (e : Error) : Follows T R (throw e) (throw e) := fun _ => ⟨.error e, rfl, .error e⟩

/-- The table that a computation starts from may be taken to fit. -/
theorem of_fits {m : SessionM α} {x : Traced β} (h : T.Fits → Follows T R m x) : Follows T R m x := by
  intro hfits
  refine h ?_ hfits
  rcases hfits with hfits | hfits
  · exact hfits.of_le (m.le_exec T)
  · exact hfits.of_le (T.le_registerAll _)

/-- **One computation after another follows the same sequence**, if the second part does from every
table that the first may leave. -/
theorem bind {m : SessionM α} {x : Traced β} {f : α → SessionM γ} {g : β → Traced δ}
    (hm : Follows T R m x)
    (hf : ∀ T', T ≤ T' → ∀ a b, R T' a b → Follows T' S (f a) (g b)) :
    Follows T S (m >>= f) (x >>= g) := by
  intro hfits
  -- whichever table fits in the end, it did after the first part
  obtain ⟨r, hr, hrel⟩ := hm (hfits.imp (fun h => h.of_le (m.exec_le_bind f T))
    fun h => h.of_le (x.registerAll_le_bind g T))
  cases hx : x.outcome with
  | error e =>
    rw [hx] at hrel
    cases hrel
    rw [Traced.bind_of_error hx]
    exact ⟨.error e, SessionM.exec_bind_of_error hr f, .error e⟩
  | ok b =>
    rw [hx] at hrel
    cases hrel with
    | ok hab =>
      rw [Traced.bind_of_ok hx, TypeTable.registerAll_append, SessionM.exec_bind_of_ok hr] at hfits ⊢
      exact hf _ (T.le_registerAll _) _ _ hab hfits

/-- An outcome that no identifier has a part in. -/
theorem lift (x : Except Error α) : Follows T (fun _ => Eq) (liftM x) (liftM x) := by
  intro _
  refine ⟨x, rfl, ?_⟩
  cases x with
  | ok a => exact .ok rfl
  | error e => exact .error e

theorem ofTraced (x : Traced α) : Follows T (fun _ => Eq) (SessionM.ofTraced x) x := by
  intro _
  refine ⟨x.outcome, rfl, ?_⟩
  cases x.outcome with
  | ok a => exact .ok rfl
  | error e => exact .error e

/-- **Meeting a type gives an identifier that names it.** -/
theorem identify (t : Ty) :
    Follows T (fun T n _ => T.Names n t) (SessionM.identify t) (Traced.meet t) :=
  fun hfits => ⟨_, rfl, .ok (TypeTable.names_identifier (or_self_iff.mp hfits) (T.mem_register t))⟩

theorem identifyAll (ts : List Ty) :
    Follows T (fun T ns _ => List.Forall₂ T.Names ns ts) (SessionM.identifyAll ts)
      (Traced.meetAll ts) := by
  induction ts generalizing T with
  | nil => exact fun _ => ⟨.ok [], rfl, .ok .nil⟩
  | cons t ts ih =>
    have hsplit : Traced.meetAll (t :: ts)
        = Traced.meet t >>= fun _ => Traced.meetAll ts >>= fun _ => Pure.pure () :=
      Traced.ext (congrArg (t :: ·) ts.append_nil.symm) rfl
    rw [hsplit, SessionM.identifyAll, List.mapM_cons]
    refine (identify t).bind fun T' _ n _ hn => ?_
    exact ih.bind fun T'' hle ns _ hns => pure (.cons (hn.mono hle) hns)

end Follows

/-- **A computation in a session yields what another does**, from the given table and from all that it
grows to. -/
def Yields {α : Type} (T : TypeTable) (m : SessionM α) (x : Traced α) : Prop :=
  ∀ ⦃T'⦄, T ≤ T' → Follows T' (fun _ => Eq) m x

namespace Yields

variable {α β γ : Type} {T T' : TypeTable}

theorem follows {m : SessionM α} {x : Traced α} (h : Yields T m x) : Follows T (fun _ => Eq) m x :=
  h (le_refl T)

theorem mono {m : SessionM α} {x : Traced α} (h : Yields T m x) (hle : T ≤ T') : Yields T' m x :=
  fun _ hle' => h (le_trans hle hle')

theorem pure (a : α) : Yields T (pure a) (pure a) := fun _ _ => .pure rfl

theorem throw (e : Error) : Yields T (throw e : SessionM α) (throw e) := fun _ _ => .throw e

theorem lift (x : Except Error α) : Yields T (liftM x) (liftM x) := fun _ _ => .lift x

theorem of_fits {m : SessionM α} {x : Traced α} (h : T.Fits → Yields T m x) : Yields T m x :=
  fun _ hle => .of_fits fun hfits => h (hfits.of_le hle) hle

theorem bind {m : SessionM α} {x : Traced α} {f : α → SessionM β} {g : α → Traced β}
    (hm : Yields T m x) (hf : ∀ a, Yields T (f a) (g a)) : Yields T (m >>= f) (x >>= g) := by
  intro T₁ hle₁
  refine (hm hle₁).bind ?_
  rintro T₂ hle₂ a _ rfl
  exact hf a (le_trans hle₁ hle₂)

/-- **Traversals yield the same if they do element by element.** -/
theorem mapM {f : α → SessionM γ} {g : β → Traced γ} {as : List α} {bs : List β}
    (h : List.Forall₂ (fun a b => Yields T (f a) (g b)) as bs) :
    Yields T (as.mapM f) (bs.mapM g) := by
  induction h with
  | nil => exact pure []
  | cons hab _ ih =>
    rw [List.mapM_cons, List.mapM_cons]
    exact hab.bind fun c => ih.bind fun cs => pure (c :: cs)

end Yields

end ChainQuery
