import ChainQuery.Compile.Projection
import Mathlib.Data.List.Forall2
/-!
# Outcomes of computations

Evaluation ends in a value or a failure (`Except`), compilation also lists the types that it met
(`Traced`), and reading a lambda carries a record of what was read besides (`ReadM`).  The lemmas
here open one step of each: a sequence of two computations succeeds iff both do, and the second
starts from what the first returned.  Every inversion of a compiled or evaluated result goes
through them.
-/

/-- Every element of the first of two related lists is related to one of the second. -/
theorem List.Forall₂.exists_of_mem {α β : Type} {R : α → β → Prop} {xs : List α} {ys : List β}
    (h : List.Forall₂ R xs ys) {x : α} (hx : x ∈ xs) : ∃ y ∈ ys, R x y := by
  induction h with
  | nil => cases hx
  | cons hxy _ ih =>
    rcases List.mem_cons.mp hx with rfl | hx
    · exact ⟨_, List.mem_cons_self, hxy⟩
    · obtain ⟨y, hy, hxy⟩ := ih hx
      exact ⟨y, List.mem_cons_of_mem _ hy, hxy⟩

/-- Traversals agree if they agree on every element. -/
theorem List.mapM_congr {m : Type → Type} [Monad m] [LawfulMonad m] {α β : Type} {f g : α → m β}
    {xs : List α} (h : ∀ x ∈ xs, f x = g x) : xs.mapM f = xs.mapM g := by
  induction xs with
  | nil => rfl
  | cons x xs ih =>
    obtain ⟨hx, hxs⟩ := List.forall_mem_cons.mp h
    rw [List.mapM_cons, List.mapM_cons, hx, ih hxs]

namespace Except

variable {ε α β : Type}

@[simp] theorem ok_bind (a : α) (f : α → Except ε β) : (.ok a >>= f) = f a := rfl

/-- A sequence has a value iff both of its parts do. -/
theorem bind_eq_ok {x : Except ε α} {f : α → Except ε β} {b : β} :
    (x >>= f) = .ok b ↔ ∃ a, x = .ok a ∧ f a = .ok b := by
  cases x with
  | error e => simp [bind, Except.bind]
  | ok a => simp [bind, Except.bind]

/-- A traversal has a value iff every element does. -/
theorem mapM_eq_ok {f : α → Except ε β} {xs : List α} {ys : List β} :
    xs.mapM f = .ok ys ↔ List.Forall₂ (fun x y => f x = .ok y) xs ys := by
  induction xs generalizing ys with
  | nil =>
    rw [List.mapM_nil, List.forall₂_nil_left_iff]
    constructor
    · intro h
      cases h
      rfl
    · rintro rfl
      rfl
  | cons x rest ih =>
    rw [List.mapM_cons, bind_eq_ok, List.forall₂_cons_left_iff]
    constructor
    · rintro ⟨y, hy, h⟩
      obtain ⟨ys', hrest, h⟩ := bind_eq_ok.mp h
      cases h
      exact ⟨y, ys', hy, ih.mp hrest, rfl⟩
    · rintro ⟨y, ys', hy, hrest, rfl⟩
      exact ⟨y, hy, bind_eq_ok.mpr ⟨ys', ih.mpr hrest, rfl⟩⟩

/-- A sequence fails iff one of its parts does, the second after the first had a value. -/
theorem bind_eq_error {x : Except ε α} {f : α → Except ε β} {e : ε} :
    (x >>= f) = .error e ↔ x = .error e ∨ ∃ a, x = .ok a ∧ f a = .error e := by
  cases x with
  | error e' => simp [bind, Except.bind]
  | ok a => simp [bind, Except.bind]

/-- **A traversal fails at the first element that does**: all before it have values. -/
theorem mapM_eq_error {f : α → Except ε β} {xs : List α} {e : ε} :
    xs.mapM f = .error e ↔
      ∃ (i : Nat) (x : α), xs[i]? = some x ∧ f x = .error e ∧
        ∀ j < i, ∀ y, xs[j]? = some y → ∃ b, f y = .ok b := by
  induction xs with
  | nil =>
    constructor
    · rintro ⟨⟩
    · rintro ⟨i, x, ⟨⟩, _⟩
  | cons first rest ih =>
    rw [List.mapM_cons, bind_eq_error]
    constructor
    · rintro (hfirst | ⟨b, hfirst, h⟩)
      · exact ⟨0, first, rfl, hfirst, by rintro j ⟨⟩⟩
      · rcases bind_eq_error.mp h with hrest | ⟨bs, _, h⟩
        · obtain ⟨i, x, hx, hfail, hbefore⟩ := ih.mp hrest
          refine ⟨i + 1, x, hx, hfail, ?_⟩
          rintro (_ | j) hj y hy
          · exact ⟨b, Option.some.inj hy ▸ hfirst⟩
          · exact hbefore j (Nat.lt_of_succ_lt_succ hj) y hy
        · cases h
    · rintro ⟨_ | i, x, hx, hfail, hbefore⟩
      · exact Or.inl (Option.some.inj hx ▸ hfail)
      · obtain ⟨b, hfirst⟩ := hbefore 0 (Nat.succ_pos i) first rfl
        have hrest : rest.mapM f = .error e :=
          ih.mpr ⟨i, x, hx, hfail, fun j hj => hbefore (j + 1) (Nat.succ_lt_succ hj)⟩
        exact Or.inr ⟨b, hfirst, bind_eq_error.mpr (Or.inl hrest)⟩

/-- A traversal fails at one of the elements. -/
theorem exists_of_mapM_eq_error {f : α → Except ε β} {xs : List α} {e : ε}
    (h : xs.mapM f = .error e) : ∃ x ∈ xs, f x = .error e := by
  obtain ⟨i, x, hx, hfail, -⟩ := mapM_eq_error.mp h
  exact ⟨x, List.mem_of_getElem? hx, hfail⟩

/-- Checks of all elements pass iff each of them does. -/
theorem forM_eq_ok {f : α → Except ε Unit} {xs : List α} :
    xs.forM f = .ok () ↔ ∀ x ∈ xs, f x = .ok () := by
  induction xs with
  | nil => exact ⟨fun _ => by simp, fun _ => rfl⟩
  | cons x rest ih =>
    change (f x >>= fun _ => rest.forM f) = .ok () ↔ _
    rw [bind_eq_ok, List.forall_mem_cons, ih]
    constructor
    · rintro ⟨_, hx, hrest⟩
      exact ⟨hx, hrest⟩
    · rintro ⟨hx, hrest⟩
      exact ⟨(), hx, hrest⟩

end Except

namespace ChainQuery

variable {α β : Type}

@[simp] theorem Traced.outcome_liftM (x : Except Error α) : (liftM x : Traced α).outcome = x := rfl

@[simp] theorem Traced.outcome_meet (t : Ty) : (Traced.meet t).outcome = .ok () := rfl

@[simp] theorem Traced.outcome_meetAll (ts : List Ty) : (Traced.meetAll ts).outcome = .ok () := rfl

/-- The outcome of a sequence is the sequence of the outcomes. -/
theorem Traced.outcome_bind (x : Traced α) (f : α → Traced β) :
    (x >>= f).outcome = x.outcome >>= fun a => (f a).outcome := by
  cases h : x.outcome with
  | error e => rw [Traced.bind_of_error h]; rfl
  | ok a => rw [Traced.bind_of_ok h]; rfl

/-- The outcome of a traversal is the traversal of the outcomes. -/
theorem Traced.outcome_mapM (f : α → Traced β) (xs : List α) :
    (xs.mapM f).outcome = xs.mapM fun x => (f x).outcome := by
  induction xs with
  | nil => rfl
  | cons x rest ih => simp only [List.mapM_cons, outcome_bind, ih, outcome_pure]; rfl

/-- A sequence succeeds iff both of its parts do. -/
theorem Traced.bind_eq_ok {x : Traced α} {f : α → Traced β} {b : β} :
    (x >>= f).outcome = .ok b ↔ ∃ a, x.outcome = .ok a ∧ (f a).outcome = .ok b := by
  rw [outcome_bind, Except.bind_eq_ok]

/-- A traversal succeeds iff every element does. -/
theorem Traced.mapM_eq_ok {f : α → Traced β} {xs : List α} {ys : List β} :
    (xs.mapM f).outcome = .ok ys ↔ List.Forall₂ (fun x y => (f x).outcome = .ok y) xs ys := by
  rw [outcome_mapM, Except.mapM_eq_ok]

/-- What a traversal returns comes from an element. -/
theorem Traced.exists_of_mem_mapM {f : α → Traced β} {xs : List α} {ys : List β}
    (h : (xs.mapM f).outcome = .ok ys) {y : β} (hy : y ∈ ys) : ∃ x ∈ xs, (f x).outcome = .ok y := by
  have hall := mapM_eq_ok.mp h
  clear h
  induction hall with
  | nil => cases hy
  | cons hx _ ih =>
    rcases List.mem_cons.mp hy with rfl | hy
    · exact ⟨_, List.mem_cons_self, hx⟩
    · obtain ⟨x, hmem, hx⟩ := ih hy
      exact ⟨x, List.mem_cons_of_mem _ hmem, hx⟩

/-- What becomes of an element is among what a traversal returns. -/
theorem Traced.exists_mem_of_mapM {f : α → Traced β} {xs : List α} {ys : List β}
    (h : (xs.mapM f).outcome = .ok ys) {x : α} (hx : x ∈ xs) : ∃ y ∈ ys, (f x).outcome = .ok y :=
  (mapM_eq_ok.mp h).exists_of_mem hx

/-- A traversal that returns nothing was over nothing. -/
theorem Traced.mapM_eq_nil {f : α → Traced β} {xs : List α} (h : (xs.mapM f).outcome = .ok []) :
    xs = [] :=
  List.forall₂_nil_right_iff.mp (mapM_eq_ok.mp h)

/-- Reading one thing after another succeeds iff both do, the second from where the first left. -/
theorem ReadM.bind_eq_ok {m : ReadM α} {f : α → ReadM β} {r r' : Reading} {b : β} :
    ((m >>= f).run r).outcome = .ok (b, r') ↔
      ∃ a mid, (m.run r).outcome = .ok (a, mid) ∧ ((f a).run mid).outcome = .ok (b, r') := by
  rw [StateT.run_bind, Traced.bind_eq_ok]
  constructor
  · rintro ⟨⟨a, mid⟩, ha, hb⟩
    exact ⟨a, mid, ha, hb⟩
  · rintro ⟨a, mid, ha, hb⟩
    exact ⟨⟨a, mid⟩, ha, hb⟩

end ChainQuery
