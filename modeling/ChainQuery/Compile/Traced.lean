import ChainQuery.Error
/-!
# Computations that meet types

The compiler meets types as it goes, and a session numbers them in the order in which they are first
met.  No step of the compiler depends on the numbers, so a computation is its outcome together with
the list of the types that it met on the way, whether it succeeded or not (`Traced`).
-/

namespace ChainQuery

/-- An outcome, and the types met before it, in order. -/
structure Traced (α : Type) where
  met : List Ty
  outcome : Except Error α

namespace Traced

variable {α β γ : Type}

/-- One computation after another.  The second does not happen if the first failed. -/
def bind (x : Traced α) (f : α → Traced β) : Traced β :=
  match x.outcome with
  | .ok a => ⟨x.met ++ (f a).met, (f a).outcome⟩
  | .error e => ⟨x.met, .error e⟩

/-- The handling of a failure, which keeps what was met before it. -/
def orElse (x : Traced α) (f : Error → Traced α) : Traced α :=
  match x.outcome with
  | .ok _ => x
  | .error e => ⟨x.met ++ (f e).met, (f e).outcome⟩

instance : Monad Traced where
  pure a := ⟨[], .ok a⟩
  bind := bind

instance : MonadExceptOf Error Traced where
  throw e := ⟨[], .error e⟩
  tryCatch := orElse

instance : MonadLift (Except Error) Traced where
  monadLift outcome := ⟨[], outcome⟩

/-- Meets a type. -/
def meet (t : Ty) : Traced Unit := ⟨[t], .ok ()⟩

/-- Meets types, in order. -/
def meetAll (ts : List Ty) : Traced Unit := ⟨ts, .ok ()⟩

/-! ## Laws -/

@[ext] theorem ext {x y : Traced α} (hm : x.met = y.met) (ho : x.outcome = y.outcome) : x = y := by
  cases x; cases y; simp_all

@[simp] theorem met_pure (a : α) : (pure a : Traced α).met = [] := rfl

@[simp] theorem outcome_pure (a : α) : (pure a : Traced α).outcome = .ok a := rfl

@[simp] theorem met_throw (e : Error) : (throw e : Traced α).met = [] := rfl

@[simp] theorem outcome_throw (e : Error) : (throw e : Traced α).outcome = .error e := rfl

theorem bind_of_ok {x : Traced α} {a : α} (h : x.outcome = .ok a) (f : α → Traced β) :
    x >>= f = ⟨x.met ++ (f a).met, (f a).outcome⟩ := by
  change bind x f = _
  simp [bind, h]

theorem bind_of_error {x : Traced α} {e : Error} (h : x.outcome = .error e) (f : α → Traced β) :
    x >>= f = ⟨x.met, .error e⟩ := by
  change bind x f = _
  simp [bind, h]

theorem id_map (x : Traced α) : id <$> x = x := by
  change bind x _ = x
  cases h : x.outcome <;> ext1 <;> simp [bind, h]

theorem pure_bind (a : α) (f : α → Traced β) : pure a >>= f = f a := by
  simp [bind_of_ok (outcome_pure a)]

theorem bind_assoc (x : Traced α) (f : α → Traced β) (g : β → Traced γ) :
    x >>= f >>= g = x >>= fun a => f a >>= g := by
  change bind (bind x f) g = bind x fun a => bind (f a) g
  cases h : x.outcome with
  | error e => simp [bind, h]
  | ok a =>
    cases h' : (f a).outcome with
    | error e => simp [bind, h, h']
    | ok b => simp [bind, h, h', List.append_assoc]

instance : LawfulMonad Traced := LawfulMonad.mk' Traced id_map pure_bind bind_assoc

end Traced

end ChainQuery
