import ChainQuery.Assoc
import Mathlib.Data.List.Forall2
/-!
# Related options, lists and maps

Two runs of a compiler are compared by relating what they hold.  Options, lists and association lists
that are related entry by entry look the same to whatever asks both of them the same question: they
have an entry in the same places, and the entries found are related.
-/

namespace Option.Rel

variable {α β γ δ : Type} {R R' : α → β → Prop} {S : γ → δ → Prop} {x x' : Option α} {y y' : Option β}

theorem isSome_eq (h : Option.Rel R x y) : x.isSome = y.isSome := by
  cases h with
  | some => rfl
  | none => rfl

theorem map (h : Option.Rel R x y) {f : α → γ} {g : β → δ} (hfg : ∀ a b, R a b → S (f a) (g b)) :
    Option.Rel S (x.map f) (y.map g) := by
  cases h with
  | some hab => exact .some (hfg _ _ hab)
  | none => exact .none

theorem map_eq (h : Option.Rel R x y) {f : α → γ} {g : β → γ} (hfg : ∀ a b, R a b → f a = g b) :
    x.map f = y.map g := by
  cases h with
  | some hab => exact congrArg Option.some (hfg _ _ hab)
  | none => rfl

theorem imp (h : Option.Rel R x y) (hR : ∀ a b, R a b → R' a b) : Option.Rel R' x y := by
  cases h with
  | some hab => exact .some (hR _ _ hab)
  | none => exact .none

theorem orElse (h : Option.Rel R x y) (h' : Option.Rel R x' y') :
    Option.Rel R (x <|> x') (y <|> y') := by
  cases h with
  | some hab => exact .some hab
  | none => exact h'

theorem toList (h : Option.Rel R x y) : List.Forall₂ R x.toList y.toList := by
  cases h with
  | some hab => exact .cons hab .nil
  | none => exact .nil

theorem exists_of_eq_some (h : Option.Rel R x y) {a : α} (hx : x = Option.some a) :
    ∃ b, y = Option.some b ∧ R a b := by
  cases h with
  | some hab => exact ⟨_, rfl, Option.some.inj hx ▸ hab⟩
  | none => cases hx

end Option.Rel

namespace List.Forall₂

variable {α β γ : Type} {R : α → β → Prop} {xs : List α} {ys : List β}

theorem map_eq (h : Forall₂ R xs ys) {f : α → γ} {g : β → γ} (hfg : ∀ a b, R a b → f a = g b) :
    xs.map f = ys.map g := by
  induction h with
  | nil => rfl
  | cons hab _ ih => rw [List.map_cons, List.map_cons, hfg _ _ hab, ih]

/-- An element is in both lists or in none, if it is equal to the same elements. -/
theorem contains_eq [BEq α] [BEq β] (h : Forall₂ R xs ys) {x : α} {y : β}
    (hbeq : ∀ a b, R a b → (x == a) = (y == b)) : xs.contains x = ys.contains y := by
  induction h with
  | nil => rfl
  | cons hab _ ih => rw [List.contains_cons, List.contains_cons, hbeq _ _ hab, ih]

/-- **The first hits are related**, if related elements are hits in both lists or in none. -/
theorem find? (h : Forall₂ R xs ys) {p : α → Bool} {q : β → Bool}
    (hpq : ∀ a ∈ xs, ∀ b, R a b → p a = q b) : Option.Rel R (xs.find? p) (ys.find? q) := by
  induction h with
  | nil => exact .none
  | @cons a b _ _ hab _ ih =>
    obtain ⟨hhead, hrest⟩ := List.forall_mem_cons.mp hpq
    rw [List.find?_cons, List.find?_cons, hhead b hab]
    cases q b with
    | true => exact .some hab
    | false => exact ih hrest

/-- Related lists are empty together. -/
theorem ofNonempty (h : Forall₂ R xs ys) :
    Option.Rel (Forall₂ R) (if xs.isEmpty then none else some xs)
      (if ys.isEmpty then none else some ys) := by
  cases h with
  | nil => exact .none
  | cons hab hrest => exact .some (.cons hab hrest)

end List.Forall₂

namespace ChainQuery.Assoc

variable {κ κ' α α' : Type} [BEq κ] [BEq κ'] {R : κ × α → κ' × α' → Prop} {m : List (κ × α)}
  {m' : List (κ' × α')} {k : κ} {k' : κ'}

/-- **Giving a key a value in related maps** keeps them related, if related entries have the key both or
neither. -/
theorem forall₂_put (h : List.Forall₂ R m m') (hkey : ∀ a b, R a b → (a.1 == k) = (b.1 == k')) {x : α}
    {x' : α'} (hput : ∀ a b, R a b → R (a.1, x) (b.1, x')) (hnew : R (k, x) (k', x')) :
    List.Forall₂ R (put k x m) (put k' x' m') := by
  induction h with
  | nil => exact .cons hnew .nil
  | cons hab hrest ih =>
    rw [put, put, hkey _ _ hab]
    split
    · exact .cons (hput _ _ hab) hrest
    · exact .cons hab ih

/-- **What is looked up in related maps is related**, if related entries have the key both or
neither. -/
theorem rel_lookup (h : List.Forall₂ R m m') (hkey : ∀ a b, R a b → (k == a.1) = (k' == b.1))
    {S : α → α' → Prop} (hS : ∀ a b, R a b → S a.2 b.2) :
    Option.Rel S (m.lookup k) (m'.lookup k') := by
  induction h with
  | nil => exact .none
  | @cons a b _ _ hab _ ih =>
    rw [List.lookup_cons, List.lookup_cons, hkey a b hab]
    cases k' == b.1 with
    | true => exact .some (hS a b hab)
    | false => exact ih

end ChainQuery.Assoc
