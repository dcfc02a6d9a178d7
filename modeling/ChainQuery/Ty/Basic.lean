import ChainQuery.ScalarType
/-!
# Static types

The types of expressions: scalars and their nullable forms, registered row types by name, records
with their fields in order, collections, and the groups of a grouping.  Types are compared as they
are written, down to the order of the fields.
-/

namespace ChainQuery

/-- The static type of an expression. -/
inductive Ty where
  | scalar (type : ScalarType)
  | nullable (inner : Ty)
  /-- A registered row type. -/
  | row (name : String)
  /-- A record that a projection builds, with its fields in order. -/
  | record (name : String) (fields : List (String × Ty))
  | collection (element : Ty)
  /-- The element of a grouping: a key and the rows that share it. -/
  | group (key element : Ty)
  deriving Repr, Inhabited

namespace Ty

/-! ## 1. Equality -/

mutual
/-- Whether two types are the same. -/
def beq : Ty → Ty → Bool
  | .scalar a, .scalar b => a == b
  | .nullable a, .nullable b => a.beq b
  | .row a, .row b => a == b
  | .record m fs, .record n gs => m == n && beqFields fs gs
  | .collection a, .collection b => a.beq b
  | .group k a, .group l b => k.beq l && a.beq b
  | _, _ => false

/-- Whether two lists of fields are the same. -/
def beqFields : List (String × Ty) → List (String × Ty) → Bool
  | [], [] => true
  | (m, t) :: fs, (n, u) :: gs => m == n && t.beq u && beqFields fs gs
  | _, _ => false
end

mutual
/-- `beq` decides equality. -/
theorem eq_of_beq : ∀ {t u : Ty}, t.beq u = true → t = u
  | .scalar _, .scalar _, h => by simpa [beq] using h
  | .nullable _, .nullable _, h => by
    simp only [beq] at h
    rw [eq_of_beq h]
  | .row _, .row _, h => by simpa [beq] using h
  | .record _ _, .record _ _, h => by
    simp only [beq, Bool.and_eq_true, beq_iff_eq] at h
    rw [h.1, eq_of_beqFields h.2]
  | .collection _, .collection _, h => by
    simp only [beq] at h
    rw [eq_of_beq h]
  | .group _ _, .group _ _, h => by
    simp only [beq, Bool.and_eq_true] at h
    rw [eq_of_beq h.1, eq_of_beq h.2]

theorem eq_of_beqFields : ∀ {fs gs : List (String × Ty)}, beqFields fs gs = true → fs = gs
  | [], [], _ => rfl
  | (_, _) :: _, (_, _) :: _, h => by
    simp only [beqFields, Bool.and_eq_true, beq_iff_eq] at h
    rw [h.1.1, eq_of_beq h.1.2, eq_of_beqFields h.2]
end

mutual
theorem beq_refl : ∀ t : Ty, t.beq t = true
  | .scalar _ => by simp [beq]
  | .nullable t => by simp [beq, beq_refl t]
  | .row _ => by simp [beq]
  | .record _ fs => by simp [beq, beqFields_refl fs]
  | .collection t => by simp [beq, beq_refl t]
  | .group k t => by simp [beq, beq_refl k, beq_refl t]

theorem beqFields_refl : ∀ fs : List (String × Ty), beqFields fs fs = true
  | [] => rfl
  | (_, t) :: fs => by simp [beqFields, beq_refl t, beqFields_refl fs]
end

instance : BEq Ty := ⟨beq⟩

instance : LawfulBEq Ty where
  eq_of_beq := eq_of_beq
  rfl := beq_refl _

instance : DecidableEq Ty := fun t u =>
  if h : t.beq u = true then isTrue (eq_of_beq h)
  else isFalse fun e => h (e ▸ beq_refl t)

/-! ## 2. Views -/

/-- Truth values. -/
def boolean : Ty := .scalar .boolean

/-- The scalar type underneath any nullability. -/
def scalar? : Ty → Option ScalarType
  | .scalar s => some s
  | .nullable t => t.scalar?
  | _ => none

/-- Whether values of this type are single values, nullable or not. -/
def isScalar (t : Ty) : Bool := t.scalar?.isSome

/-- Whether this is the element of a grouping. -/
def isGroup : Ty → Bool
  | .group _ _ => true
  | _ => false

/-- Whether this is a row or a record, a type whose values have members of their own. -/
def isComposite : Ty → Bool
  | .row _ => true
  | .record _ _ => true
  | _ => false

/-- The name of a registered row type. -/
def row? : Ty → Option String
  | .row name => some name
  | _ => none

/-- The element type of a collection. -/
def element? : Ty → Option Ty
  | .collection t => some t
  | _ => none

/-- The text of a type.  A record is written by its name alone. -/
def text : Ty → String
  | .scalar s => s.text
  | .nullable t => t.text ++ "?"
  | .row name => name
  | .record name _ => name
  | .collection t => "IEnumerable<" ++ t.text ++ ">"
  | .group k t => "IGrouping<" ++ k.text ++ ", " ++ t.text ++ ">"

end Ty

end ChainQuery
