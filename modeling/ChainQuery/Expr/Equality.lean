import ChainQuery.Expr.Basic
/-!
# Equality of expressions

Expressions are equal if they are built alike over equal literals.  Since doubles are compared as
numbers, this is not the identity of expressions: minus zero equals zero.
-/

namespace ChainQuery

namespace Expr

mutual
/-- Whether two expressions are equal. -/
def beq : Expr → Expr → Bool
  | .binary o l r, .binary o' l' r' => o == o' && l.beq l' && r.beq r'
  | .unary o e, .unary o' e' => o == o' && e.beq e'
  | .member e n t, .member e' n' t' => e.beq e' && n == n' && t == t'
  | .constant v t, .constant v' t' => v == v' && t == t'
  | .parameter n t, .parameter n' t' => n == n' && t == t'
  | .new t ms, .new t' ms' => t == t' && beqMembers ms ms'
  | .call m r as t, .call m' r' as' t' =>
    m == m' && (match r, r' with
      | none, none => true
      | some e, some e' => e.beq e'
      | _, _ => false) && beqList as as' && t == t'
  | .conditional a b c, .conditional a' b' c' => a.beq a' && b.beq b' && c.beq c'
  | .lambda ps e, .lambda ps' e' => ps == ps' && e.beq e'
  | .memberInit t ms, .memberInit t' ms' => t == t' && beqMembers ms ms'
  | .listInit t es, .listInit t' es' => t == t' && beqList es es'
  | .newArray t es, .newArray t' es' => t == t' && beqList es es'
  | .invoke e as t, .invoke e' as' t' => e.beq e' && beqList as as' && t == t'
  | .typeIs e t, .typeIs e' t' => e.beq e' && t == t'
  | _, _ => false

/-- Whether two lists of expressions are equal. -/
def beqList : List Expr → List Expr → Bool
  | [], [] => true
  | e :: es, e' :: es' => e.beq e' && beqList es es'
  | _, _ => false

/-- Whether two lists of members are equal. -/
def beqMembers : List (String × Expr) → List (String × Expr) → Bool
  | [], [] => true
  | (n, e) :: ms, (n', e') :: ms' => n == n' && e.beq e' && beqMembers ms ms'
  | _, _ => false
end

instance : BEq Expr := ⟨beq⟩

end Expr

instance : BEq Lambda := ⟨fun l l' => l.params == l'.params && l.body == l'.body⟩

end ChainQuery
