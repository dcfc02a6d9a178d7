import Mathlib.Data.List.Perm.Subperm
import ChainQuery.Compile.Scalar
import ChainQuery.Proofs.Compile.Aggregates
import ChainQuery.Proofs.Expr.ReadBack
/-!
# Where equality is one

Expressions and queries are compared through their literals, and these neither equal themselves in all
cases nor are compared in the same way from both sides: a double that is not a number equals nothing, and an
object is compared by looking the members of one up in the other.  Literals are comparable
(`Literal.Comparable`) if their doubles are numbers and their objects name each member once.  Over
comparable literals equality is reflexive and symmetric.
-/

namespace ChainQuery

/-! ## 1. Doubles -/

section Float

open Float.Model

/-- Doubles are compared the other way round from the other side. -/
theorem float_compare_swap (x y : UnpackedFloat) : y.compare x = (x.compare y).map Ordering.swap := by
  cases x with
  | notANumber => cases y <;> rfl
  | infinity s =>
    cases y with
    | infinity s' => cases s <;> cases s' <;> rfl
    | _ => cases s <;> rfl
  | zero s =>
    cases y with
    | infinity s' | finite s' => cases s' <;> rfl
    | _ => rfl
  | finite s m e =>
    cases y with
    | notANumber => rfl
    | infinity s' => cases s' <;> rfl
    | zero s' => cases s <;> rfl
    | finite s' m' e' =>
      have hswap : (compare e' e).then (compare m' m) = ((compare e e').then (compare m m')).swap := by
        rw [Ordering.swap_then, ← Std.OrientedCmp.eq_swap, ← Std.OrientedCmp.eq_swap]
      -- two negative doubles are compared by their absolute values, and then the other way round
      cases s with
      | positive =>
        cases s' with
        | positive => exact congrArg some hswap
        | negative => rfl
      | negative =>
        cases s' with
        | positive => rfl
        | negative => exact congrArg (fun o => some o.swap) hswap

/-- A number equals itself. -/
theorem float_beq_self {x : Float} (h : x.isNaN = false) : (x == x) = true := by
  change x.toModel.unpack.isNaN = false at h
  change x.toModel.unpack.beq x.toModel.unpack = true
  generalize x.toModel.unpack = u at h ⊢
  cases u with
  | notANumber => cases h
  | infinity s => cases s <;> rfl
  | zero s => rfl
  | finite s m e =>
    have hsame : (compare e e).then (compare m m) = .eq := by
      rw [Std.ReflOrd.compare_self, Std.ReflOrd.compare_self]
      rfl
    cases s with
    | positive =>
      change (some ((compare e e).then (compare m m)) == some .eq) = true
      rw [hsame]
      rfl
    | negative =>
      change (some ((compare e e).then (compare m m)).swap == some .eq) = true
      rw [hsame]
      rfl

theorem float_beq_symm {x y : Float} (h : (x == y) = true) : (y == x) = true := by
  have hxy : x.toModel.unpack.compare y.toModel.unpack = some .eq := beq_iff_eq.mp h
  change (y.toModel.unpack.compare x.toModel.unpack == some .eq) = true
  rw [float_compare_swap, hxy]
  rfl

end Float

/-! ## 2. Literals -/

namespace Literal

/-- **A literal that equality is meant for**: its objects name each member once, and its doubles are
numbers. -/
structure Comparable (v : Literal) : Prop where
  names : v.namesDistinct = true
  numbers : ∀ x ∈ v.floats, x.isNaN = false

/-- Two objects agree in the members of the first. -/
theorem beqMembers_iff {ms ns : List (String × Literal)} :
    beqMembers ms ns = true ↔ ∀ m ∈ ms, ∃ y, ns.lookup m.1 = some y ∧ m.2.beq y = true := by
  induction ms with
  | nil => simp [beqMembers]
  | cons m rest ih =>
    rw [beqMembers, Bool.and_eq_true, ih, List.forall_mem_cons]
    refine and_congr_left fun _ => ?_
    cases ns.lookup m.1 <;> simp

/-- A member that is named once is the one that is found under its name. -/
theorem lookup_of_mem {ms : List (String × Literal)} (hms : (ms.map Prod.fst).Nodup)
    {m : String × Literal} (hm : m ∈ ms) : ms.lookup m.1 = some m.2 := by
  induction ms with
  | nil => cases hm
  | cons first rest ih =>
    obtain ⟨hfirst, hrest⟩ := List.nodup_cons.mp hms
    rcases List.mem_cons.mp hm with rfl | hm
    · exact List.lookup_cons_self
    · have hne : m.1 ≠ first.1 := fun heq => hfirst (heq ▸ List.mem_map_of_mem hm)
      rw [List.lookup_cons, beq_eq_false_iff_ne.mpr hne]
      exact ih hrest hm

mutual
theorem beq_self : ∀ v : Literal, v.namesDistinct = true → (∀ x ∈ v.floats, x.isNaN = false) →
    v.beq v = true
  | .null, _, _ => rfl
  | .bool b, _, _ => beq_self_eq_true b
  | .int i, _, _ => beq_self_eq_true i
  | .float x, _, h => float_beq_self (h x (List.mem_singleton_self x))
  | .string s, _, _ => beq_self_eq_true s
  | .list items, hnames, hnumbers => beqItems_self items hnames hnumbers
  | .object members, hnames, hnumbers => by
    obtain ⟨hnodup, hmembers⟩ := (Bool.and_eq_true _ _).mp hnames
    rw [beq, beq_self_eq_true, Bool.true_and, beqMembers_iff]
    intro m hm
    exact ⟨m.2, lookup_of_mem (of_decide_eq_true hnodup) hm,
      forall_members_beq_self members hmembers hnumbers m hm⟩

theorem beqItems_self : ∀ items : List Literal, itemsDistinct items = true →
    (∀ x ∈ itemFloats items, x.isNaN = false) → beqItems items items = true
  | [], _, _ => rfl
  | v :: rest, hnames, hnumbers => by
    obtain ⟨hv, hrest⟩ := (Bool.and_eq_true _ _).mp hnames
    obtain ⟨hvNumbers, hrestNumbers⟩ := List.forall_mem_append.mp hnumbers
    rw [beqItems, beq_self v hv hvNumbers, beqItems_self rest hrest hrestNumbers]
    rfl

theorem forall_members_beq_self : ∀ members : List (String × Literal),
    membersDistinct members = true → (∀ x ∈ memberFloats members, x.isNaN = false) →
    ∀ m ∈ members, m.2.beq m.2 = true
  | [], _, _ => nofun
  | (_, v) :: rest, hnames, hnumbers => by
    obtain ⟨hv, hrest⟩ := (Bool.and_eq_true _ _).mp hnames
    obtain ⟨hvNumbers, hrestNumbers⟩ := List.forall_mem_append.mp hnumbers
    exact List.forall_mem_cons.mpr
      ⟨beq_self v hv hvNumbers, forall_members_beq_self rest hrest hrestNumbers⟩
end

theorem forall_namesDistinct_of_members {members : List (String × Literal)}
    (h : membersDistinct members = true) : ∀ m ∈ members, m.2.namesDistinct = true := by
  induction members with
  | nil => nofun
  | cons m rest ih =>
    obtain ⟨hm, hrest⟩ := (Bool.and_eq_true _ _).mp h
    exact List.forall_mem_cons.mpr ⟨hm, ih hrest⟩

/-- **Objects that agree in the members of one agree in those of the other**, if they have equally many and
name each once. -/
theorem beqMembers_symm {ms ns : List (String × Literal)} (hms : (ms.map Prod.fst).Nodup)
    (hns : (ns.map Prod.fst).Nodup) (hlength : ms.length = ns.length)
    (hsymm : ∀ m ∈ ms, ∀ n ∈ ns, m.2.beq n.2 = true → n.2.beq m.2 = true)
    (h : beqMembers ms ns = true) : beqMembers ns ms = true := by
  rw [beqMembers_iff] at h ⊢
  have hsubset : ms.map Prod.fst ⊆ ns.map Prod.fst := by
    refine List.forall_mem_map.mpr fun m hm => ?_
    obtain ⟨y, hy, _⟩ := h m hm
    exact List.mem_map.mpr ⟨(m.1, y), Assoc.mem_of_lookup hy, rfl⟩
  -- as many different names, so they are the same
  have hperm : (ms.map Prod.fst).Perm (ns.map Prod.fst) :=
    (List.subperm_of_subset hms hsubset).perm_of_length_le (by simp [hlength])
  intro n hn
  obtain ⟨m, hm, hname⟩ := List.mem_map.mp (hperm.symm.subset (List.mem_map_of_mem hn))
  obtain ⟨y, hy, hbeq⟩ := h m hm
  rw [hname, lookup_of_mem hns hn] at hy
  obtain rfl := Option.some.inj hy
  exact ⟨m.2, hname ▸ lookup_of_mem hms hm, hsymm m hm n hn hbeq⟩

mutual
theorem beq_symm : ∀ v w : Literal, v.namesDistinct = true → w.namesDistinct = true →
    v.beq w = true → w.beq v = true
  | .null, w, _, _, h => by
    cases w with
    | null => rfl
    | _ => cases h
  | .bool b, w, _, _, h => by
    cases w with
    | bool c => exact BEq.symm (a := b) (b := c) h
    | _ => cases h
  | .int i, w, _, _, h => by
    cases w with
    | int j => exact BEq.symm (a := i) (b := j) h
    | _ => cases h
  | .float x, w, _, _, h => by
    cases w with
    | float y => exact float_beq_symm h
    | _ => cases h
  | .string s, w, _, _, h => by
    cases w with
    | string t => exact BEq.symm (a := s) (b := t) h
    | _ => cases h
  | .list items, w, hv, hw, h => by
    cases w with
    | list items' => exact beqItems_symm items items' hv hw h
    | _ => cases h
  | .object ms, w, hv, hw, h => by
    cases w with
    | object ns =>
      obtain ⟨hms, hmembers⟩ := (Bool.and_eq_true _ _).mp hv
      obtain ⟨hns, hmembers'⟩ := (Bool.and_eq_true _ _).mp hw
      obtain ⟨hlength, h⟩ := (Bool.and_eq_true _ _).mp h
      refine (Bool.and_eq_true _ _).mpr ⟨BEq.symm hlength, ?_⟩
      refine beqMembers_symm (of_decide_eq_true hms) (of_decide_eq_true hns) (beq_iff_eq.mp hlength) ?_ h
      exact fun m hm n hn => forall_members_beq_symm ms hmembers m hm n.2
        (forall_namesDistinct_of_members hmembers' n hn)
    | _ => cases h

theorem beqItems_symm : ∀ items items' : List Literal, itemsDistinct items = true →
    itemsDistinct items' = true → beqItems items items' = true → beqItems items' items = true
  | [], [], _, _, _ => rfl
  | v :: rest, w :: rest', hv, hw, h => by
    obtain ⟨hv, hrest⟩ := (Bool.and_eq_true _ _).mp hv
    obtain ⟨hw, hrest'⟩ := (Bool.and_eq_true _ _).mp hw
    obtain ⟨hbeq, h⟩ := (Bool.and_eq_true _ _).mp h
    exact (Bool.and_eq_true _ _).mpr
      ⟨beq_symm v w hv hw hbeq, beqItems_symm rest rest' hrest hrest' h⟩

theorem forall_members_beq_symm : ∀ members : List (String × Literal),
    membersDistinct members = true → ∀ m ∈ members, ∀ w : Literal, w.namesDistinct = true →
      m.2.beq w = true → w.beq m.2 = true
  | [], _ => nofun
  | (_, v) :: rest, h => by
    obtain ⟨hv, hrest⟩ := (Bool.and_eq_true _ _).mp h
    exact List.forall_mem_cons.mpr
      ⟨fun w hw => beq_symm v w hv hw, forall_members_beq_symm rest hrest⟩
end

end Literal

/-! ## 3. Expressions -/

namespace Expr

/-- An expression over comparable literals. -/
def Comparable (e : Expr) : Prop := ∀ v ∈ e.literals, v.Comparable

theorem comparable_iff {e : Expr} :
    e.Comparable ↔ (∀ v ∈ e.literal?, v.Comparable) ∧ ∀ c ∈ e.children, c.Comparable := by
  unfold Comparable
  rw [literals_eq, List.forall_mem_append]
  simp only [Option.mem_toList, List.mem_flatMap]
  constructor
  · exact fun ⟨hnode, hchildren⟩ => ⟨hnode, fun c hc v hv => hchildren v ⟨c, hc, hv⟩⟩
  · rintro ⟨hnode, hchildren⟩
    refine ⟨hnode, ?_⟩
    rintro v ⟨c, hc, hv⟩
    exact hchildren c hc v hv

theorem Comparable.child {e c : Expr} (h : e.Comparable) (hc : c ∈ e.children) : c.Comparable :=
  (comparable_iff.mp h).2 c hc

/-- What holds no literal itself is comparable with its children. -/
theorem comparable_of_children {e : Expr} (hnode : e.literal? = none)
    (h : ∀ c ∈ e.children, c.Comparable) : e.Comparable := by
  refine comparable_iff.mpr ⟨fun v hv => ?_, h⟩
  rw [hnode] at hv
  cases hv

theorem list_beq_eq (es es' : List Expr) : (es == es') = beqList es es' := by
  induction es generalizing es' with
  | nil => cases es' <;> rfl
  | cons e es ih =>
    cases es' with
    | nil => rfl
    | cons e' es' =>
      rw [List.cons_beq_cons, ih]
      rfl

theorem beqList_self {es : List Expr} (h : ∀ e ∈ es, e.beq e = true) : beqList es es = true := by
  induction es with
  | nil => rfl
  | cons e es ih =>
    obtain ⟨he, hes⟩ := List.forall_mem_cons.mp h
    rw [beqList, he, ih hes]
    rfl

theorem beqMembers_self {ms : List (String × Expr)} (h : ∀ e ∈ ms.map Prod.snd, e.beq e = true) :
    beqMembers ms ms = true := by
  induction ms with
  | nil => rfl
  | cons m ms ih =>
    obtain ⟨hm, hms⟩ := List.forall_mem_cons.mp h
    rw [beqMembers, beq_self_eq_true, hm, ih hms]
    rfl

/-- **An expression over comparable literals equals itself.** -/
theorem beq_self {e : Expr} (h : e.Comparable) : e.beq e = true := by
  induction e using children_induction with
  | node e ih =>
    have hchild : ∀ c ∈ e.children, c.beq c = true := fun c hc => ih c hc (h.child hc)
    cases e with
    | constant v t =>
      have hv : v.Comparable := (comparable_iff.mp h).1 v rfl
      exact Bool.and_eq_true_iff.mpr ⟨v.beq_self hv.names hv.numbers, BEq.rfl⟩
    | parameter name t => exact Bool.and_eq_true_iff.mpr ⟨BEq.rfl, BEq.rfl⟩
    | unary op operand =>
      exact Bool.and_eq_true_iff.mpr ⟨BEq.rfl, hchild operand (by simp [children])⟩
    | lambda params body =>
      exact Bool.and_eq_true_iff.mpr ⟨BEq.rfl, hchild body (by simp [children])⟩
    | typeIs operand t =>
      exact Bool.and_eq_true_iff.mpr ⟨hchild operand (by simp [children]), BEq.rfl⟩
    | member object name t =>
      change (object.beq object && name == name && t == t) = true
      rw [hchild object (by simp [children]), BEq.rfl, BEq.rfl]
      rfl
    | binary op left right =>
      change (op == op && left.beq left && right.beq right) = true
      rw [BEq.rfl, hchild left (by simp [children]), hchild right (by simp [children])]
      rfl
    | conditional test ifTrue ifFalse =>
      change (test.beq test && ifTrue.beq ifTrue && ifFalse.beq ifFalse) = true
      rw [hchild test (by simp [children]), hchild ifTrue (by simp [children]),
        hchild ifFalse (by simp [children])]
      rfl
    | new t members => exact Bool.and_eq_true_iff.mpr ⟨BEq.rfl, beqMembers_self hchild⟩
    | memberInit t bindings => exact Bool.and_eq_true_iff.mpr ⟨BEq.rfl, beqMembers_self hchild⟩
    | listInit t elements => exact Bool.and_eq_true_iff.mpr ⟨BEq.rfl, beqList_self hchild⟩
    | newArray t elements => exact Bool.and_eq_true_iff.mpr ⟨BEq.rfl, beqList_self hchild⟩
    | invoke target args t =>
      obtain ⟨htarget, hargs⟩ := List.forall_mem_cons.mp hchild
      change (target.beq target && beqList args args && t == t) = true
      rw [htarget, beqList_self hargs, BEq.rfl]
      rfl
    | call m receiver args t =>
      have hargs : beqList args args = true :=
        beqList_self fun a ha => hchild a (List.mem_append_right _ ha)
      cases receiver with
      | none =>
        change (m == m && true && beqList args args && t == t) = true
        rw [BEq.rfl, hargs, BEq.rfl]
        rfl
      | some r =>
        change (m == m && r.beq r && beqList args args && t == t) = true
        rw [BEq.rfl, hchild r (by simp [children]), hargs, BEq.rfl]
        rfl

theorem beqList_symm {es es' : List Expr}
    (hsymm : ∀ e ∈ es, ∀ e' ∈ es', e.beq e' = true → e'.beq e = true) (h : beqList es es' = true) :
    beqList es' es = true := by
  induction es generalizing es' with
  | nil =>
    cases es' with
    | nil => rfl
    | cons => cases h
  | cons e es ih =>
    cases es' with
    | nil => cases h
    | cons e' es' =>
      obtain ⟨he, hes⟩ := (Bool.and_eq_true _ _).mp h
      refine (Bool.and_eq_true _ _).mpr ⟨hsymm e List.mem_cons_self e' List.mem_cons_self he, ?_⟩
      exact ih (fun x hx y hy => hsymm x (List.mem_cons_of_mem _ hx) y (List.mem_cons_of_mem _ hy)) hes

theorem beqMembers_symm {ms ms' : List (String × Expr)}
    (hsymm : ∀ e ∈ ms.map Prod.snd, ∀ e' ∈ ms'.map Prod.snd, e.beq e' = true → e'.beq e = true)
    (h : beqMembers ms ms' = true) : beqMembers ms' ms = true := by
  induction ms generalizing ms' with
  | nil =>
    cases ms' with
    | nil => rfl
    | cons => cases h
  | cons m ms ih =>
    cases ms' with
    | nil => cases h
    | cons m' ms' =>
      simp only [beqMembers, Bool.and_eq_true] at h ⊢
      obtain ⟨⟨hname, hm⟩, hms⟩ := h
      refine ⟨⟨BEq.symm hname, hsymm m.2 List.mem_cons_self m'.2 List.mem_cons_self hm⟩, ?_⟩
      exact ih (fun x hx y hy => hsymm x (List.mem_cons_of_mem _ hx) y (List.mem_cons_of_mem _ hy)) hms

/-- **Over comparable literals expressions are equal from both sides.** -/
theorem beq_symm {e e' : Expr} (he : e.Comparable) (he' : e'.Comparable) (h : e.beq e' = true) :
    e'.beq e = true := by
  induction e using children_induction generalizing e' with
  | node e ih =>
    have hsymm : ∀ c ∈ e.children, ∀ c' ∈ e'.children, c.beq c' = true → c'.beq c = true :=
      fun c hc c' hc' => ih c hc (he.child hc) (he'.child hc')
    cases e with
    | constant v t =>
      cases e' with
      | constant v' t' =>
        have hv : v.Comparable := (comparable_iff.mp he).1 v rfl
        have hv' : v'.Comparable := (comparable_iff.mp he').1 v' rfl
        simp only [beq, Bool.and_eq_true] at h ⊢
        exact ⟨v.beq_symm v' hv.names hv'.names h.1, BEq.symm h.2⟩
      | _ => cases h
    | parameter =>
      cases e' with
      | parameter =>
        simp only [beq, Bool.and_eq_true] at h ⊢
        exact ⟨BEq.symm h.1, BEq.symm h.2⟩
      | _ => cases h
    | unary op operand =>
      cases e' with
      | unary op' operand' =>
        simp only [beq, Bool.and_eq_true] at h ⊢
        exact ⟨BEq.symm h.1, hsymm operand (by simp [children]) operand' (by simp [children]) h.2⟩
      | _ => cases h
    | lambda params body =>
      cases e' with
      | lambda params' body' =>
        simp only [beq, Bool.and_eq_true] at h ⊢
        exact ⟨BEq.symm h.1, hsymm body (by simp [children]) body' (by simp [children]) h.2⟩
      | _ => cases h
    | typeIs operand t =>
      cases e' with
      | typeIs operand' t' =>
        simp only [beq, Bool.and_eq_true] at h ⊢
        exact ⟨hsymm operand (by simp [children]) operand' (by simp [children]) h.1, BEq.symm h.2⟩
      | _ => cases h
    | member object name t =>
      cases e' with
      | member object' name' t' =>
        simp only [beq, Bool.and_eq_true] at h ⊢
        obtain ⟨⟨hobject, hname⟩, ht⟩ := h
        exact ⟨⟨hsymm object (by simp [children]) object' (by simp [children]) hobject,
          BEq.symm hname⟩, BEq.symm ht⟩
      | _ => cases h
    | binary op left right =>
      cases e' with
      | binary op' left' right' =>
        simp only [beq, Bool.and_eq_true] at h ⊢
        obtain ⟨⟨hop, hleft⟩, hright⟩ := h
        exact ⟨⟨BEq.symm hop, hsymm left (by simp [children]) left' (by simp [children]) hleft⟩,
          hsymm right (by simp [children]) right' (by simp [children]) hright⟩
      | _ => cases h
    | conditional test ifTrue ifFalse =>
      cases e' with
      | conditional test' ifTrue' ifFalse' =>
        simp only [beq, Bool.and_eq_true] at h ⊢
        obtain ⟨⟨htest, htrue⟩, hfalse⟩ := h
        exact ⟨⟨hsymm test (by simp [children]) test' (by simp [children]) htest,
          hsymm ifTrue (by simp [children]) ifTrue' (by simp [children]) htrue⟩,
          hsymm ifFalse (by simp [children]) ifFalse' (by simp [children]) hfalse⟩
      | _ => cases h
    | new =>
      cases e' with
      | new =>
        simp only [beq, Bool.and_eq_true] at h ⊢
        exact ⟨BEq.symm h.1, beqMembers_symm hsymm h.2⟩
      | _ => cases h
    | memberInit =>
      cases e' with
      | memberInit =>
        simp only [beq, Bool.and_eq_true] at h ⊢
        exact ⟨BEq.symm h.1, beqMembers_symm hsymm h.2⟩
      | _ => cases h
    | listInit =>
      cases e' with
      | listInit =>
        simp only [beq, Bool.and_eq_true] at h ⊢
        exact ⟨BEq.symm h.1, beqList_symm hsymm h.2⟩
      | _ => cases h
    | newArray =>
      cases e' with
      | newArray =>
        simp only [beq, Bool.and_eq_true] at h ⊢
        exact ⟨BEq.symm h.1, beqList_symm hsymm h.2⟩
      | _ => cases h
    | invoke target args t =>
      cases e' with
      | invoke target' args' t' =>
        simp only [beq, Bool.and_eq_true] at h ⊢
        obtain ⟨⟨htarget, hargs⟩, ht⟩ := h
        refine ⟨⟨hsymm target (by simp [children]) target' (by simp [children]) htarget, ?_⟩,
          BEq.symm ht⟩
        exact beqList_symm (fun a ha a' ha' => hsymm a (List.mem_cons_of_mem _ ha) a'
          (List.mem_cons_of_mem _ ha')) hargs
      | _ => cases h
    | call m receiver args t =>
      cases e' with
      | call m' receiver' args' t' =>
        have hargsSymm : beqList args args' = true → beqList args' args = true :=
          beqList_symm fun a ha a' ha' => hsymm a (List.mem_append_right _ ha) a'
            (List.mem_append_right _ ha')
        cases receiver with
        | none =>
          cases receiver' with
          | none =>
            simp only [beq, Bool.and_eq_true, and_true] at h ⊢
            exact ⟨⟨BEq.symm h.1.1, hargsSymm h.1.2⟩, BEq.symm h.2⟩
          | some => simp [beq] at h
        | some r =>
          cases receiver' with
          | none => simp [beq] at h
          | some r' =>
            simp only [beq, Bool.and_eq_true] at h ⊢
            obtain ⟨⟨⟨hm, hr⟩, hargs⟩, ht⟩ := h
            exact ⟨⟨⟨BEq.symm hm, hsymm r (by simp [children]) r' (by simp [children]) hr⟩,
              hargsSymm hargs⟩, BEq.symm ht⟩
      | _ => cases h

end Expr

/-! ## 4. Queries -/

theorem Lambda.beq_self {l : Lambda} (h : l.body.Comparable) : (l == l) = true :=
  Bool.and_eq_true_iff.mpr ⟨BEq.rfl, Expr.beq_self h⟩

theorem Lambda.beq_symm {l l' : Lambda} (hl : l.body.Comparable) (hl' : l'.body.Comparable)
    (h : (l == l') = true) : (l' == l) = true := by
  obtain ⟨hparams, hbody⟩ := Bool.and_eq_true_iff.mp h
  exact Bool.and_eq_true_iff.mpr ⟨BEq.symm hparams, Expr.beq_symm hl hl' hbody⟩

namespace Query

/-- A query over comparable literals. -/
def Comparable (q : Query) : Prop := ∀ e ∈ q.exprs, e.Comparable

/-- **A query over comparable literals equals itself.** -/
theorem beq_self {q : Query} (h : q.Comparable) : q.beq q = true := by
  induction q with
  | table rowType => exact BEq.rfl
  | select source l ih | filter source l ih =>
    obtain ⟨hsource, hl⟩ := List.forall_mem_append.mp h
    exact Bool.and_eq_true_iff.mpr ⟨ih hsource, Lambda.beq_self (hl _ List.mem_cons_self)⟩
  | orderBy source l kind ih =>
    obtain ⟨hsource, hl⟩ := List.forall_mem_append.mp h
    change (source.beq source && l == l && kind == kind) = true
    rw [ih hsource, Lambda.beq_self (hl _ List.mem_cons_self), BEq.rfl]
    rfl
  | join outer inner outerKey innerKey result ihOuter ihInner =>
    obtain ⟨hsources, hlambdas⟩ := List.forall_mem_append.mp h
    obtain ⟨houter, hinner⟩ := List.forall_mem_append.mp hsources
    change (outer.beq outer && inner.beq inner && outerKey == outerKey && innerKey == innerKey
      && result == result) = true
    rw [ihOuter houter, ihInner hinner, Lambda.beq_self (hlambdas _ (by simp)),
      Lambda.beq_self (hlambdas _ (by simp)), Lambda.beq_self (hlambdas _ (by simp))]
    rfl
  | crossJoin source collection result ihSource ihCollection =>
    obtain ⟨hsources, hresult⟩ := List.forall_mem_append.mp h
    obtain ⟨hsource, hcollection⟩ := List.forall_mem_append.mp hsources
    change (source.beq source && collection.beq collection && result == result) = true
    rw [ihSource hsource, ihCollection hcollection, Lambda.beq_self (hresult _ List.mem_cons_self)]
    rfl
  | call method source args ih =>
    obtain ⟨hsource, hargs⟩ := List.forall_mem_append.mp h
    change (method == method && source.beq source && args == args) = true
    rw [BEq.rfl, ih hsource, Expr.list_beq_eq, Expr.beqList_self fun e he => Expr.beq_self (hargs e he)]
    rfl

/-- **Over comparable literals queries are equal from both sides.** -/
theorem beq_symm {q q' : Query} (hq : q.Comparable) (hq' : q'.Comparable) (h : q.beq q' = true) :
    q'.beq q = true := by
  induction q generalizing q' with
  | table rowType =>
    cases q' with
    | table rowType' => exact BEq.symm (a := rowType) (b := rowType') h
    | _ => cases h
  | select source l ih =>
    cases q' with
    | select source' l' =>
      obtain ⟨hsource, hl⟩ := List.forall_mem_append.mp hq
      obtain ⟨hsource', hl'⟩ := List.forall_mem_append.mp hq'
      obtain ⟨hs, h⟩ := Bool.and_eq_true_iff.mp h
      exact Bool.and_eq_true_iff.mpr ⟨ih hsource hsource' hs,
        Lambda.beq_symm (hl _ List.mem_cons_self) (hl' _ List.mem_cons_self) h⟩
    | _ => cases h
  | filter source l ih =>
    cases q' with
    | filter source' l' =>
      obtain ⟨hsource, hl⟩ := List.forall_mem_append.mp hq
      obtain ⟨hsource', hl'⟩ := List.forall_mem_append.mp hq'
      obtain ⟨hs, h⟩ := Bool.and_eq_true_iff.mp h
      exact Bool.and_eq_true_iff.mpr ⟨ih hsource hsource' hs,
        Lambda.beq_symm (hl _ List.mem_cons_self) (hl' _ List.mem_cons_self) h⟩
    | _ => cases h
  | orderBy source l kind ih =>
    cases q' with
    | orderBy source' l' kind' =>
      obtain ⟨hsource, hl⟩ := List.forall_mem_append.mp hq
      obtain ⟨hsource', hl'⟩ := List.forall_mem_append.mp hq'
      obtain ⟨h, hkind⟩ := Bool.and_eq_true_iff.mp h
      obtain ⟨hs, h⟩ := Bool.and_eq_true_iff.mp h
      exact Bool.and_eq_true_iff.mpr ⟨Bool.and_eq_true_iff.mpr ⟨ih hsource hsource' hs,
        Lambda.beq_symm (hl _ List.mem_cons_self) (hl' _ List.mem_cons_self) h⟩, BEq.symm hkind⟩
    | _ => cases h
  | join outer inner outerKey innerKey result ihOuter ihInner =>
    cases q' with
    | join outer' inner' outerKey' innerKey' result' =>
      obtain ⟨hsources, hlambdas⟩ := List.forall_mem_append.mp hq
      obtain ⟨hsources', hlambdas'⟩ := List.forall_mem_append.mp hq'
      obtain ⟨houter, hinner⟩ := List.forall_mem_append.mp hsources
      obtain ⟨houter', hinner'⟩ := List.forall_mem_append.mp hsources'
      change (outer.beq outer' && inner.beq inner' && outerKey == outerKey' && innerKey == innerKey'
        && result == result') = true at h
      change (outer'.beq outer && inner'.beq inner && outerKey' == outerKey && innerKey' == innerKey
        && result' == result) = true
      simp only [Bool.and_eq_true] at h ⊢
      obtain ⟨⟨⟨⟨ho, hi⟩, hok⟩, hik⟩, hr⟩ := h
      exact ⟨⟨⟨⟨ihOuter houter houter' ho, ihInner hinner hinner' hi⟩,
        Lambda.beq_symm (hlambdas _ (by simp)) (hlambdas' _ (by simp)) hok⟩,
        Lambda.beq_symm (hlambdas _ (by simp)) (hlambdas' _ (by simp)) hik⟩,
        Lambda.beq_symm (hlambdas _ (by simp)) (hlambdas' _ (by simp)) hr⟩
    | _ => cases h
  | crossJoin source collection result ihSource ihCollection =>
    cases q' with
    | crossJoin source' collection' result' =>
      obtain ⟨hsources, hresult⟩ := List.forall_mem_append.mp hq
      obtain ⟨hsources', hresult'⟩ := List.forall_mem_append.mp hq'
      obtain ⟨hsource, hcollection⟩ := List.forall_mem_append.mp hsources
      obtain ⟨hsource', hcollection'⟩ := List.forall_mem_append.mp hsources'
      obtain ⟨h, hr⟩ := Bool.and_eq_true_iff.mp h
      obtain ⟨hs, hc⟩ := Bool.and_eq_true_iff.mp h
      exact Bool.and_eq_true_iff.mpr ⟨Bool.and_eq_true_iff.mpr ⟨ihSource hsource hsource' hs,
        ihCollection hcollection hcollection' hc⟩,
        Lambda.beq_symm (hresult _ List.mem_cons_self) (hresult' _ List.mem_cons_self) hr⟩
    | _ => cases h
  | call method source args ih =>
    cases q' with
    | call method' source' args' =>
      obtain ⟨hsource, hargs⟩ := List.forall_mem_append.mp hq
      obtain ⟨hsource', hargs'⟩ := List.forall_mem_append.mp hq'
      obtain ⟨h, ha⟩ := Bool.and_eq_true_iff.mp h
      obtain ⟨hm, hs⟩ := Bool.and_eq_true_iff.mp h
      rw [Expr.list_beq_eq] at ha
      refine Bool.and_eq_true_iff.mpr ⟨Bool.and_eq_true_iff.mpr ⟨BEq.symm hm,
        ih hsource hsource' hs⟩, ?_⟩
      rw [Expr.list_beq_eq]
      exact Expr.beqList_symm (fun e he e' he' => Expr.beq_symm (hargs e he) (hargs' e' he')) ha
    | _ => cases h

end Query

namespace Correlated

variable {schema : Schema} {text : String} {a : Aggregate} {args : List Expr} {c : Correlated}

theorem beq_self {c : Correlated} (h : c.query.Comparable) : (c == c) = true := by
  change (c.query.beq c.query && c.aggregate == c.aggregate && c.nested == c.nested) = true
  rw [Query.beq_self h, BEq.rfl, BEq.rfl]
  rfl

theorem beq_symm {c d : Correlated} (hc : c.query.Comparable) (hd : d.query.Comparable)
    (h : (c == d) = true) : (d == c) = true := by
  change (c.query.beq d.query && c.aggregate == d.aggregate && c.nested == d.nested) = true at h
  change (d.query.beq c.query && d.aggregate == c.aggregate && d.nested == c.nested) = true
  simp only [Bool.and_eq_true] at h ⊢
  exact ⟨⟨Query.beq_symm hc hd h.1.1, BEq.symm h.1.2⟩, BEq.symm h.2⟩

/-- **An aggregate over comparable literals has a comparable query.** -/
theorem comparable_query (hc : (ofCall schema text a args).outcome = .ok c)
    (h : ∀ arg ∈ args, arg.Comparable) : c.query.Comparable := by
  have hbodies : c.query.exprs ⊆ c.query.bodies := by
    obtain ⟨k, predicate, projection, nested, -, rfl⟩ := ofCall_eq_ok.mp hc
    simp [Call.query, Query.exprs, Query.bodies]
  refine fun e he => forall_bodies_query hc ?_ ?_ ?_ ?_ ?_ ?_ e (hbodies he)
  · intro p
    exact Expr.comparable_of_children rfl (List.forall_mem_nil _)
  · intro object name t hobject
    exact Expr.comparable_of_children rfl (List.forall_mem_singleton.mpr hobject)
  · intro op left right hleft hright
    exact Expr.comparable_of_children rfl (by simpa [Expr.children] using ⟨hleft, hright⟩)
  · intro object name t value hmember hvalue
    exact Expr.comparable_of_children rfl
      (by simpa [Expr.record, Expr.children] using ⟨hmember, hvalue⟩)
  · intro k
    exact (h _ k.collection_mem).child List.mem_cons_self
  · intro k l hl
    exact (h _ (k.selector_mem hl)).child List.mem_cons_self

end Correlated

end ChainQuery
