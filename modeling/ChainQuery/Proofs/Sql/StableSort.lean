import Mathlib.Data.List.Basic
/-!
# Sorting rows

A `Comparison` is a way to compare rows that they can be sorted by.  Sorting is stable: rows that
compare as equal stay in the order in which they came (`Comparison.filter_sort`).  A sorted sequence is
determined by that (`Comparison.eq_of_filter_eq`), so sorting by one comparison after another is sorting
once, by the later comparison and, where that decides nothing, by the earlier one
(`Comparison.sort_sort`).
-/

namespace ChainQuery

universe u v

/-! ## 1. Comparisons -/

/-- **A comparison of rows**: every two can be compared, in either order and through a third. -/
@[ext] structure Comparison (ρ : Type u) where
  compare : ρ → ρ → Ordering
  trans : Std.TransCmp compare

namespace Comparison

variable {ρ : Type u} {V : Type v}

instance (c : Comparison ρ) : Std.TransCmp c.compare := c.trans

/-- The comparison that decides nothing. -/
def equal : Comparison ρ where
  compare _ _ := .eq
  trans := { eq_swap := rfl, isLE_trans := fun _ _ => rfl }

/-- The comparison of a value that rows have. -/
def on [Ord V] [Std.TransOrd V] (value : ρ → V) : Comparison ρ where
  compare := compareOn value
  trans := inferInstance

/-- The comparison the other way round. -/
def reverse (c : Comparison ρ) : Comparison ρ where
  compare a b := c.compare b a
  trans := inferInstance

/-- A comparison, and another where it decides nothing. -/
def andThen (c d : Comparison ρ) : Comparison ρ where
  compare := compareLex c.compare d.compare
  trans := inferInstance

/-- **Comparisons one after another**, each where those before it decide nothing. -/
def lexicographic (cs : List (Comparison ρ)) : Comparison ρ := cs.foldr andThen equal

theorem lexicographic_append (cs ds : List (Comparison ρ)) :
    lexicographic (cs ++ ds) = (lexicographic cs).andThen (lexicographic ds) := by
  induction cs with
  | nil => rfl
  | cons c cs ih =>
    have hcons : lexicographic (c :: cs ++ ds) = c.andThen (lexicographic (cs ++ ds)) := rfl
    rw [hcons, ih]
    ext a b
    exact (Ordering.then_assoc _ _ _).symm

/-! ## 2. Sorting -/

/-- **Sorts rows.**  Rows that compare as equal stay in their order. -/
def sort (c : Comparison ρ) (rows : List ρ) : List ρ :=
  rows.mergeSort fun a b => (c.compare a b).isLE

variable (c d : Comparison ρ) (rows : List ρ)

theorem isLE_trans (a b e : ρ) (hab : (c.compare a b).isLE = true)
    (hbe : (c.compare b e).isLE = true) : (c.compare a e).isLE = true :=
  Std.TransCmp.isLE_trans hab hbe

theorem isLE_total (a b : ρ) : ((c.compare a b).isLE || (c.compare b a).isLE) = true := by
  have hswap : c.compare b a = (c.compare a b).swap := Std.OrientedCmp.eq_swap
  rw [hswap]
  cases c.compare a b <;> rfl

theorem compare_eq_iff {a b : ρ} :
    c.compare a b = .eq ↔ (c.compare a b).isLE = true ∧ (c.compare b a).isLE = true := by
  have hswap : c.compare b a = (c.compare a b).swap := Std.OrientedCmp.eq_swap
  rw [hswap]
  cases c.compare a b <;> simp

theorem pairwise_sort : (c.sort rows).Pairwise fun a b => (c.compare a b).isLE = true :=
  List.pairwise_mergeSort c.isLE_trans c.isLE_total rows

/-- **Sorting is stable**: rows of which no two can be told apart are in the same order afterwards. -/
theorem filter_sort {p : ρ → Bool}
    (hp : ∀ a b, p a = true → p b = true → (c.compare a b).isLE = true) :
    (c.sort rows).filter p = rows.filter p := by
  -- the rows in question are in order, so sorting keeps them as they are among the others
  have hordered : (rows.filter p).Pairwise fun a b => (c.compare a b).isLE = true :=
    List.pairwise_of_forall_mem_list fun a ha b hb =>
      hp a b (List.mem_filter.mp ha).2 (List.mem_filter.mp hb).2
  have hsub : (rows.filter p).Sublist (c.sort rows) :=
    List.sublist_mergeSort c.isLE_trans c.isLE_total hordered List.filter_sublist
  have hsub : (rows.filter p).Sublist ((c.sort rows).filter p) := by
    simpa using hsub.filter p
  have hperm : ((c.sort rows).filter p).Perm (rows.filter p) :=
    (List.mergeSort_perm rows _).filter p
  exact (hsub.eq_of_length hperm.length_eq.symm).symm

/-- Rows that compare as equal are in the same order afterwards. -/
theorem pairwise_sort_ties {R : ρ → ρ → Prop} (hrows : rows.Pairwise R) :
    (c.sort rows).Pairwise fun a b => c.compare a b = .eq → R a b := by
  rw [List.pairwise_iff_forall_sublist]
  intro a b hab heq
  have hties : ∀ x y, (c.compare a x == .eq) = true → (c.compare a y == .eq) = true →
      (c.compare x y).isLE = true := by
    intro x y hx hy
    have hx : c.compare a x = .eq := beq_iff_eq.mp hx
    have hy : c.compare a y = .eq := beq_iff_eq.mp hy
    rw [← Std.TransCmp.congr_left hx, hy]
    rfl
  have hfilter := c.filter_sort rows hties
  have hboth : [a, b].filter (c.compare a · == .eq) = [a, b] := by
    have hself : c.compare a a = .eq := Std.ReflCmp.compare_self
    simp [hself, heq]
  have hpair := hab.filter (c.compare a · == .eq)
  rw [hfilter, hboth] at hpair
  exact List.pairwise_iff_forall_sublist.mp hrows (hpair.trans List.filter_sublist)

/-- A row is in every sequence that has the same rows equal to it. -/
theorem mem_of_filter_eq {rows rows' : List ρ} {a : ρ}
    (hties : rows.filter (c.compare a · == .eq) = rows'.filter (c.compare a · == .eq))
    (ha : a ∈ rows) : a ∈ rows' := by
  have hself : c.compare a a = .eq := Std.ReflCmp.compare_self
  have ha : a ∈ rows.filter (c.compare a · == .eq) := List.mem_filter.mpr ⟨ha, by simp [hself]⟩
  rw [hties] at ha
  exact (List.mem_filter.mp ha).1

/-- No row of a sorted sequence comes before the first one. -/
theorem isLE_of_mem {rest : List ρ} {a b : ρ}
    (h : (a :: rest).Pairwise fun a b => (c.compare a b).isLE = true) (hb : b ∈ a :: rest) :
    (c.compare a b).isLE = true := by
  rcases List.mem_cons.mp hb with rfl | hb
  · have hself : c.compare b b = .eq := Std.ReflCmp.compare_self
    simp [hself]
  · exact (List.pairwise_cons.mp h).1 b hb

/-- **A sorted sequence is determined by the order of the rows that compare as equal.** -/
theorem eq_of_filter_eq {rows rows' : List ρ}
    (h : rows.Pairwise fun a b => (c.compare a b).isLE = true)
    (h' : rows'.Pairwise fun a b => (c.compare a b).isLE = true)
    (hties : ∀ a, rows.filter (c.compare a · == .eq) = rows'.filter (c.compare a · == .eq)) :
    rows = rows' := by
  induction rows generalizing rows' with
  | nil =>
    cases rows' with
    | nil => rfl
    | cons b rest' => cases c.mem_of_filter_eq (hties b).symm List.mem_cons_self
  | cons a rest ih =>
    cases rows' with
    | nil => cases c.mem_of_filter_eq (hties a) List.mem_cons_self
    | cons b rest' =>
      -- each of the first rows is in the other sequence, hence not before the other
      have hab := c.isLE_of_mem h (c.mem_of_filter_eq (hties b).symm List.mem_cons_self)
      have hba := c.isLE_of_mem h' (c.mem_of_filter_eq (hties a) List.mem_cons_self)
      have hequal : c.compare a b = .eq := c.compare_eq_iff.mpr ⟨hab, hba⟩
      have haa : c.compare a a = .eq := Std.ReflCmp.compare_self
      have hhead := hties a
      simp only [List.filter_cons, haa, hequal, beq_self_eq_true, if_true, List.cons.injEq] at hhead
      obtain ⟨rfl, _⟩ := hhead
      refine congrArg (a :: ·) (ih h.of_cons h'.of_cons fun e => ?_)
      have htail := hties e
      simp only [List.filter_cons] at htail
      split at htail
      · exact (List.cons.inj htail).2
      · exact htail

/-- **Sorting twice is sorting once**, by the later comparison first. -/
theorem sort_sort : c.sort (d.sort rows) = (c.andThen d).sort rows := by
  have hthen : ∀ a b, (c.andThen d).compare a b = .eq → c.compare a b = .eq ∧ d.compare a b = .eq :=
    fun a b h => Ordering.then_eq_eq.mp h
  refine (c.andThen d).eq_of_filter_eq ?_ ((c.andThen d).pairwise_sort rows) fun a => ?_
  · have hsorted := (c.pairwise_sort (d.sort rows)).and
      (c.pairwise_sort_ties _ (d.pairwise_sort rows))
    refine hsorted.imp fun h => Ordering.isLE_then_iff_and.mpr ⟨h.1, ?_⟩
    rename_i a b
    cases hcompare : c.compare a b with
    | lt => exact Or.inl rfl
    | eq => exact Or.inr (h.2 hcompare)
    | gt => simp [hcompare] at h
  · -- rows that both comparisons take for equal are moved by no sorting
    have hties : ∀ (e : Comparison ρ), (∀ x y, (c.andThen d).compare x y = .eq → e.compare x y = .eq) →
        ∀ x y, ((c.andThen d).compare a x == .eq) = true → ((c.andThen d).compare a y == .eq) = true →
          (e.compare x y).isLE = true := by
      intro e he x y hx hy
      have hxy : (c.andThen d).compare x y = .eq := by
        rw [← Std.TransCmp.congr_left (beq_iff_eq.mp hx)]
        exact beq_iff_eq.mp hy
      rw [he x y hxy]
      rfl
    rw [c.filter_sort _ (hties c fun x y h => (hthen x y h).1),
      d.filter_sort _ (hties d fun x y h => (hthen x y h).2),
      (c.andThen d).filter_sort _ (hties _ fun _ _ h => h)]

@[simp] theorem sort_equal : (equal : Comparison ρ).sort rows = rows :=
  List.mergeSort_of_pairwise (List.pairwise_of_forall fun _ _ => rfl)

/-- Two rows are exchanged if the second is the smaller one. -/
theorem sort_pair (a b : ρ) : c.sort [a, b] = if (c.compare a b).isLE then [a, b] else [b, a] := by
  simp [sort, List.mergeSort, List.MergeSort.Internal.splitInTwo, List.merge]

end Comparison

end ChainQuery
