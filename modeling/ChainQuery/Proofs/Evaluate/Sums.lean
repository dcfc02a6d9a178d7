import Mathlib.Data.List.Infix
import ChainQuery.Proofs.Evaluate.Integers
/-!
# Sums before compilation

The sum of a list literal is added up from the left with the `+` of expressions, starting from zero.  That
operator also joins texts, so a sum has two ways to go on from an item: numbers stay numbers
(`BinaryOp.apply_add_cases`), and from the first string on everything is joined as text.

`Expr.evaluate_sum` says what follows for lists.  A sum that is a number is one of numbers only, and a sum
of anything else is a text that some item started (`Expr.evaluate_sum_text`); integers have a sum iff no
prefix of them leaves 64 bits, and it is the exact one; and an average, which divides the sum by the number
of items, exists only where the sum is a number, because what is divided otherwise is not one
(`isFinite_nan_div`).
-/

namespace ChainQuery

/-! ## 1. One addition -/

/-- Whether a literal is an integer or a double. -/
def Literal.isNumber : Literal → Bool
  | .int _ | .float _ => true
  | _ => false

/-- Whether a literal is a string. -/
def Literal.isString : Literal → Bool
  | .string _ => true
  | _ => false

theorem Literal.isNumber_of_isString {v : Literal} (h : v.isString = true) : v.isNumber = false := by
  cases v with
  | string => rfl
  | _ => cases h

theorem Literal.isSome_float? (v : Literal) : v.float?.isSome = v.isNumber := by
  cases v <;> rfl

/-- Arithmetic is of numbers, and gives a number. -/
theorem BinaryOp.arithmetic_eq_ok {op : BinaryOp} {l r v : Literal} (h : op.arithmetic l r = .ok v) :
    l.isNumber = true ∧ r.isNumber = true ∧ v.isNumber = true := by
  unfold arithmetic at h
  split at h
  · split at h
    · cases h
      exact ⟨rfl, rfl, rfl⟩
    · cases h
  · split at h
    · rename_i hl hr
      dsimp only at h
      split at h
      · cases h
        exact ⟨by rw [← Literal.isSome_float?, hl]; rfl, by rw [← Literal.isSome_float?, hr]; rfl, rfl⟩
      · cases h
    · cases h

/-- **Numbers are added to a number, and whatever is added to or by a string is text.** -/
theorem BinaryOp.apply_add_cases {l r v : Literal} (h : add.apply l r = .ok v) :
    (l.isNumber = true ∧ r.isNumber = true ∧ v.isNumber = true) ∨
      ((l.isString = true ∨ r.isString = true) ∧ v.isString = true) := by
  dsimp only [apply] at h
  split at h
  · cases h
    exact Or.inr ⟨Or.inl rfl, rfl⟩
  · cases h
    exact Or.inr ⟨Or.inr rfl, rfl⟩
  · exact Or.inl (arithmetic_eq_ok h)

/-! ## 2. Sums -/

/-- What one addition makes of the total so far. -/
abbrev addItem (total item : Literal) : Except Failure Literal := BinaryOp.add.apply total item

theorem sumOf_eq (items : List Literal) : sumOf items = items.foldlM addItem (.int 0) := rfl

/-- A text stays a text, whatever is added to it. -/
theorem isString_of_foldlM {items : List Literal} {total v : Literal} (htotal : total.isString = true)
    (h : items.foldlM addItem total = .ok v) : v.isString = true := by
  induction items generalizing total with
  | nil =>
    cases h
    exact htotal
  | cons item rest ih =>
    rw [List.foldlM_cons] at h
    obtain ⟨next, hnext, hrest⟩ := Except.bind_eq_ok.mp h
    rcases BinaryOp.apply_add_cases hnext with ⟨hnumber, -, -⟩ | ⟨-, hstring⟩
    · rw [Literal.isNumber_of_isString htotal] at hnumber
      cases hnumber
    · exact ih hstring hrest

/-- **A number is the sum of numbers, and any other sum is a text that some item started.** -/
theorem foldlM_addItem_cases {items : List Literal} {total v : Literal} (htotal : total.isNumber = true)
    (h : items.foldlM addItem total = .ok v) :
    (v.isNumber = true ∧ ∀ i ∈ items, i.isNumber = true) ∨
      (v.isString = true ∧ ∃ i ∈ items, i.isString = true) := by
  induction items generalizing total with
  | nil =>
    cases h
    exact Or.inl ⟨htotal, by simp⟩
  | cons item rest ih =>
    rw [List.foldlM_cons] at h
    obtain ⟨next, hnext, hrest⟩ := Except.bind_eq_ok.mp h
    rcases BinaryOp.apply_add_cases hnext with ⟨-, hitem, hnumber⟩ | ⟨hstarted, hstring⟩
    · rcases ih hnumber hrest with ⟨hv, hall⟩ | ⟨hv, i, hi, hs⟩
      · exact Or.inl ⟨hv, List.forall_mem_cons.mpr ⟨hitem, hall⟩⟩
      · exact Or.inr ⟨hv, i, List.mem_cons_of_mem _ hi, hs⟩
    · refine Or.inr ⟨isString_of_foldlM hstring hrest, item, List.mem_cons_self, ?_⟩
      rcases hstarted with hleft | hright
      · rw [Literal.isNumber_of_isString hleft] at htotal
        cases htotal
      · exact hright

/-- The exact sum of integers of 64 bits. -/
def exactSum (ns : List Int64) : Int := (ns.map Int64.toInt).sum

@[simp] theorem exactSum_nil : exactSum [] = 0 := rfl

@[simp] theorem exactSum_cons (n : Int64) (ns : List Int64) :
    exactSum (n :: ns) = n.toInt + exactSum ns := by
  simp [exactSum]

theorem addItem_int_eq_ok {x y : Int64} {v : Literal} :
    addItem (.int x) (.int y) = .ok v ↔ ∃ w : Int64, w.toInt = x.toInt + y.toInt ∧ v = .int w := by
  simp only [← checked_eq_some_iff]
  change BinaryOp.add.arithmetic (.int x) (.int y) = .ok v ↔ _
  simp only [BinaryOp.arithmetic, BinaryOp.integral?]
  cases checked (x.toInt + y.toInt) with
  | some w => simp [eq_comm]
  | none => simp

/-- **Integers are added up to their exact sum iff every prefix of them has 64 bits.** -/
theorem foldlM_ints {ns : List Int64} {x : Int64} {v : Literal} :
    (ns.map Literal.int).foldlM addItem (.int x) = .ok v ↔
      (∀ p, p <+: ns → Fits (x.toInt + exactSum p)) ∧
        ∃ total : Int64, total.toInt = x.toInt + exactSum ns ∧ v = .int total := by
  induction ns generalizing x with
  | nil =>
    constructor
    · rintro ⟨⟩
      exact ⟨by simp [fits_toInt], x, by simp⟩
    · rintro ⟨-, total, htotal, rfl⟩
      obtain rfl : total = x := Int64.toInt_inj.mp (by simpa using htotal)
      rfl
  | cons n rest ih =>
    -- the prefixes are the empty one, and those of the rest with the first in front
    have hprefixes : (∀ p, p <+: n :: rest → Fits (x.toInt + exactSum p)) ↔
        ∀ p, p <+: rest → Fits (x.toInt + n.toInt + exactSum p) := by
      constructor
      · intro h p hp
        rw [Int.add_assoc, ← exactSum_cons]
        exact h _ (List.cons_prefix_cons.mpr ⟨rfl, hp⟩)
      · rintro h (_ | ⟨m, p⟩) hp
        · simpa using fits_toInt x
        · obtain ⟨hhead, htail⟩ := List.cons_prefix_cons.mp hp
          rw [hhead, exactSum_cons, ← Int.add_assoc]
          exact h p htail
    rw [List.map_cons, List.foldlM_cons, Except.bind_eq_ok, hprefixes, exactSum_cons,
      ← Int.add_assoc]
    constructor
    · rintro ⟨next, hnext, hrest⟩
      obtain ⟨w, hw, rfl⟩ := addItem_int_eq_ok.mp hnext
      rw [← hw]
      exact ih.mp hrest
    · rintro ⟨hall, htotal⟩
      have hfits : Fits (x.toInt + n.toInt) := by simpa using hall [] List.nil_prefix
      refine ⟨_, addItem_int_eq_ok.mpr ⟨_, hfits.toInt_ofInt, rfl⟩, ih.mpr ?_⟩
      rw [hfits.toInt_ofInt]
      exact ⟨hall, htotal⟩

/-! ## 3. Averages -/

open Float.Model in
/-- **What is not a number is not finite after division either.** -/
theorem isFinite_nan_div (x : Float) : ((0.0 / 0.0 : Float) / x).isFinite = false := by
  have hleft : (0.0 / 0.0 : Float).toModel.unpack = .notANumber := rfl
  have hquotient : ∀ y, UnpackedFloat.div Format.binary64 .notANumber y = .notANumber := by
    intro y
    cases y <;> rfl
  change (pack (UnpackedFloat.div _ (0.0 / 0.0 : Float).toModel.unpack x.toModel.unpack)).isFinite
    = false
  rw [hleft, hquotient]
  rfl

/-- **There is an average only where the sum is a number.** -/
theorem Aggregate.average_eq_ok {items : List Literal} {v : Literal}
    (h : Aggregate.average.apply items = .ok v) :
    items ≠ [] ∧ ∃ total, sumOf items = .ok total ∧ total.isNumber = true := by
  dsimp only [apply] at h
  split at h
  · cases h
  · rename_i hempty
    obtain ⟨total, htotal, h⟩ := Except.bind_eq_ok.mp h
    obtain ⟨count, hcount, h⟩ := Except.bind_eq_ok.mp h
    refine ⟨by simpa using hempty, total, htotal, ?_⟩
    by_contra hnumber
    have hnone : total.float? = none := by
      rw [← Option.not_isSome_iff_eq_none, Literal.isSome_float?]
      exact hnumber
    have hint : ∃ n, count = .int n := by
      unfold Literal.ofLength at hcount
      split at hcount
      · exact ⟨_, (Except.ok.inj hcount).symm⟩
      · cases hcount
    obtain ⟨n, rfl⟩ := hint
    rw [hnone] at h
    simp [BinaryOp.apply, BinaryOp.arithmetic, Literal.float?, BinaryOp.floating, isFinite_nan_div] at h

/-! ## 4. The theorem -/

namespace Expr

/-- **An aggregate of a list literal is folded to the value of the aggregate**, or fails as it does. -/
theorem evaluate_aggregate (a : Aggregate) (items : List Literal) (s t : Ty) :
    let e := aggregate a (.constant (.list items) s) none t
    e.evaluate = match a.apply items with
      | .ok v => .ok (.constant v t)
      | .error reason => .error (.invalidLocalEvaluation e.text reason) := by
  intro e
  have hclosed : e.closedFor isLocal = true := rfl
  rw [evaluate, evaluateWith_eq, if_pos hclosed, evaluated_eq]
  rfl

/-- **Folded sums are sums of numbers, or texts that a string started.**  A sum of a list literal is a
number of numbers only, and otherwise a string with a string among the items.  Integers have a sum iff
every prefix of them has one of 64 bits, and it is exact.  There is no average of an empty list, nor of one
whose sum is not a number. -/
theorem evaluate_sum (items : List Literal) (s t : Ty) :
    let source : Expr := .constant (.list items) s
    let sum := aggregate .sum source none t
    let average := aggregate .average source none t
    (∀ v, sum.evaluate = .ok (.constant v t) →
      (v.isNumber = true ∧ ∀ i ∈ items, i.isNumber = true) ∨
      (v.isString = true ∧ ∃ i ∈ items, i.isString = true)) ∧
    (∀ ns : List Int64, items = ns.map Literal.int →
      ((∃ e, sum.evaluate = .ok e) ↔ ∀ p, p <+: ns → Fits (exactSum p)) ∧
      ∀ e, sum.evaluate = .ok e →
        ∃ total : Int64, total.toInt = exactSum ns ∧ e = .constant (.int total) t) ∧
    (items = [] ∨ (∀ v, sum.evaluate = .ok (.constant v t) → v.isNumber = false) →
      ∃ reason, average.evaluate = .error (.invalidLocalEvaluation average.text reason)) := by
  intro source sum average
  have hsum : ∀ e, sum.evaluate = .ok e ↔ ∃ v, sumOf items = .ok v ∧ e = .constant v t := by
    intro e
    rw [evaluate_aggregate .sum items s t, Aggregate.apply]
    cases sumOf items <;> simp [eq_comm]
  have hvalue : ∀ v, sum.evaluate = .ok (.constant v t) ↔ sumOf items = .ok v := by
    simp [hsum]
  refine ⟨fun v hv => foldlM_addItem_cases rfl ((hvalue v).mp hv), ?_, fun hbad => ?_⟩
  · rintro ns rfl
    have hints : ∀ v, sumOf (ns.map Literal.int) = .ok v ↔
        (∀ p, p <+: ns → Fits (exactSum p)) ∧
          ∃ total : Int64, total.toInt = exactSum ns ∧ v = .int total := by
      intro v
      simpa [sumOf_eq] using @foldlM_ints ns 0 v
    refine ⟨⟨?_, fun hall => ?_⟩, fun e he => ?_⟩
    · rintro ⟨e, he⟩
      obtain ⟨v, hv, -⟩ := (hsum e).mp he
      exact ((hints v).mp hv).1
    · have htotal : (Int64.ofInt (exactSum ns)).toInt = exactSum ns :=
        (hall ns List.prefix_rfl).toInt_ofInt
      exact ⟨_, (hvalue _).mpr ((hints _).mpr ⟨hall, _, htotal, rfl⟩)⟩
    · obtain ⟨v, hv, rfl⟩ := (hsum e).mp he
      obtain ⟨-, total, htotal, rfl⟩ := (hints v).mp hv
      exact ⟨total, htotal, rfl⟩
  · rw [evaluate_aggregate .average items s t]
    cases haverage : Aggregate.average.apply items with
    | error reason => exact ⟨reason, rfl⟩
    | ok v =>
      obtain ⟨hempty, total, htotal, hnumber⟩ := Aggregate.average_eq_ok haverage
      rcases hbad with rfl | hbad
      · exact absurd rfl hempty
      · rw [hbad total ((hvalue total).mpr htotal)] at hnumber
        cases hnumber

/-- `[40, 3, -1].Sum()` is folded to `42`, since `40`, `43` and `42` have 64 bits; `["a"].Average()` is not
folded, since the sum of that list is a string. -/
theorem evaluate_sum_sample :
    let int64 : Ty := .scalar .int64
    let sum := aggregate .sum (.constant (.list [.int 40, .int 3, .int (-1)]) (.collection int64)) none int64
    let texts : Expr := .constant (.list [.string "a"]) (.collection (.scalar .string))
    let average := aggregate .average texts none int64
    (∀ p, p <+: [40, 3, -1] → Fits (exactSum p)) ∧
    (∃ total : Int64, total.toInt = 42 ∧ sum.evaluate = .ok (.constant (.int total) int64)) ∧
    (∀ v, (aggregate .sum texts none int64).evaluate = .ok (.constant v int64) → v.isNumber = false) ∧
    ∃ reason, average.evaluate = .error (.invalidLocalEvaluation average.text reason) := by
  intro int64 sum texts average
  have hprefixes : ∀ p, p <+: [40, 3, -1] → Fits (exactSum p) := by
    intro p hp
    have hmem : p ∈ List.inits [40, 3, -1] := (List.mem_inits _ _).mpr hp
    have hall : ∀ p ∈ List.inits [(40 : Int64), 3, -1], Fits (exactSum p) := by decide
    exact hall p hmem
  obtain ⟨-, hints, -⟩ := evaluate_sum [.int 40, .int 3, .int (-1)] (.collection int64) int64
  obtain ⟨hok, htotal⟩ := hints [40, 3, -1] rfl
  obtain ⟨e, he⟩ := hok.mpr hprefixes
  obtain ⟨total, hexact, rfl⟩ := htotal e he
  have htext : ∀ v, (aggregate .sum texts none int64).evaluate = .ok (.constant v int64) →
      v.isNumber = false := by
    rintro v ⟨⟩
    rfl
  obtain ⟨-, -, haverage⟩ := evaluate_sum [.string "a"] (.collection (.scalar .string)) int64
  exact ⟨hprefixes, ⟨total, hexact, he⟩, htext, haverage (Or.inr htext)⟩

/-- **A sum can be a string.**  `[1, "a"].Sum()` is folded to `"1a"`, as a constant of the type of
integers. -/
theorem evaluate_sum_text :
    let int64 : Ty := .scalar .int64
    let items : List Literal := [.int 1, .string "a"]
    let sum := aggregate .sum (.constant (.list items) (.collection int64)) none int64
    sum.evaluate = .ok (.constant (.string "1a") int64) ∧
      ¬∀ i ∈ items, i.isNumber = true := by
  intro int64 items sum
  exact ⟨rfl, by simp [items, Literal.isNumber]⟩

end Expr

end ChainQuery
