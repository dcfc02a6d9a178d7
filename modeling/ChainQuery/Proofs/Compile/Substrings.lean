import ChainQuery.Proofs.Compile.LikePatterns
import ChainQuery.Proofs.Evaluate.Folding
import ChainQuery.Proofs.Evaluate.Integers
/-!
# Substrings in a statement and before compilation

`Substring` has two implementations.  On a constant it is computed before compilation (`substring`), with
positions that count from zero and must lie in the text.  On a column it becomes the function of that name
of the database, which is handed the same two numbers but counts positions from one, and takes what there
is (`Sql.substring`).

So the database selects the characters one position further to the left.  `Expr.callString_substring` says
this of every text and every pair of numbers for which the method is folded, and for which of them the two
still agree: those where every character that is cut out has one before it, and equals it.
-/

namespace ChainQuery

/-! ## 1. The function of the database -/

/-- **The characters at the positions `start` to `start + length - 1` of a text, as far as there are any.**
Positions count from one. -/
def Sql.substring (text : List Char) (start length : Int) : List Char :=
  ((text.zipIdx 1).filter fun c => start ≤ c.2 ∧ c.2 < start + length).map Prod.fst

/-- Characters at a range of positions are what is left of a beginning of the text. -/
theorem Sql.filter_zipIdx (text : List Char) (first : Nat) (start stop : Int) :
    ((text.zipIdx first).filter fun c => start ≤ c.2 ∧ c.2 < stop).map Prod.fst
      = (text.take (stop - first).toNat).drop (start - first).toNat := by
  induction text generalizing first with
  | nil => simp
  | cons c rest ih =>
    have hrest := ih (first + 1)
    rw [List.zipIdx_cons]
    by_cases hstop : stop ≤ first
    · -- no position is left
      have hnone : (stop - (first + 1 : Nat)).toNat = 0 := by omega
      have hzero : (stop - first).toNat = 0 := by omega
      rw [hnone] at hrest
      rw [hzero, List.filter_cons_of_neg (by simp; omega), hrest]
      simp
    · obtain ⟨n, hn⟩ : ∃ n : Nat, (stop - first).toNat = n + 1 := ⟨(stop - first).toNat - 1, by omega⟩
      have hlater : (stop - (first + 1 : Nat)).toNat = n := by omega
      rw [hlater] at hrest
      by_cases hstart : start ≤ first
      · have hzero : (start - first).toNat = 0 := by omega
        have hnone : (start - (first + 1 : Nat)).toNat = 0 := by omega
        rw [hnone] at hrest
        rw [List.filter_cons_of_pos (by simp; omega), List.map_cons, hrest, hn, hzero]
        rfl
      · obtain ⟨m, hm⟩ : ∃ m : Nat, (start - first).toNat = m + 1 :=
          ⟨(start - first).toNat - 1, by omega⟩
        have hearlier : (start - (first + 1 : Nat)).toNat = m := by omega
        rw [hearlier] at hrest
        rw [List.filter_cons_of_neg (by simp; omega), hrest, hn, hm]
        rfl

theorem Sql.substring_eq (text : List Char) (start length : Int) :
    substring text start length = (text.take (start + length - 1).toNat).drop (start - 1).toNat :=
  filter_zipIdx text 1 start (start + length)

/-- From a position that exists on, the characters are those from one position further to the left. -/
theorem Sql.substring_of_pos (text : List Char) {start : Int} (hstart : 0 < start) (length : Int) :
    substring text start length = (text.drop (start - 1).toNat).take length.toNat := by
  rw [substring_eq, List.drop_take]
  congr 1
  omega

/-- There is no position zero, so that one character less is taken. -/
theorem Sql.substring_zero (text : List Char) (length : Int) :
    substring text 0 length = text.take (length - 1).toNat := by
  simp [substring_eq]

/-- **When it makes no difference where positions count from.**  The characters from a position on are
those from one position further to the left iff each of them has one before it, and equals it. -/
theorem Sql.substring_eq_take_drop_iff {text : List Char} {start length : Int} (hstart : 0 ≤ start)
    (hlength : 0 ≤ length) (hstop : start + length ≤ text.length) :
    substring text start length = (text.drop start.toNat).take length.toNat ↔
      ∀ i : Nat, start ≤ i → i < start + length → 0 < i ∧ text[i - 1]? = text[i]? := by
  obtain ⟨s, rfl⟩ := Int.eq_ofNat_of_zero_le hstart
  obtain ⟨n, rfl⟩ := Int.eq_ofNat_of_zero_le hlength
  simp only [Int.toNat_natCast]
  cases s with
  | zero =>
    -- one character is missing, unless none is asked for
    rw [Int.ofNat_zero, substring_zero, List.drop_zero]
    constructor
    · intro heq i _ hi
      have hlengths := congrArg List.length heq
      simp only [List.length_take] at hlengths
      omega
    · intro heach
      have hn : n = 0 := by
        by_contra hn
        exact absurd (heach 0 (by simp) (by omega)).1 (by simp)
      simp [hn]
  | succ s =>
    have hbefore : ((s + 1 : Nat) - 1 : Int).toNat = s := by omega
    rw [substring_of_pos text (by omega), hbefore, Int.toNat_natCast]
    constructor
    · intro heq i hi hin
      refine ⟨by omega, ?_⟩
      have hat := congrArg (fun part => part[i - (s + 1)]?) heq
      simp only [List.getElem?_take, List.getElem?_drop] at hat
      rwa [if_pos (by omega), if_pos (by omega), show s + (i - (s + 1)) = i - 1 by omega,
        show s + 1 + (i - (s + 1)) = i by omega] at hat
    · intro heach
      refine List.ext_getElem? fun k => ?_
      simp only [List.getElem?_take, List.getElem?_drop]
      split
      · have hat := (heach (s + 1 + k) (by omega) (by omega)).2
        rwa [show s + 1 + k - 1 = s + k by omega] at hat
      · rfl

/-! ## 2. The method before compilation -/

theorem position?_eq_ok {position : Int} {length n : Nat} :
    position? position length = .ok n ↔ position = n ∧ n ≤ length := by
  unfold position?
  split
  · simp only [Except.ok.injEq]
    omega
  · simp only [reduceCtorEq, false_iff]
    omega

/-- **What the method cuts out of a text**: positions count from zero, and lie in it. -/
theorem substring_eq_ok {text : List Char} {start length : Int64} {v : Literal} :
    substring text start length = .ok v ↔
      0 ≤ start.toInt ∧ 0 ≤ length.toInt ∧ Fits (start.toInt + length.toInt) ∧
        start.toInt + length.toInt ≤ text.length ∧
        v = .string (String.ofList ((text.drop start.toInt.toNat).take length.toInt.toNat)) := by
  constructor
  · intro h
    obtain ⟨s, hs, h⟩ := Except.bind_eq_ok.mp h
    obtain ⟨hstart, -⟩ := position?_eq_ok.mp hs
    by_cases hnegative : length.toInt < 0
    · rw [if_pos hnegative] at h
      cases h
    rw [if_neg hnegative] at h
    cases hchecked : checked (s + length.toInt) with
    | none =>
      rw [hchecked] at h
      cases h
    | some stop =>
      rw [hchecked] at h
      obtain ⟨e, he, h⟩ := Except.bind_eq_ok.mp h
      obtain ⟨hend, hle⟩ := position?_eq_ok.mp he
      have hstop := checked_eq_some_iff.mp hchecked
      cases h
      rw [hstart, ← hstop]
      have hn : e - s = length.toInt.toNat := by omega
      refine ⟨by omega, by omega, fits_toInt stop, by omega, ?_⟩
      rw [hn, Int.toNat_natCast]
  · rintro ⟨hstart, hlength, hfits, hstop, rfl⟩
    have hs : position? start.toInt text.length = .ok start.toInt.toNat :=
      position?_eq_ok.mpr (by omega)
    have hcast : (start.toInt.toNat : Int) = start.toInt := by omega
    have hchecked : checked (start.toInt.toNat + length.toInt)
        = some (Int64.ofInt (start.toInt + length.toInt)) := by
      rw [hcast, checked_eq, if_pos hfits]
    have he : position? (Int64.ofInt (start.toInt + length.toInt)).toInt text.length
        = .ok (start.toInt.toNat + length.toInt.toNat) :=
      position?_eq_ok.mpr (by rw [hfits.toInt_ofInt]; omega)
    simp only [substring, hs, Except.ok_bind, if_neg (Int.not_lt.mpr hlength), hchecked, he,
      Nat.add_sub_cancel_left]
    rfl

/-- **The method on a constant is folded to what it cuts out.** -/
theorem Expr.callString_substring_evaluate {s : String} {start length : Int64} {e : Expr} :
    (callString (ofLiteral (.string s)) .substring
        [ofLiteral (.int start), ofLiteral (.int length)]).evaluate = .ok e ↔
      0 ≤ start.toInt ∧ 0 ≤ length.toInt ∧ Fits (start.toInt + length.toInt) ∧
        start.toInt + length.toInt ≤ s.toList.length ∧
        e = ofLiteral (.string (String.ofList
          ((s.toList.drop start.toInt.toNat).take length.toInt.toNat))) := by
  let call := callString (ofLiteral (.string s)) .substring
    [ofLiteral (.int start), ofLiteral (.int length)]
  have hcall : call.eval = substring s.toList start length := rfl
  have hevaluate : call.evaluate = call.evaluated := by
    rw [evaluate, evaluateWith_eq]
    rfl
  rw [hevaluate, evaluated_eq_ok_iff]
  simp only [hcall, substring_eq_ok]
  constructor
  · rintro ⟨v, ⟨hstart, hlength, hfits, hstop, rfl⟩, rfl⟩
    exact ⟨hstart, hlength, hfits, hstop, rfl⟩
  · rintro ⟨hstart, hlength, hfits, hstop, rfl⟩
    exact ⟨_, ⟨hstart, hlength, hfits, hstop, rfl⟩, rfl⟩

/-! ## 3. The method in a statement -/

/-- The function of the database on literals. -/
def Sql.substringOfLiterals (subject start length : Literal) : Except Failure Literal :=
  match subject, start, length with
  | .string s, .int start, .int length =>
    .ok (.string (String.ofList (substring s.toList start.toInt length.toInt)))
  | subject, _, _ => .error (.calledOn "Substring" subject.kind)

/-- The same operations with another `Substring`. -/
def Interpretation.withSubstring {V : Type} (ops : Interpretation V) (substring : V → V → V → V) :
    Interpretation V :=
  { ops with substring }

/-- **The operations of a database whose positions count from one**: those with which expressions are
evaluated, and its `Substring`. -/
def Interpretation.countingFromOne (column : String → Literal) :
    Interpretation (Except Failure Literal) :=
  (Interpretation.ofEvaluator column).withSubstring fun subject start length => do
    Sql.substringOfLiterals (← subject) (← start) (← length)

/-- **On a column, the method is the function of the database**, with the same two numbers. -/
theorem Expr.callString_substring_toScalar (env : Env) (subqueries : Subqueries) {scope : Scope}
    {position : Position} {object : Expr} {path : List Ty} {name : String} {t : Ty}
    {ref : Sql.ColumnRef} (hobject : object.type.isScalar = false)
    (hpath : object.memberPath? = some path) (ht : t.isScalar = true)
    (hbound : (scope.column ⟨path, name⟩ position).outcome = .ok (.column ref))
    (start length : Int64) (r : Reading) :
    ∃ scalar r', (((callString (.member object name t) .substring
        [ofLiteral (.int start), ofLiteral (.int length)]).toScalar env).run r).outcome
          = .ok (scalar, r') ∧
      (scalar.resolve env.dialect subqueries scope position).outcome
        = .ok (.call .substring [.column ref, .param (.int start), .param (.int length)]) := by
  obtain ⟨r', hcolumn⟩ := member_toScalar env hobject hpath ht r
  refine ⟨.function .substring [.column ⟨path, name⟩, .value (.int start), .value (.int length)], r',
    ?_, ?_⟩
  · exact ReadM.bind_eq_ok.mpr ⟨_, r', hcolumn, rfl⟩
  · exact Scalar.resolve_function _ (.cons hbound (.cons rfl (.cons rfl .nil)))

/-! ## 4. The theorem -/

/-- **How far the two implementations agree.**  The method on a column that the scope binds compiles to the
function of the database with the same two numbers, written in their order.  If the value of the method on
a text is folded, then this SQL denotes the characters one position further to the left: what is folded for
the start before, or the first characters but one if there is no start before.  The two are the same iff
each of the characters that are folded has one before it, and equals it. -/
theorem Expr.callString_substring (env : Env) (subqueries : Subqueries) {scope : Scope}
    {position : Position} {object : Expr} {path : List Ty} {name : String} {t : Ty}
    {ref : Sql.ColumnRef} (hobject : object.type.isScalar = false)
    (hpath : object.memberPath? = some path) (ht : t.isScalar = true)
    (hbound : (scope.column ⟨path, name⟩ position).outcome = .ok (.column ref))
    (start length : Int64) (r : Reading) :
    ∃ scalar r' sql,
      (((callString (.member object name t) .substring
        [ofLiteral (.int start), ofLiteral (.int length)]).toScalar env).run r).outcome
          = .ok (scalar, r') ∧
      (scalar.resolve env.dialect subqueries scope position).outcome = .ok sql ∧
      sql = .call .substring [.column ref, .param (.int start), .param (.int length)] ∧
      sql.pieces = [.text "Substring", .text "(", .text ref.text, .text ", ", .param (.int start),
        .text ", ", .param (.int length), .text ")"] ∧
      ∀ (s : String) (e : Expr),
        (callString (ofLiteral (.string s)) .substring
          [ofLiteral (.int start), ofLiteral (.int length)]).evaluate = .ok e →
        ∃ folded selected : String, e = ofLiteral (.string folded) ∧
          (∀ column : String → Literal, column ref.name = .string s →
            sql.meaning? (Interpretation.countingFromOne column) env.dialect
              = some (.ok (.string selected))) ∧
          (0 < start.toInt → (callString (ofLiteral (.string s)) .substring
            [ofLiteral (.int (start - 1)), ofLiteral (.int length)]).evaluate
              = .ok (ofLiteral (.string selected))) ∧
          (start.toInt = 0 → selected.toList = s.toList.take (length.toInt - 1).toNat) ∧
          (selected = folded ↔ ∀ i : Nat, start.toInt ≤ i → i < start.toInt + length.toInt →
            0 < i ∧ s.toList[i - 1]? = s.toList[i]?) := by
  obtain ⟨scalar, r', hread, hresolve⟩ :=
    callString_substring_toScalar env subqueries hobject hpath ht hbound start length r
  refine ⟨scalar, r', _, hread, hresolve, rfl, rfl, fun s e he => ?_⟩
  obtain ⟨hstart, hlength, hfits, hstop, rfl⟩ := callString_substring_evaluate.mp he
  refine ⟨_, String.ofList (Sql.substring s.toList start.toInt length.toInt), rfl,
    fun column hs => ?_, fun hpos => ?_, fun hzero => ?_, ?_⟩
  · simp [Sql.Expr.meaning?, Sql.Expr.meanings?, Interpretation.function?,
      Interpretation.countingFromOne, Interpretation.withSubstring, Interpretation.ofEvaluator, hs,
      Sql.Param.toLiteral, Sql.substringOfLiterals, bind, Except.bind]
  · have hbefore : (start - 1).toInt = start.toInt - 1 := by
      have hfits := fits_toInt start
      have hless : Fits (start.toInt - 1) := ⟨by have := hfits.1; omega, by have := hfits.2; omega⟩
      rw [Int64.toInt_sub, show Int64.toInt 1 = 1 from rfl, ← Int64.toInt_ofInt, hless.toInt_ofInt]
    refine callString_substring_evaluate.mpr ?_
    rw [hbefore, Sql.substring_of_pos _ hpos]
    have := hfits.1
    have := hfits.2
    exact ⟨by omega, hlength, ⟨by omega, by omega⟩, by omega, rfl⟩
  · rw [hzero, Sql.substring_zero, String.toList_ofList]
  · rw [String.ofList_inj, Sql.substring_eq_take_drop_iff hstart hlength hstop]

/-- `c.Name.Substring(1, 2)` over a customer named `aaa` is `aa` either way. -/
theorem Expr.callString_substring_sample :
    let env : Env := ⟨Shop.schema, {}⟩
    let subqueries : Subqueries := fun _ _ => throw (.invalidArgument "no aggregates here")
    let scope := Frame.scope env subqueries ⟨0, .table "Customer" "t", none⟩ []
    let name := Shop.field ⟨"c", .row "Customer"⟩ "Name"
    let sql := Sql.Expr.call .substring
      [.aliasedColumn "t" "Name", .param (.int 1), .param (.int 2)]
    ∃ scalar r',
      (((callString name .substring [ofLiteral (.int 1), ofLiteral (.int 2)]).toScalar env).run
        {}).outcome = .ok (scalar, r') ∧
      (scalar.resolve env.dialect subqueries scope .predicate).outcome = .ok sql ∧
      (callString (ofLiteral (.string "aaa")) .substring
        [ofLiteral (.int 1), ofLiteral (.int 2)]).evaluate = .ok (ofLiteral (.string "aa")) ∧
      sql.meaning? (Interpretation.countingFromOne fun _ => .string "aaa") env.dialect
        = some (.ok (.string "aa")) := by
  intro env subqueries scope name sql
  have hbound : (scope.column ⟨[.row "Customer"], "Name"⟩ .predicate).outcome
      = .ok (.column (.qualified (.aliased "t") "Name")) := rfl
  have hpath : (Parameter.reference ⟨"c", .row "Customer"⟩).memberPath? = some [.row "Customer"] := rfl
  have htype : (Ty.scalar .string).isScalar = true := rfl
  obtain ⟨scalar, r', sql', hread, hresolve, -, -, hagree⟩ :=
    callString_substring env subqueries rfl hpath htype hbound 1 2 {}
  cases hread
  cases hresolve
  have hfolded : (callString (ofLiteral (.string "aaa")) .substring
      [ofLiteral (.int 1), ofLiteral (.int 2)]).evaluate = .ok (ofLiteral (.string "aa")) := rfl
  obtain ⟨folded, selected, he, hselected, -, -, hsame⟩ := hagree "aaa" _ hfolded
  refine ⟨_, _, rfl, rfl, hfolded, ?_⟩
  obtain rfl : "aa" = folded := Literal.string.inj (constant.inj he).1
  have hselected' : selected = "aa" := hsame.mpr fun i hi hstop => by
    obtain rfl | rfl : i = 1 ∨ i = 2 := by
      change 1 ≤ (i : Int) at hi
      change (i : Int) < 3 at hstop
      omega
    all_goals exact ⟨by decide, rfl⟩
  exact hselected' ▸ hselected _ rfl

/-- **They disagree about where a text begins.**  `Substring(0, 2)` of the name `Ada` is `Ad`, and
`Substring(t.Name, @0, @1)` is `A` for the parameters `0` and `2`. -/
theorem Expr.callString_substring_zero :
    let env : Env := ⟨Shop.schema, {}⟩
    let subqueries : Subqueries := fun _ _ => throw (.invalidArgument "no aggregates here")
    let scope := Frame.scope env subqueries ⟨0, .table "Customer" "t", none⟩ []
    let name := Shop.field ⟨"c", .row "Customer"⟩ "Name"
    ∃ scalar r' sql,
      (((callString name .substring [ofLiteral (.int 0), ofLiteral (.int 2)]).toScalar env).run
        {}).outcome = .ok (scalar, r') ∧
      (scalar.resolve env.dialect subqueries scope .predicate).outcome = .ok sql ∧
      (callString (ofLiteral (.string "Ada")) .substring
        [ofLiteral (.int 0), ofLiteral (.int 2)]).evaluate = .ok (ofLiteral (.string "Ad")) ∧
      sql.meaning? (Interpretation.countingFromOne fun _ => .string "Ada") env.dialect
        = some (.ok (.string "A")) :=
  ⟨_, _, _, rfl, rfl, rfl, rfl⟩

end ChainQuery
