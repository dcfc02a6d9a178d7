import Mathlib.Data.List.Infix
import ChainQuery.Evaluate.Partial
import ChainQuery.Proofs.Compile.ScalarMeaning
import ChainQuery.Sql.Text
/-!
# String patterns in a statement and before compilation

`StartsWith`, `EndsWith` and `Contains` have two implementations.  On a constant they are computed
before compilation (`StringMethod.apply`), where the pattern is a plain text.  On a column they
become `LIKE`, with wildcards added at the ends of the pattern, and the database reads the whole as
a pattern: what `%` and `_` stand for in the middle is up to it (`Sql.like`).

`Expr.callString_like` says how far the two agree.  What is found before compilation the database
finds too; both agree on every subject if the pattern holds no `%` and no `_`; and for every other
pattern there is a subject that only the database accepts (`Sql.exemplar`).
-/

namespace ChainQuery

namespace Sql

/-! ## 1. `LIKE` -/

/-- **Whether a text matches a pattern of the database**: `%` is any sequence of characters, `_` any
one character, and every other character itself. -/
def like : List Char → List Char → Bool
  | [], text => text.isEmpty
  | c :: pattern, text =>
    if c = '%' then text.tails.any (like pattern)
    else
      match text with
      | [] => false
      | d :: text => (c = '_' || c = d) && like pattern text

/-- Whether a character stands for others in a pattern. -/
def isWildcard (c : Char) : Bool := c = '%' || c = '_'

/-- A pattern with wildcards around it. -/
def Wildcards.around : Wildcards → List Char → List Char
  | trailing, pattern => pattern ++ ['%']
  | leading, pattern => '%' :: pattern
  | both, pattern => '%' :: (pattern ++ ['%'])

/-- The characters of the first literal in a text, between quotes; none if there is no literal. -/
def quoted (text : String) : List Char :=
  ((text.toList.dropWhile fun c => c != '\'').drop 1).takeWhile fun c => c != '\''

/-- **The wildcards around a pattern are those that are written before and after it.** -/
theorem Wildcards.around_eq (w : Wildcards) (pattern : List Char) :
    w.around pattern = quoted w.before ++ pattern ++ quoted w.after := by
  have hnone : quoted "" = [] := by decide
  have hbefore : quoted "'%' + " = ['%'] := by decide
  have hafter : quoted " + '%'" = ['%'] := by decide
  cases w with
  | trailing => simp [around, before, after, hnone, hafter]
  | leading => simp [around, before, after, hnone, hbefore]
  | both => simp [around, before, after, hbefore, hafter]

/-- Whether a plain text stands in another where wildcards leave room around it. -/
def Wildcards.Occurs : Wildcards → List Char → List Char → Prop
  | trailing, pattern, text => pattern <+: text
  | leading, pattern, text => pattern <:+ text
  | both, pattern, text => pattern <:+: text

theorem like_any {pattern text : List Char} :
    like ('%' :: pattern) text = true ↔ ∃ suffix, suffix <:+ text ∧ like pattern suffix = true := by
  simp [like]

/-- A pattern takes what it matches even if more is let in before it. -/
theorem like_any_of_like {pattern text : List Char} (h : like pattern text = true) :
    like ('%' :: pattern) text = true :=
  like_any.mpr ⟨text, List.suffix_rfl, h⟩

theorem like_any_nil (text : List Char) : like ['%'] text = true :=
  like_any.mpr ⟨[], List.nil_suffix, rfl⟩

/-- **What two patterns match, they match one after the other.** -/
theorem like_append {first second : List Char} {left right : List Char}
    (hfirst : like first left = true) (hsecond : like second right = true) :
    like (first ++ second) (left ++ right) = true := by
  induction first generalizing left with
  | nil =>
    obtain rfl : left = [] := by simpa [like] using hfirst
    exact hsecond
  | cons c first ih =>
    by_cases hc : c = '%'
    · subst hc
      obtain ⟨suffix, ⟨before, rfl⟩, hsuffix⟩ := like_any.mp hfirst
      exact like_any.mpr ⟨suffix ++ right, ⟨before, by simp⟩, ih hsuffix⟩
    · cases left with
      | nil => simp [like, hc] at hfirst
      | cons d left =>
        simp only [like, hc, if_false, Bool.and_eq_true, List.cons_append] at hfirst ⊢
        exact ⟨hfirst.1, ih hfirst.2⟩

/-- Every pattern matches itself. -/
theorem like_self (pattern : List Char) : like pattern pattern = true := by
  induction pattern with
  | nil => rfl
  | cons c pattern ih =>
    by_cases hc : c = '%'
    · subst hc
      exact like_any.mpr ⟨pattern, List.suffix_cons _ _, ih⟩
    · simp [like, hc, ih]

/-- **A pattern without wildcards matches its own text**, before what the rest matches. -/
theorem like_plain_append {pattern text : List Char}
    (hplain : ∀ c ∈ pattern, isWildcard c = false) (rest : List Char) :
    like (pattern ++ rest) text = true ↔ ∃ after, text = pattern ++ after ∧ like rest after = true := by
  induction pattern generalizing text with
  | nil => simp
  | cons c pattern ih =>
    have hc : ¬c = '%' ∧ ¬c = '_' := by simpa [isWildcard] using hplain c List.mem_cons_self
    have ih := fun text => @ih text fun d hd => hplain d (List.mem_cons_of_mem _ hd)
    cases text with
    | nil => simp [like, hc.1]
    | cons d text => simp [like, hc.1, hc.2, ih, eq_comm (a := c), and_assoc]

/-- A plain text followed by anything is a beginning. -/
theorem like_plain_any {pattern text : List Char} (hplain : ∀ c ∈ pattern, isWildcard c = false) :
    like (pattern ++ ['%']) text = true ↔ pattern <+: text := by
  rw [like_plain_append hplain ['%']]
  constructor
  · rintro ⟨after, rfl, -⟩
    exact List.prefix_append _ _
  · rintro ⟨after, rfl⟩
    exact ⟨after, rfl, like_any_nil after⟩

/-- A pattern without wildcards is a plain text. -/
theorem like_plain {pattern text : List Char} (hplain : ∀ c ∈ pattern, isWildcard c = false) :
    like pattern text = true ↔ text = pattern := by
  simpa [like] using like_plain_append hplain []

/-! ## 2. Patterns with wildcards around them -/

/-- **What occurs is matched**, whatever the pattern holds. -/
theorem Wildcards.like_around_of_occurs {w : Wildcards} {pattern text : List Char}
    (h : w.Occurs pattern text) : like (w.around pattern) text = true := by
  cases w with
  | trailing =>
    obtain ⟨after, rfl⟩ := h
    exact like_append (like_self pattern) (like_any_nil after)
  | leading => exact like_any.mpr ⟨pattern, h, like_self pattern⟩
  | both =>
    obtain ⟨before, after, rfl⟩ := h
    exact like_any.mpr ⟨pattern ++ after, ⟨before, by simp⟩,
      like_append (like_self pattern) (like_any_nil after)⟩

/-- **A pattern without wildcards of its own is matched where it occurs.** -/
theorem Wildcards.like_around_plain {w : Wildcards} {pattern text : List Char}
    (hplain : ∀ c ∈ pattern, isWildcard c = false) :
    like (w.around pattern) text = true ↔ w.Occurs pattern text := by
  refine ⟨fun h => ?_, like_around_of_occurs⟩
  cases w with
  | trailing => exact (like_plain_any hplain).mp h
  | leading =>
    obtain ⟨suffix, hsuffix, hlike⟩ := like_any.mp h
    obtain rfl := (like_plain hplain).mp hlike
    exact hsuffix
  | both =>
    obtain ⟨suffix, hsuffix, hlike⟩ := like_any.mp h
    exact ((like_plain_any hplain).mp hlike).isInfix.trans hsuffix.isInfix

/-- **A text that a pattern matches without its wildcards**: `%` is left out, and `_` is a blank. -/
def exemplar (pattern : List Char) : List Char :=
  pattern.filterMap fun c => if c = '%' then none else some (if c = '_' then ' ' else c)

theorem like_exemplar (pattern : List Char) : like pattern (exemplar pattern) = true := by
  induction pattern with
  | nil => rfl
  | cons c pattern ih =>
    by_cases hc : c = '%'
    · subst hc
      exact like_any_of_like ih
    · by_cases hu : c = '_' <;> simp_all [exemplar, like]

theorem isWildcard_of_mem_exemplar {pattern : List Char} {c : Char} (h : c ∈ exemplar pattern) :
    isWildcard c = false := by
  obtain ⟨d, -, hd⟩ := List.mem_filterMap.mp h
  by_cases hp : d = '%'
  · simp [hp] at hd
  · by_cases hu : d = '_'
    · obtain rfl : ' ' = c := by simpa [hp, hu] using hd
      decide
    · obtain rfl : d = c := by simpa [hp, hu] using hd
      simp [isWildcard, hp, hu]

theorem Wildcards.like_around_of_like {w : Wildcards} {pattern text : List Char}
    (h : like pattern text = true) : like (w.around pattern) text = true := by
  have hafter : like (pattern ++ ['%']) text = true := by
    simpa using like_append h (like_any_nil [])
  cases w with
  | trailing => exact hafter
  | leading => exact like_any_of_like h
  | both => exact like_any_of_like hafter

theorem Wildcards.Occurs.isInfix {w : Wildcards} {pattern text : List Char}
    (h : w.Occurs pattern text) : pattern <:+: text := by
  cases w with
  | trailing => exact List.IsPrefix.isInfix h
  | leading => exact List.IsSuffix.isInfix h
  | both => exact h

/-- **A pattern with a wildcard does not occur in its exemplar**, which is no longer than it and
holds no wildcard. -/
theorem Wildcards.not_occurs_exemplar {w : Wildcards} {pattern : List Char} {c : Char}
    (hmem : c ∈ pattern) (hc : isWildcard c = true) : ¬w.Occurs pattern (exemplar pattern) := by
  intro h
  have hlength : (exemplar pattern).length ≤ pattern.length := List.length_filterMap_le _ _
  have heq : pattern = exemplar pattern := h.isInfix.eq_of_length_le hlength
  rw [heq] at hmem
  simp [isWildcard_of_mem_exemplar hmem] at hc

end Sql

/-! ## 3. The methods before compilation -/

/-- The wildcards with which a method becomes `LIKE`. -/
def StringMethod.wildcards? : StringMethod → Option Sql.Wildcards
  | startsWith => some .trailing
  | endsWith => some .leading
  | contains => some .both
  | substring | toUpper | toLower => none

theorem occursIn_iff {pattern text : List Char} : occursIn pattern text = true ↔ pattern <:+: text := by
  induction text with
  | nil => simp [occursIn]
  | cons c rest ih => simp [occursIn, ih, List.infix_cons_iff]

/-- **On a constant, a method finds where its pattern occurs.** -/
theorem Expr.callString_evaluate {m : StringMethod} {w : Sql.Wildcards}
    (hm : m.wildcards? = some w) (s p : String) :
    ∃ found : Bool, (callString (ofLiteral (.string s)) m [ofLiteral (.string p)]).evaluate
        = .ok (ofLiteral (.bool found)) ∧
      (found = true ↔ w.Occurs p.toList s.toList) := by
  cases m with
  | startsWith =>
    obtain rfl := Option.some.inj hm
    exact ⟨_, rfl, List.isPrefixOf_iff_prefix⟩
  | endsWith =>
    obtain rfl := Option.some.inj hm
    exact ⟨_, rfl, List.isSuffixOf_iff_suffix⟩
  | contains =>
    obtain rfl := Option.some.inj hm
    exact ⟨_, rfl, occursIn_iff⟩
  | substring | toUpper | toLower => simp [StringMethod.wildcards?] at hm

/-! ## 4. The methods in a statement -/

/-- `LIKE` on literals: the pattern is put between the wildcards as it is. -/
def Sql.Wildcards.onLiterals (w : Sql.Wildcards) (subject pattern : Literal) :
    Except Failure Literal :=
  match subject, pattern with
  | .string s, .string p => .ok (.bool (Sql.like (w.around p.toList) s.toList))
  | _, _ => .error (.calledOn "LIKE" subject.kind)

/-- **The operations of the database**: those with which expressions are evaluated, and `LIKE`. -/
def Interpretation.ofDatabase (column : String → Literal) :
    Interpretation (Except Failure Literal) :=
  { Interpretation.ofEvaluator column with
    like := fun w subject pattern => do w.onLiterals (← subject) (← pattern) }

/-- A scalar member of a row is read as a column. -/
theorem Expr.member_toScalar (env : Env) {object : Expr} {path : List Ty} {name : String} {t : Ty}
    (hobject : object.type.isScalar = false) (hpath : object.memberPath? = some path)
    (ht : t.isScalar = true) (r : Reading) :
    ∃ r', (((Expr.member object name t).toScalar env).run r).outcome
      = .ok (.column ⟨path, name⟩, r') := by
  let column := Scalar.column ⟨path, name⟩
  refine ⟨if r.columns.contains column then r else { r with columns := r.columns ++ [column] }, ?_⟩
  simp only [toScalar, readMember, hobject, hpath, ht]
  rfl

/-- **On a column, a method is `LIKE`**, wherever the column is bound. -/
theorem Expr.callString_toScalar (env : Env) (subqueries : Subqueries) {scope : Scope}
    {position : Position} {object : Expr} {path : List Ty} {name : String} {t : Ty}
    {ref : Sql.ColumnRef} {m : StringMethod} {w : Sql.Wildcards} (hm : m.wildcards? = some w)
    (hobject : object.type.isScalar = false) (hpath : object.memberPath? = some path)
    (ht : t.isScalar = true)
    (hbound : (scope.column ⟨path, name⟩ position).outcome = .ok (.column ref)) (p : String)
    (r : Reading) :
    ∃ scalar r', (((callString (.member object name t) m [ofLiteral (.string p)]).toScalar env).run
        r).outcome = .ok (scalar, r') ∧
      (scalar.resolve env.dialect subqueries scope position).outcome
        = .ok (.like (.column ref) (.param (.string p)) w) := by
  obtain ⟨r', hcolumn⟩ := member_toScalar env hobject hpath ht r
  refine ⟨.like (.column ⟨path, name⟩) (.value (.string p)) w, r', ?_, ?_⟩
  · cases m with
    | startsWith | endsWith | contains =>
      obtain rfl := Option.some.inj hm
      exact ReadM.bind_eq_ok.mpr ⟨_, r', hcolumn, rfl⟩
    | substring | toUpper | toLower => simp [StringMethod.wildcards?] at hm
  · exact Traced.bind_eq_ok.mpr ⟨.column ref, hbound, rfl⟩

/-! ## 5. The theorem -/

/-- **How far the two implementations agree.**  A method on a column that the scope binds compiles to
`LIKE`, which is written with the pattern as a parameter between the wildcards, and decides every
subject that the column may hold by the pattern between them; partial evaluation of the method on that
subject decides it too.  What the latter finds the former accepts; they agree on all subjects if the
pattern holds no wildcard; and only then. -/
theorem Expr.callString_like (env : Env) (subqueries : Subqueries) {scope : Scope}
    {position : Position} {object : Expr} {path : List Ty} {name : String} {t : Ty}
    {ref : Sql.ColumnRef} {m : StringMethod}
    (hm : m = .startsWith ∨ m = .endsWith ∨ m = .contains)
    (hobject : object.type.isScalar = false) (hpath : object.memberPath? = some path)
    (ht : t.isScalar = true)
    (hbound : (scope.column ⟨path, name⟩ position).outcome = .ok (.column ref)) (p : String)
    (r : Reading) :
    ∃ scalar r' sql,
      (((callString (.member object name t) m [ofLiteral (.string p)]).toScalar env).run r).outcome
        = .ok (scalar, r') ∧
      (scalar.resolve env.dialect subqueries scope position).outcome = .ok sql ∧
      ∃ w, m.wildcards? = some w ∧ sql = .like (.column ref) (.param (.string p)) w ∧
        sql.pieces = [.text ref.text, .text " LIKE (", .text w.before, .param (.string p),
          .text w.after, .text ")"] ∧
      ∃ accepted found : String → Bool,
        (∀ s, accepted s
          = Sql.like (Sql.quoted w.before ++ p.toList ++ Sql.quoted w.after) s.toList) ∧
        (∀ s, ∀ column : String → Literal, column ref.name = .string s →
          sql.meaning? (Interpretation.ofDatabase column) env.dialect
            = some (.ok (.bool (accepted s)))) ∧
        (∀ s, (callString (ofLiteral (.string s)) m [ofLiteral (.string p)]).evaluate
          = .ok (ofLiteral (.bool (found s)))) ∧
        (∀ s, found s = true → accepted s = true) ∧
        ((∀ s, accepted s = true ↔ found s = true) ↔
          ∀ c ∈ p.toList, c ≠ '%' ∧ c ≠ '_') := by
  obtain ⟨w, hw⟩ : ∃ w, m.wildcards? = some w := by
    rcases hm with rfl | rfl | rfl <;> exact ⟨_, rfl⟩
  obtain ⟨scalar, r', hread, hresolve⟩ :=
    callString_toScalar env subqueries hw hobject hpath ht hbound p r
  choose found hfolded hfound using fun s => callString_evaluate hw s p
  let accepted := fun s : String => Sql.like (w.around p.toList) s.toList
  refine ⟨scalar, r', _, hread, hresolve, w, hw, rfl, rfl, accepted, found, fun s => ?_,
    fun s column hs => ?_, hfolded, fun s hs => Sql.Wildcards.like_around_of_occurs ((hfound s).mp hs),
    fun hagree c hc => ?_, fun hplain s => ?_⟩
  · rw [← Sql.Wildcards.around_eq]
  · simp [Sql.Expr.meaning?, Interpretation.ofDatabase, Interpretation.ofEvaluator, hs,
      Sql.Param.toLiteral, Sql.Wildcards.onLiterals, bind, Except.bind, accepted]
  · -- the exemplar of the pattern would have to hold it
    by_contra hwild
    have hwildcard : Sql.isWildcard c = true := by
      by_cases hp : c = '%' <;> simp_all [Sql.isWildcard]
    let s := String.ofList (Sql.exemplar p.toList)
    have hs : s.toList = Sql.exemplar p.toList := String.toList_ofList
    have haccepted : accepted s = true := by
      simp only [accepted, hs]
      exact Sql.Wildcards.like_around_of_like (Sql.like_exemplar p.toList)
    have hoccurs := (hfound s).mp ((hagree s).mp haccepted)
    rw [hs] at hoccurs
    exact Sql.Wildcards.not_occurs_exemplar hc hwildcard hoccurs
  · have hplain : ∀ c ∈ p.toList, Sql.isWildcard c = false := fun c hc => by
      simpa [Sql.isWildcard] using hplain c hc
    rw [hfound s]
    exact Sql.Wildcards.like_around_plain hplain

/-- `c.Name.Contains("da")` over a customer: `t.Name LIKE ('%' + @0 + '%')` accepts and rejects the
names that `Contains` does. -/
theorem Expr.callString_like_sample :
    let env : Env := ⟨Shop.schema, {}⟩
    let subqueries : Subqueries := fun _ _ => throw (.invalidArgument "no aggregates here")
    let scope := Frame.scope env subqueries ⟨0, .table "Customer" "t", none⟩ []
    let name := Shop.field ⟨"c", .row "Customer"⟩ "Name"
    let sql := Sql.Expr.like (.aliasedColumn "t" "Name") (.param (.string "da")) .both
    ∃ scalar r',
      (((callString name .contains [ofLiteral (.string "da")]).toScalar env).run {}).outcome
        = .ok (scalar, r') ∧
      (scalar.resolve env.dialect subqueries scope .predicate).outcome = .ok sql ∧
      ∃ found : String → Bool,
        (∀ s, sql.meaning? (Interpretation.ofDatabase fun _ => .string s) env.dialect
          = some (.ok (.bool (found s)))) ∧
        (∀ s, (callString (ofLiteral (.string s)) .contains [ofLiteral (.string "da")]).evaluate
          = .ok (ofLiteral (.bool (found s)))) := by
  intro env subqueries scope name sql
  have hbound : (scope.column ⟨[.row "Customer"], "Name"⟩ .predicate).outcome
      = .ok (.column (.qualified (.aliased "t") "Name")) := rfl
  have hpath : (Parameter.reference ⟨"c", .row "Customer"⟩).memberPath? = some [.row "Customer"] := rfl
  have htype : (Ty.scalar .string).isScalar = true := rfl
  obtain ⟨scalar, r', sql', hread, hresolve, -, -, -, -, accepted, found, -, haccepted, hfound, -,
    hagree⟩ :=
    callString_like env subqueries (.inr (.inr rfl)) rfl hpath htype hbound "da" {}
  cases hread
  cases hresolve
  have hsame : accepted = found := funext fun s =>
    Bool.eq_iff_iff.mpr (hagree.mpr (by simp) s)
  refine ⟨_, _, rfl, rfl, found, fun s => ?_, hfound⟩
  rw [← hsame]
  exact haccepted s _ rfl

/-- **They disagree about `_`.**  The name `Ada` does not start with `_`, and
`t.Name LIKE (@0 + '%')` accepts it for the parameter `_`. -/
theorem Expr.callString_like_underscore :
    let env : Env := ⟨Shop.schema, {}⟩
    let subqueries : Subqueries := fun _ _ => throw (.invalidArgument "no aggregates here")
    let scope := Frame.scope env subqueries ⟨0, .table "Customer" "t", none⟩ []
    let name := Shop.field ⟨"c", .row "Customer"⟩ "Name"
    ∃ scalar r' sql,
      (((callString name .startsWith [ofLiteral (.string "_")]).toScalar env).run {}).outcome
        = .ok (scalar, r') ∧
      (scalar.resolve env.dialect subqueries scope .predicate).outcome = .ok sql ∧
      sql.meaning? (Interpretation.ofDatabase fun _ => .string "Ada") env.dialect
        = some (.ok (.bool true)) ∧
      (callString (ofLiteral (.string "Ada")) .startsWith [ofLiteral (.string "_")]).evaluate
        = .ok (ofLiteral (.bool false)) :=
  ⟨_, _, _, rfl, rfl, rfl, rfl⟩

end ChainQuery
