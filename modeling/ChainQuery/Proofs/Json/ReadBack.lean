import ChainQuery.Proofs.Json.Words
/-!
# Reading back JSON texts

A value is read back from each of its two texts, the compact one and the one over several lines, if its
numbers are.  The tokens of a value (`tokens`) stand between the two halves of the argument: both texts
of a value spell its tokens (`spells_compact`, `spells_pretty`), and its tokens assemble to the value,
whatever is still open (`foldlM_tokens`).
-/

namespace ChainQuery.Json

/-! ## 1. The tokens of a value -/

mutual
/-- The tokens of a value. -/
def tokens : Json → List Token
  | .null => [.null]
  | .bool b => [.bool b]
  | .number n => [.number n]
  | .string s => [.string s]
  | .array [] => [.openArray, .closeArray]
  | .array (j :: rest) => .openArray :: (j.tokens ++ itemTokens rest ++ [.closeArray])
  | .object [] => [.openObject, .closeObject]
  | .object ((name, j) :: rest) =>
    .openObject :: .string name :: .colon :: (j.tokens ++ memberTokens rest ++ [.closeObject])

/-- The tokens of the items after the first, each after a comma. -/
def itemTokens : List Json → List Token
  | [] => []
  | j :: rest => .comma :: (j.tokens ++ itemTokens rest)

/-- The tokens of the members after the first, each after a comma. -/
def memberTokens : List (String × Json) → List Token
  | [] => []
  | (name, j) :: rest => .comma :: .string name :: .colon :: (j.tokens ++ memberTokens rest)
end

mutual
/-- The numbers in a value. -/
def numbers : Json → List Number
  | .number n => [n]
  | .array items => itemNumbers items
  | .object members => memberNumbers members
  | _ => []

/-- The numbers in the items of an array. -/
def itemNumbers : List Json → List Number
  | [] => []
  | j :: rest => j.numbers ++ itemNumbers rest

/-- The numbers in the members of an object. -/
def memberNumbers : List (String × Json) → List Number
  | [] => []
  | (_, j) :: rest => j.numbers ++ memberNumbers rest
end

/-! ## 2. Tokens assemble to their value -/

/-- One step at the front of a run. -/
theorem foldlM_of_step {a b : Assembly} {token : Token} (h : a.step token = some b)
    (more : List Token) :
    (token :: more).foldlM Assembly.step a = more.foldlM Assembly.step b := by
  rw [List.foldlM_cons, h]
  rfl

/-- Whether a value may come next. -/
def Assembly.TakesValue (a : Assembly) : Prop :=
  ∀ {token : Token} {b : Assembly}, startValue a.stack token = some b → a.step token = some b

theorem takesValue_value (stack : List Frame) :
    Assembly.TakesValue { expect := .value, stack } := id

/-- The token that closes an array starts no value. -/
theorem takesValue_valueOrClose (stack : List Frame) :
    Assembly.TakesValue { expect := .valueOrClose, stack } := by
  intro token b h
  rcases stack with _ | ⟨frame, outer⟩
  · exact h
  · cases frame with
    | array done =>
      cases token with
      | closeArray => cases h
      | _ => exact h
    | _ => exact h

mutual
/-- **The tokens of a value assemble to it** where a value may come next. -/
theorem foldlM_tokens : ∀ (j : Json) {a : Assembly}, a.TakesValue → ∀ more : List Token,
    (j.tokens ++ more).foldlM Assembly.step a
      = more.foldlM Assembly.step { expect := .rest j, stack := a.stack }
  | .null, _, ha, more => foldlM_of_step (ha rfl) more
  | .bool _, _, ha, more => foldlM_of_step (ha rfl) more
  | .number _, _, ha, more => foldlM_of_step (ha rfl) more
  | .string _, _, ha, more => foldlM_of_step (ha rfl) more
  | .array [], _, ha, more => by
    rw [tokens, List.cons_append, foldlM_of_step (ha rfl)]
    exact foldlM_of_step rfl more
  | .array (j :: rest), _, ha, more => by
    rw [tokens, List.cons_append, foldlM_of_step (ha rfl), List.append_assoc, List.append_assoc,
      foldlM_tokens j (takesValue_valueOrClose _), List.singleton_append, foldlM_itemTokens rest]
    rfl
  | .object [], _, ha, more => by
    rw [tokens, List.cons_append, foldlM_of_step (ha rfl)]
    exact foldlM_of_step rfl more
  | .object ((name, j) :: rest), _, ha, more => by
    rw [tokens, List.cons_append, foldlM_of_step (ha rfl), List.cons_append,
      foldlM_of_step rfl, List.cons_append, foldlM_of_step rfl, List.append_assoc, List.append_assoc,
      foldlM_tokens j (takesValue_value _), List.singleton_append, foldlM_memberTokens rest]
    rfl

/-- The items after one of an array complete the array. -/
theorem foldlM_itemTokens : ∀ (rest : List Json) {done : List Json} {j : Json}
    {outer : List Frame} {more : List Token},
    (itemTokens rest ++ .closeArray :: more).foldlM Assembly.step
        { expect := .rest j, stack := .array done :: outer }
      = more.foldlM Assembly.step
        { expect := .rest (.array (done.reverse ++ j :: rest)), stack := outer }
  | [], done, j, _, more => by
    rw [← List.reverse_cons]
    exact foldlM_of_step rfl more
  | k :: rest, done, j, _, _ => by
    rw [itemTokens, List.cons_append, foldlM_of_step rfl, List.append_assoc,
      foldlM_tokens k (takesValue_value _), foldlM_itemTokens rest, List.reverse_cons,
      List.append_assoc, List.singleton_append]

/-- The members after one of an object complete the object. -/
theorem foldlM_memberTokens : ∀ (rest : List (String × Json)) {done : List (String × Json)}
    {name : String} {j : Json} {outer : List Frame} {more : List Token},
    (memberTokens rest ++ .closeObject :: more).foldlM Assembly.step
        { expect := .rest j, stack := .member done name :: outer }
      = more.foldlM Assembly.step
        { expect := .rest (.object (done.reverse ++ (name, j) :: rest)), stack := outer }
  | [], done, name, j, _, more => by
    rw [← List.reverse_cons]
    exact foldlM_of_step rfl more
  | (next, k) :: rest, done, name, j, _, _ => by
    rw [memberTokens, List.cons_append, foldlM_of_step rfl, List.cons_append, foldlM_of_step rfl,
      List.cons_append, foldlM_of_step rfl, List.append_assoc, foldlM_tokens k (takesValue_value _),
      foldlM_memberTokens rest, List.reverse_cons, List.append_assoc, List.singleton_append]
end

/-- **The tokens of a value are those of no other.** -/
theorem ofTokens?_tokens (j : Json) : ofTokens? j.tokens = some j := by
  have h := foldlM_tokens j (takesValue_value []) []
  rw [List.append_nil] at h
  rw [ofTokens?, h]
  rfl

/-! ## 3. Texts that spell tokens -/

/-- Whether a text is cut into some tokens, as long as a bare word at its end stops there. -/
def Spells (text : String) (ts : List Token) : Prop :=
  ∀ (found : List Token) (rest : List Char), stopsBare rest = true →
    scan .between found (text.toList ++ rest) = scan .between (ts.reverse ++ found) rest

/-- Whether a bare word stops before a text, if it stops before what follows the text. -/
def Stops (text : String) : Prop :=
  ∀ rest : List Char, stopsBare rest = true → stopsBare (text.toList ++ rest) = true

/-- **A text that spells tokens is cut into them.** -/
theorem tokens?_of_spells {text : String} {ts : List Token} (h : Spells text ts) :
    tokens? text = some ts := by
  have hscan := h [] [] rfl
  rw [List.append_nil, List.append_nil] at hscan
  rw [tokens?, hscan, scan, List.reverse_reverse]

theorem spells_empty : Spells "" [] := fun _ _ _ => rfl

/-- A keyword spells its token. -/
theorem spells_keyword {word : String} {token : Token} (hword : word.toList ≠ [])
    (hchars : word.toList.all (fun c => !endsBare c) = true)
    (hbare : bare? word.toList = some token) : Spells word [token] := by
  intro found rest hrest
  refine scan_bare hword (fun c hc => ?_) hbare hrest found
  exact (Bool.not_eq_true' _).mp (List.all_eq_true.mp hchars c hc)

theorem spells_null : Spells "null" [.null] := spells_keyword (by decide) rfl rfl

theorem spells_bool (b : Bool) : Spells (if b then "true" else "false") [.bool b] := by
  cases b with
  | true => exact spells_keyword (by decide) rfl rfl
  | false => exact spells_keyword (by decide) rfl rfl

theorem spells_number {n : Number} (h : n.ReadsBack) : Spells n.text [.number n] :=
  fun found _ hrest => scan_number h hrest found

theorem spells_quote (s : String) : Spells (quote s) [.string s] :=
  fun found rest _ => scan_quote s found rest

theorem stops_empty : Stops "" := fun _ h => h

theorem stops_of_head {start : String} {c : Char} {cs : List Char} (hstart : start.toList = c :: cs)
    (hc : endsBare c = true) (text : String) : Stops (start ++ text) := by
  intro rest _
  rw [String.toList_append, hstart, List.cons_append, List.cons_append, stopsBare]
  simpa using hc

section Spelling

variable {text other : String} {ts us : List Token}

theorem Stops.append (h : Stops text) (hother : Stops other) : Stops (text ++ other) := by
  intro rest hrest
  rw [String.toList_append, List.append_assoc]
  exact h _ (hother rest hrest)

/-- A text after another. -/
theorem Spells.append (h : Spells text ts) (hstops : Stops other) (hother : Spells other us) :
    Spells (text ++ other) (ts ++ us) := by
  intro found rest hrest
  rw [String.toList_append, List.append_assoc, h _ _ (hstops rest hrest), hother _ _ hrest,
    List.reverse_append, List.append_assoc]

/-- A text after a mark. -/
theorem Spells.mark {mark : String} {c : Char} {token : Token} (hmark : mark.toList = [c])
    (hc : mark? c = some token) (h : Spells text ts) : Spells (mark ++ text) (token :: ts) := by
  intro found rest hrest
  rw [String.toList_append, hmark, List.append_assoc, List.singleton_append, scan_mark hc,
    h _ _ hrest, List.reverse_cons, List.append_assoc, List.singleton_append]

/-- A text after a string in quotes. -/
theorem Spells.quote (s : String) (h : Spells text ts) :
    Spells (quote s ++ text) (.string s :: ts) := by
  intro found rest hrest
  rw [String.toList_append, List.append_assoc, scan_quote, h _ _ hrest]
  simp

/-! ### Blanks

What stands between marks and values in one layout and not in the other. -/

variable {gap : String} (hgap : gap.toList.all isBlank = true)
include hgap

theorem Spells.blanks (h : Spells text ts) : Spells (gap ++ text) ts := by
  intro found rest hrest
  rw [String.toList_append, List.append_assoc]
  generalize gap.toList = cs at hgap
  induction cs with
  | nil => exact h found rest hrest
  | cons c cs ih =>
    rw [List.all_cons, Bool.and_eq_true] at hgap
    rw [List.cons_append, scan, if_pos hgap.1]
    exact ih hgap.2

theorem Stops.blanks (h : Stops text) : Stops (gap ++ text) := by
  cases hchars : gap.toList with
  | nil =>
    have hempty : gap = "" := String.toList_eq_nil_iff.mp hchars
    rw [hempty, String.empty_append]
    exact h
  | cons c cs =>
    rw [hchars, List.all_cons, Bool.and_eq_true] at hgap
    exact stops_of_head hchars (by simp [endsBare, hgap.1]) text

/-! ### One level of nesting -/

/-- An item or a member after another. -/
theorem Spells.comma (h : Spells text ts) : Spells ("," ++ (gap ++ text)) (.comma :: ts) :=
  .mark rfl rfl (.blanks hgap h)

/-- A name before the value of a member. -/
theorem Spells.named (name : String) (h : Spells text ts) :
    Spells (Json.quote name ++ (":" ++ (gap ++ text))) (.string name :: .colon :: ts) :=
  .quote name (.mark rfl rfl (.blanks hgap h))

variable {gap' : String} (hgap' : gap'.toList.all isBlank = true)
include hgap'

/-- Two texts one after the other, between two marks. -/
theorem Spells.between {start stop : String} {c d : Char} {first last : Token}
    (hstart : start.toList = [c]) (hc : mark? c = some first) (hstop : stop.toList = [d])
    (hd : mark? d = some last) (h : Spells text ts) (hstops : Stops other)
    (hother : Spells other us) :
    Spells (start ++ (gap ++ (text ++ (other ++ (gap' ++ stop))))) (first :: (ts ++ us ++ [last])) := by
  have hends : endsBare d = true := by simp [endsBare, hd]
  have hend : Stops (gap' ++ stop) := by
    have h := stops_of_head hstop hends ""
    rw [String.append_empty] at h
    exact .blanks hgap' h
  have hclose : Spells (gap' ++ stop) [last] := by
    have h := Spells.mark hstop hd spells_empty
    rw [String.append_empty] at h
    exact .blanks hgap' h
  rw [List.append_assoc]
  exact .mark hstart hc
    (.blanks hgap (h.append (hstops.append hend) (hother.append hend hclose)))

/-- An array of an item and others. -/
theorem Spells.array (h : Spells text ts) (hstops : Stops other) (hother : Spells other us) :
    Spells ("[" ++ (gap ++ (text ++ (other ++ (gap' ++ "]")))))
      (.openArray :: (ts ++ us ++ [.closeArray])) :=
  .between hgap hgap' rfl rfl rfl rfl h hstops hother

/-- An object of a member and others. -/
theorem Spells.object (h : Spells text ts) (hstops : Stops other) (hother : Spells other us) :
    Spells ("\x7b" ++ (gap ++ (text ++ (other ++ (gap' ++ "\x7d")))))
      (.openObject :: (ts ++ us ++ [.closeObject])) :=
  .between hgap hgap' rfl rfl rfl rfl h hstops hother

end Spelling

/-! ## 4. The compact text -/

theorem all_isBlank_empty : "".toList.all isBlank = true := rfl

/-- The items after the first, each after a comma. -/
def compactRest : List Json → String
  | [] => ""
  | items => "," ++ compactItems items

/-- The members after the first, each after a comma. -/
def compactMembersRest : List (String × Json) → String
  | [] => ""
  | members => "," ++ compactMembers members

theorem compactItems_cons (j : Json) (rest : List Json) :
    compactItems (j :: rest) = j.compact ++ compactRest rest := by
  cases rest with
  | nil => simp [compactItems, compactRest]
  | cons k rest => simp [compactItems, compactRest, String.append_assoc]

theorem compactMembers_cons (name : String) (j : Json) (rest : List (String × Json)) :
    compactMembers ((name, j) :: rest)
      = quote name ++ (":" ++ (j.compact ++ compactMembersRest rest)) := by
  cases rest with
  | nil => simp [compactMembers, compactMembersRest, String.append_assoc]
  | cons m rest => simp [compactMembers, compactMembersRest, String.append_assoc]

theorem stops_compactRest (rest : List Json) : Stops (compactRest rest) := by
  cases rest with
  | nil => exact stops_empty
  | cons j rest => exact stops_of_head rfl rfl _

theorem stops_compactMembersRest (rest : List (String × Json)) : Stops (compactMembersRest rest) := by
  cases rest with
  | nil => exact stops_empty
  | cons m rest => exact stops_of_head rfl rfl _

mutual
/-- **The compact text of a value spells its tokens.** -/
theorem spells_compact : ∀ j : Json, (∀ n ∈ j.numbers, n.ReadsBack) → Spells j.compact j.tokens
  | .null, _ => spells_null
  | .bool b, _ => spells_bool b
  | .number n, h => spells_number (h n (List.mem_singleton_self n))
  | .string s, _ => spells_quote s
  | .array [], _ => fun _ _ _ => rfl
  | .array (j :: rest), h => by
    obtain ⟨hj, hrest⟩ := List.forall_mem_append.mp h
    have harray := Spells.array all_isBlank_empty all_isBlank_empty (spells_compact j hj)
      (stops_compactRest rest) (spells_compactRest rest hrest)
    rw [compact, compactItems_cons, tokens]
    simpa [String.append_assoc] using harray
  | .object [], _ => fun _ _ _ => rfl
  | .object ((name, j) :: rest), h => by
    obtain ⟨hj, hrest⟩ := List.forall_mem_append.mp h
    have hobject := Spells.object all_isBlank_empty all_isBlank_empty
      (.named all_isBlank_empty name (spells_compact j hj))
      (stops_compactMembersRest rest) (spells_compactMembersRest rest hrest)
    rw [compact, compactMembers_cons, tokens]
    simpa [String.append_assoc] using hobject

theorem spells_compactRest : ∀ rest : List Json, (∀ n ∈ itemNumbers rest, n.ReadsBack) →
    Spells (compactRest rest) (itemTokens rest)
  | [], _ => spells_empty
  | j :: rest, h => by
    obtain ⟨hj, hrest⟩ := List.forall_mem_append.mp h
    have hitem := Spells.comma all_isBlank_empty
      ((spells_compact j hj).append (stops_compactRest rest) (spells_compactRest rest hrest))
    rw [compactRest, compactItems_cons, itemTokens]
    · simpa [String.append_assoc] using hitem
    · exact nofun

theorem spells_compactMembersRest : ∀ rest : List (String × Json),
    (∀ n ∈ memberNumbers rest, n.ReadsBack) → Spells (compactMembersRest rest) (memberTokens rest)
  | [], _ => spells_empty
  | (name, j) :: rest, h => by
    obtain ⟨hj, hrest⟩ := List.forall_mem_append.mp h
    have hmember := Spells.comma all_isBlank_empty (.named all_isBlank_empty name
      ((spells_compact j hj).append (stops_compactMembersRest rest)
        (spells_compactMembersRest rest hrest)))
    rw [compactMembersRest, compactMembers_cons, memberTokens]
    · simpa [String.append_assoc] using hmember
    · exact nofun
end

/-- **A value is read back from its compact text**, if its numbers are. -/
theorem parse?_compact {j : Json} (h : ∀ n ∈ j.numbers, n.ReadsBack) : parse? j.compact = some j := by
  rw [parse?, tokens?_of_spells (spells_compact j h)]
  exact ofTokens?_tokens j

/-! ## 5. The text over several lines -/

theorem pretty_array_nil (level : Nat) : pretty level (.array []) = "[]" := by
  simp [pretty, leafText]

theorem pretty_object_nil (level : Nat) : pretty level (.object []) = "\x7b\x7d" := by
  simp [pretty, leafText]

theorem all_isBlank_space : " ".toList.all isBlank = true := rfl

theorem toList_lineBreak (level : Nat) :
    (lineBreak level).toList = '\n' :: List.replicate (2 * level) ' ' := by
  simp [lineBreak]

theorem all_isBlank_lineBreak (level : Nat) : (lineBreak level).toList.all isBlank = true := by
  rw [toList_lineBreak, List.all_cons, List.all_replicate]
  simp [isBlank]

theorem stops_prettyItems (level : Nat) (rest : List Json) : Stops (prettyItems level rest) := by
  cases rest with
  | nil => exact stops_empty
  | cons j rest =>
    rw [prettyItems, String.append_assoc, String.append_assoc]
    exact stops_of_head rfl rfl _

theorem stops_prettyMembers (level : Nat) (rest : List (String × Json)) :
    Stops (prettyMembers level rest) := by
  cases rest with
  | nil => exact stops_empty
  | cons m rest =>
    simp only [prettyMembers, String.append_assoc]
    exact stops_of_head rfl rfl _

mutual
/-- **The text of a value over several lines spells its tokens.** -/
theorem spells_pretty : ∀ (level : Nat) (j : Json), (∀ n ∈ j.numbers, n.ReadsBack) →
    Spells (j.pretty level) j.tokens
  | _, .null, _ => spells_null
  | _, .bool b, _ => spells_bool b
  | _, .number n, h => spells_number (h n (List.mem_singleton_self n))
  | _, .string s, _ => spells_quote s
  | level, .array [], _ => by
    rw [pretty_array_nil]
    exact fun _ _ _ => rfl
  | level, .array (j :: rest), h => by
    obtain ⟨hj, hrest⟩ := List.forall_mem_append.mp h
    have harray := Spells.array (all_isBlank_lineBreak (level + 1)) (all_isBlank_lineBreak level)
      (spells_pretty (level + 1) j hj) (stops_prettyItems (level + 1) rest)
      (spells_prettyItems (level + 1) rest hrest)
    rw [pretty, tokens]
    simpa only [String.append_assoc] using harray
  | level, .object [], _ => by
    rw [pretty_object_nil]
    exact fun _ _ _ => rfl
  | level, .object ((name, j) :: rest), h => by
    obtain ⟨hj, hrest⟩ := List.forall_mem_append.mp h
    have hobject := Spells.object (all_isBlank_lineBreak (level + 1)) (all_isBlank_lineBreak level)
      (.named all_isBlank_space name (spells_pretty (level + 1) j hj))
      (stops_prettyMembers (level + 1) rest) (spells_prettyMembers (level + 1) rest hrest)
    have hcolon : ": " = ":" ++ " " := rfl
    rw [pretty, tokens, hcolon]
    simpa only [String.append_assoc, List.cons_append, List.append_assoc] using hobject

theorem spells_prettyItems : ∀ (level : Nat) (rest : List Json),
    (∀ n ∈ itemNumbers rest, n.ReadsBack) → Spells (prettyItems level rest) (itemTokens rest)
  | _, [], _ => spells_empty
  | level, j :: rest, h => by
    obtain ⟨hj, hrest⟩ := List.forall_mem_append.mp h
    have hitem := Spells.comma (all_isBlank_lineBreak level)
      ((spells_pretty level j hj).append (stops_prettyItems level rest)
        (spells_prettyItems level rest hrest))
    rw [prettyItems, itemTokens]
    simpa only [String.append_assoc] using hitem

theorem spells_prettyMembers : ∀ (level : Nat) (rest : List (String × Json)),
    (∀ n ∈ memberNumbers rest, n.ReadsBack) → Spells (prettyMembers level rest) (memberTokens rest)
  | _, [], _ => spells_empty
  | level, (name, j) :: rest, h => by
    obtain ⟨hj, hrest⟩ := List.forall_mem_append.mp h
    have hmember := Spells.comma (all_isBlank_lineBreak level) (.named all_isBlank_space name
      ((spells_pretty level j hj).append (stops_prettyMembers level rest)
        (spells_prettyMembers level rest hrest)))
    have hcolon : ": " = ":" ++ " " := rfl
    rw [prettyMembers, memberTokens, hcolon]
    simpa only [String.append_assoc, List.cons_append] using hmember
end

/-- **A value is read back from its text over several lines**, if its numbers are, with or without
blanks after it. -/
theorem parse?_pretty {j : Json} (h : ∀ n ∈ j.numbers, n.ReadsBack) {gap : String}
    (hgap : gap.toList.all isBlank = true) : parse? (j.pretty 0 ++ gap) = some j := by
  have hend : Spells (gap ++ "") [] := .blanks hgap spells_empty
  have hstops : Stops (gap ++ "") := .blanks hgap stops_empty
  rw [String.append_empty] at hend hstops
  rw [parse?, tokens?_of_spells ((spells_pretty 0 j h).append hstops hend), List.append_nil]
  exact ofTokens?_tokens j

/-! ## 6. Parts of a value -/

theorem depthItems_le_iff {items : List Json} {n : Nat} :
    depthItems items ≤ n ↔ ∀ j ∈ items, j.depth ≤ n := by
  induction items with
  | nil => simp [depthItems]
  | cons j rest ih => rw [depthItems, Nat.max_le, ih, List.forall_mem_cons]

mutual
/-- **A value is in range** if its doubles are finite. -/
theorem inRange_of_numbers : ∀ j : Json, (∀ x, .float x ∈ j.numbers → x.isFinite = true) →
    j.inRange = true
  | .null, _ => rfl
  | .bool _, _ => rfl
  | .number (.int _), _ => rfl
  | .number (.float x), h => h x List.mem_cons_self
  | .string _, _ => rfl
  | .array items, h => inRangeItems_of_numbers items h
  | .object members, h => inRangeMembers_of_numbers members h

theorem inRangeItems_of_numbers : ∀ items : List Json,
    (∀ x, .float x ∈ itemNumbers items → x.isFinite = true) → inRangeItems items = true
  | [], _ => rfl
  | j :: rest, h => by
    have hj := inRange_of_numbers j fun x hx => h x (List.mem_append_left _ hx)
    have hrest := inRangeItems_of_numbers rest fun x hx => h x (List.mem_append_right _ hx)
    rw [inRangeItems, hj, hrest]
    rfl

theorem inRangeMembers_of_numbers : ∀ members : List (String × Json),
    (∀ x, .float x ∈ memberNumbers members → x.isFinite = true) → inRangeMembers members = true
  | [], _ => rfl
  | (_, j) :: rest, h => by
    have hj := inRange_of_numbers j fun x hx => h x (List.mem_append_left _ hx)
    have hrest := inRangeMembers_of_numbers rest fun x hx => h x (List.mem_append_right _ hx)
    rw [inRangeMembers, hj, hrest]
    rfl
end

/-- **What is written item by item is read back item by item.** -/
theorem mapM_map_eq_some {α β : Type} {write : α → β} {read : β → Option α} {xs : List α}
    (h : ∀ x ∈ xs, read (write x) = some x) : (xs.map write).mapM read = some xs := by
  induction xs with
  | nil => rfl
  | cons x rest ih =>
    obtain ⟨hx, hrest⟩ := List.forall_mem_cons.mp h
    rw [List.map_cons, List.mapM_cons, hx, ih hrest]
    rfl

/-- What is read item by item comes from some item each. -/
theorem exists_of_mem_mapM {α β : Type} {read : α → Option β} {xs : List α} {ys : List β}
    (h : xs.mapM read = some ys) : ∀ y ∈ ys, ∃ x ∈ xs, read x = some y := by
  induction xs generalizing ys with
  | nil =>
    cases h
    exact nofun
  | cons x rest ih =>
    rw [List.mapM_cons] at h
    obtain ⟨y, hy, h⟩ := Option.bind_eq_some_iff.mp h
    obtain ⟨zs, hzs, h⟩ := Option.bind_eq_some_iff.mp h
    cases h
    refine List.forall_mem_cons.mpr ⟨⟨x, List.mem_cons_self, hy⟩, fun z hz => ?_⟩
    obtain ⟨x', hx', hread⟩ := ih hzs z hz
    exact ⟨x', List.mem_cons_of_mem _ hx', hread⟩

theorem memberNumbers_map_eq_nil {α : Type} (write : α → Json) {entries : List (String × α)}
    (h : ∀ e ∈ entries, (write e.2).numbers = []) :
    memberNumbers (entries.map fun e => (e.1, write e.2)) = [] := by
  induction entries with
  | nil => rfl
  | cons e rest ih =>
    obtain ⟨he, hrest⟩ := List.forall_mem_cons.mp h
    rw [List.map_cons, memberNumbers, he, ih hrest]
    rfl

end ChainQuery.Json
