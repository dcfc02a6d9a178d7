import ChainQuery.Json.Printer
import ChainQuery.Json.Reader
/-!
# Reading back the words of a JSON text

A JSON text consists of marks, strings and bare words, which are numbers and keywords.  This file has what
the pass over the characters makes of each of them when it stands in a written text:

* an integer is read back from its text (`Number.readsBack_int`);
* a bare word is one token if it is written up to a mark, a blank or the end of the text
  (`scan_bare`);
* a string in quotes is one token, whatever stands in it and after it (`scan_quote`).

Nothing is said of the digits of doubles: how exactly they are read is a property of each double
(`Number.ReadsBack`).
-/

namespace ChainQuery.Json

/-! ## 1. Integers -/

theorem digitsValue_eq (cs : List Char) : Decimal.digitsValue cs = Nat.ofDigitChars 10 cs 0 := by
  unfold Decimal.digitsValue Nat.ofDigitChars
  congr 1
  funext n c
  rw [Decimal.digitValue, Nat.mul_comm]

theorem digitsValue_toDigits (n : Nat) : Decimal.digitsValue (Nat.toDigits 10 n) = n := by
  rw [digitsValue_eq]
  exact Nat.ofDigitChars_toDigits (by decide) (by decide)

/-- The digits of a number that is not zero start with another digit. -/
theorem toDigits_head {n : Nat} (hn : 0 < n) :
    ∃ c cs, Nat.toDigits 10 n = c :: cs ∧ c ≠ '0' := by
  induction n using Nat.strongRecOn with
  | ind n ih =>
    by_cases h : n < 10
    · refine ⟨n.digitChar, [], Nat.toDigits_of_lt_base h, ?_⟩
      have hdigit : ∀ d < 10, 0 < d → Nat.digitChar d ≠ '0' := by decide
      exact hdigit n h hn
    · obtain ⟨c, cs, hcs, hc⟩ := ih (n / 10) (by omega) (by omega)
      refine ⟨c, cs ++ [(n % 10).digitChar], ?_, hc⟩
      rw [Nat.toDigits_of_base_le (by decide) (by omega), hcs, List.cons_append]

/-- **The digits of a number are a whole part**: no zero leads others. -/
theorem isWhole_toDigits (n : Nat) : isWhole (Nat.toDigits 10 n) = true := by
  rcases Nat.eq_zero_or_pos n with rfl | hn
  · decide
  · obtain ⟨c, cs, hcs, hc⟩ := toDigits_head hn
    rw [hcs, isWhole]
    · exact nofun
    · rintro _ ⟨⟩
      exact hc rfl

theorem spanDigits_toDigits (n : Nat) :
    spanDigits (Nat.toDigits 10 n) = (Nat.toDigits 10 n, []) := by
  have hdigits : ∀ c ∈ Nat.toDigits 10 n, c.isDigit = true :=
    fun c hc => Nat.isDigit_of_mem_toDigits (by decide) (by decide) hc
  have htake : (Nat.toDigits 10 n ++ []).takeWhile Char.isDigit = Nat.toDigits 10 n ++ [] :=
    List.takeWhile_append_of_pos hdigits
  have hdrop : (Nat.toDigits 10 n ++ []).dropWhile Char.isDigit = [] :=
    List.dropWhile_append_of_pos hdigits
  rw [List.append_nil] at htake hdrop
  rw [spanDigits, htake, hdrop]

/-- Digits do not start with a minus sign. -/
theorem toDigits_ne_minus (n : Nat) (cs : List Char) : Nat.toDigits 10 n ≠ '-' :: cs := by
  intro h
  have hminus : '-' ∈ Nat.toDigits 10 n := h ▸ List.mem_cons_self
  have := Nat.isDigit_of_mem_toDigits (by decide) (by decide) hminus
  exact absurd this (by decide)

/-- The number that a text writes after its sign. -/
def unsigned? (negative : Bool) (cs : List Char) : Option Number :=
  if !isWhole (spanDigits cs).1 then none
  else if (spanDigits cs).2.isEmpty then some (integerOf negative (spanDigits cs).1)
  else do
    let (fraction, rest) ← fraction? (spanDigits cs).2
    let exponent ← exponent? rest
    return floatOf negative (spanDigits cs).1 fraction exponent

theorem number?_minus (cs : List Char) : number? ('-' :: cs) = unsigned? true cs := rfl

theorem number?_of_ne_minus {cs : List Char} (h : ∀ rest, cs ≠ '-' :: rest) :
    number? cs = unsigned? false cs := by
  unfold number?
  split
  rename_i negative cs' hsplit
  split at hsplit
  · exact absurd rfl (h _)
  · cases hsplit
    rfl

/-- Digits write an integer. -/
theorem unsigned?_toDigits (negative : Bool) (n : Nat) :
    unsigned? negative (Nat.toDigits 10 n) = some (integerOf negative (Nat.toDigits 10 n)) := by
  rw [unsigned?, spanDigits_toDigits, isWhole_toDigits]
  rfl

/-- Whether a number is read back from its text. -/
def Number.ReadsBack (n : Number) : Prop := number? n.text.toList = some n

/-- **An integer is read back from its text**, if it is one that a text may hold. -/
theorem Number.readsBack_int {i : Int} (hlow : -((Int64.size / 2 : Nat) : Int) ≤ i)
    (hhigh : i ≤ (Decimal.significandMax : Int)) : (Number.int i).ReadsBack := by
  unfold Number.ReadsBack Number.text
  by_cases hneg : i < 0
  · have htext : (Decimal.integerText i).toList = '-' :: Nat.toDigits 10 i.natAbs := by
      rw [Decimal.integerText, if_pos hneg, Decimal.digitText]
      simp
    have hbound : ¬ (i.natAbs == 0 || Int64.size / 2 < i.natAbs) = true := by
      simp only [Bool.or_eq_true, beq_iff_eq, decide_eq_true_eq]
      omega
    have hvalue : -(i.natAbs : Int) = i := by omega
    rw [htext, number?_minus, unsigned?_toDigits, integerOf, digitsValue_toDigits, if_pos rfl,
      if_neg hbound, hvalue]
  · have htext : (Decimal.integerText i).toList = Nat.toDigits 10 i.natAbs := by
      rw [Decimal.integerText, if_neg hneg, Decimal.digitText, String.toList_ofList]
    have hpositive : ¬ false = true := Bool.false_ne_true
    have hbound : i.natAbs ≤ Decimal.significandMax := by omega
    have hvalue : (i.natAbs : Int) = i := by omega
    rw [htext, number?_of_ne_minus (toDigits_ne_minus _), unsigned?_toDigits, integerOf,
      digitsValue_toDigits, if_neg hpositive, if_pos hbound, hvalue]

/-- An integer of 64 bits is read back. -/
theorem Number.readsBack_int64 (i : Int64) : (Number.int i.toInt).ReadsBack := by
  have hlow : -2 ^ 63 ≤ i.toInt := Int64.le_toInt i
  have hhigh : i.toInt < 2 ^ 63 := Int64.toInt_lt i
  have hsize : Int64.size / 2 = 2 ^ 63 := rfl
  have hmax : (2 : Int) ^ 63 ≤ (Decimal.significandMax : Int) := by decide
  exact readsBack_int (by omega) (by omega)

/-! ## 2. The characters of numbers -/

/-- The characters that a number is written with. -/
def isNumberChar (c : Char) : Bool :=
  c.isDigit || c == '-' || c == '+' || c == '.' || c == 'e' || c == 'E'

theorem isNumberChar_of_all {cs : List Char} (h : cs.all Char.isDigit = true) :
    ∀ c ∈ cs, isNumberChar c = true := by
  intro c hc
  have hdigit : c.isDigit = true := List.all_eq_true.mp h c hc
  simp [isNumberChar, hdigit]

theorem isNumberChar_of_span {cs : List Char}
    (h : ∀ c ∈ (spanDigits cs).2, isNumberChar c = true) : ∀ c ∈ cs, isNumberChar c = true := by
  have hsplit : (spanDigits cs).1 ++ (spanDigits cs).2 = cs := List.takeWhile_append_dropWhile
  rw [← hsplit]
  refine List.forall_mem_append.mpr ⟨isNumberChar_of_all ?_, h⟩
  exact List.all_takeWhile

/-- The characters of an exponent: a mark, a sign and digits. -/
theorem isNumberChar_of_exponent? {cs : List Char} {exponent : Int}
    (h : exponent? cs = some exponent) : ∀ c ∈ cs, isNumberChar c = true := by
  cases cs with
  | nil => exact nofun
  | cons mark cs =>
    simp only [exponent?] at h
    split at h
    · cases h
    · rename_i hmark
      have hmark : isNumberChar mark = true := by
        by_cases he : mark = 'e'
        · rw [he]
          rfl
        · have hE : mark = 'E' := by simpa [he] using hmark
          rw [hE]
          rfl
      -- in each of the three cases what follows the sign is a list of digits
      have hdigits : ∀ {ds : List Char} {x : Int},
          (if ds.isEmpty || !ds.all Char.isDigit then none else some x) = some exponent →
            ∀ c ∈ ds, isNumberChar c = true := by
        intro ds x hsome
        obtain ⟨hds, -⟩ := Option.ite_none_left_eq_some.mp hsome
        have hall : ds.all Char.isDigit = true := by
          cases hds' : ds.all Char.isDigit with
          | true => rfl
          | false => exact absurd (by rw [hds']; exact Bool.or_true _) hds
        exact isNumberChar_of_all hall
      refine List.forall_mem_cons.mpr ⟨hmark, ?_⟩
      split at h
      · exact List.forall_mem_cons.mpr ⟨rfl, hdigits h⟩
      · exact List.forall_mem_cons.mpr ⟨rfl, hdigits h⟩
      · exact hdigits h

theorem isNumberChar_of_fraction? {cs digits rest : List Char}
    (h : fraction? cs = some (digits, rest)) (hrest : ∀ c ∈ rest, isNumberChar c = true) :
    ∀ c ∈ cs, isNumberChar c = true := by
  unfold fraction? at h
  split at h
  · obtain ⟨-, h⟩ := Option.ite_none_left_eq_some.mp h
    obtain ⟨rfl, rfl⟩ := Prod.mk.inj (Option.some.inj h)
    exact List.forall_mem_cons.mpr ⟨rfl, isNumberChar_of_span hrest⟩
  · cases h
    exact hrest

theorem isNumberChar_of_unsigned? {negative : Bool} {cs : List Char} {n : Number}
    (h : unsigned? negative cs = some n) : ∀ c ∈ cs, isNumberChar c = true := by
  refine isNumberChar_of_span ?_
  unfold unsigned? at h
  split at h
  · cases h
  · split at h
    · rename_i hempty
      rw [List.isEmpty_iff.mp hempty]
      exact nofun
    · obtain ⟨⟨digits, rest⟩, hfraction, h⟩ := Option.bind_eq_some_iff.mp h
      obtain ⟨exponent, hexponent, -⟩ := Option.bind_eq_some_iff.mp h
      exact isNumberChar_of_fraction? hfraction (isNumberChar_of_exponent? hexponent)

/-- **A number is written with the characters of numbers.** -/
theorem isNumberChar_of_number? {cs : List Char} {n : Number} (h : number? cs = some n) :
    ∀ c ∈ cs, isNumberChar c = true := by
  by_cases hminus : ∃ rest, cs = '-' :: rest
  · obtain ⟨rest, rfl⟩ := hminus
    exact List.forall_mem_cons.mpr ⟨rfl, isNumberChar_of_unsigned? ((number?_minus rest).symm.trans h)⟩
  · have hne : ∀ rest, cs ≠ '-' :: rest := fun rest heq => hminus ⟨rest, heq⟩
    exact isNumberChar_of_unsigned? ((number?_of_ne_minus hne).symm.trans h)

theorem mark?_eq_none_of_isNumberChar {c : Char} (h : isNumberChar c = true) : mark? c = none := by
  unfold mark?
  split <;> first | rfl | exact absurd h (by decide)

/-- **No character of a number ends a bare word.** -/
theorem endsBare_of_isNumberChar {c : Char} (h : isNumberChar c = true) : endsBare c = false := by
  have hmark : (mark? c).isSome = false := by rw [mark?_eq_none_of_isNumberChar h]; rfl
  have hne : ∀ d, isNumberChar d = false → (c == d) = false := by
    intro d hd
    exact beq_eq_false_iff_ne.mpr fun heq => by rw [heq, hd] at h; cases h
  rw [endsBare, isBlank, hmark, hne ' ' rfl, hne '\t' rfl, hne '\n' rfl, hne '\r' rfl, hne '"' rfl]
  rfl

/-! ## 3. Marks and bare words -/

/-- **A mark is one token.** -/
theorem scan_mark {c : Char} {token : Token} (h : mark? c = some token) (found : List Token)
    (cs : List Char) : scan .between found (c :: cs) = scan .between (token :: found) cs := by
  unfold mark? at h
  split at h
  iterate 6
    · cases h
      rfl
  · cases h

/-- Whether a bare word ends before a text: at its first character, or because nothing follows. -/
def stopsBare (rest : List Char) : Bool := (rest.head?.map endsBare).getD true

theorem scan_bare_of_prefix {token : Token} {found : List Token} {rest : List Char}
    (hrest : stopsBare rest = true) {word : List Char} (hword : word ≠ [])
    (hchars : ∀ c ∈ word, endsBare c = false) :
    ∀ {read : List Char}, bare? (read.reverse ++ word) = some token →
      scan (.bare read) found (word ++ rest) = scan .between (token :: found) rest := by
  induction word with
  | nil => exact absurd rfl hword
  | cons c cs ih =>
    intro read hbare
    have hread : (c :: read).reverse ++ cs = read.reverse ++ c :: cs := by simp
    cases cs with
    | nil =>
      have hstop : (rest.head?.map endsBare).getD true = true := hrest
      rw [← hread, List.append_nil] at hbare
      rw [List.cons_append, List.nil_append, scan, if_pos hstop, hbare]
    | cons d cs =>
      have hd : endsBare d = false := hchars d (List.mem_cons_of_mem _ List.mem_cons_self)
      have hgo : ¬ ((d :: cs ++ rest).head?.map endsBare).getD true = true := by simp [hd]
      rw [List.cons_append, scan, if_neg hgo]
      exact ih (List.cons_ne_nil _ _) (fun x hx => hchars x (List.mem_cons_of_mem _ hx))
        (by rw [hread]; exact hbare)

theorem scan_between_of_not_endsBare {c : Char} (h : endsBare c = false) (found : List Token)
    (cs : List Char) : scan .between found (c :: cs) = scan (.bare []) found (c :: cs) := by
  simp only [endsBare, Bool.or_eq_false_iff] at h
  obtain ⟨⟨hblank, hquote⟩, hmark⟩ := h
  have hmark : mark? c = none := Option.not_isSome_iff_eq_none.mp (by rw [hmark]; exact nofun)
  simp only [scan, hblank, hquote, hmark]
  rfl

/-- **A bare word is one token** if it stops where it is written up to. -/
theorem scan_bare {word rest : List Char} {token : Token} (hword : word ≠ [])
    (hchars : ∀ c ∈ word, endsBare c = false) (hbare : bare? word = some token)
    (hrest : stopsBare rest = true) (found : List Token) :
    scan .between found (word ++ rest) = scan .between (token :: found) rest := by
  have hread : bare? (List.reverse [] ++ word) = some token := hbare
  rw [← scan_bare_of_prefix hrest hword hchars hread]
  cases word with
  | nil => exact absurd rfl hword
  | cons c cs =>
    rw [List.cons_append]
    exact scan_between_of_not_endsBare (hchars c List.mem_cons_self) found (cs ++ rest)

/-- No keyword is a number. -/
theorem bare?_of_number? {word : List Char} {n : Number} (h : number? word = some n) :
    bare? word = some (.number n) := by
  have hkeyword : ∀ s : String, number? s.toList = none → String.ofList word ≠ s := by
    rintro _ hnone rfl
    rw [String.toList_ofList, h] at hnone
    cases hnone
  unfold bare?
  split
  · rename_i heq
    exact absurd heq (hkeyword _ rfl)
  · rename_i heq
    exact absurd heq (hkeyword _ rfl)
  · rename_i heq
    exact absurd heq (hkeyword _ rfl)
  · rw [h]
    rfl

/-- **A number that is read back is one token.** -/
theorem scan_number {n : Number} (h : n.ReadsBack) {rest : List Char} (hrest : stopsBare rest = true)
    (found : List Token) :
    scan .between found (n.text.toList ++ rest) = scan .between (.number n :: found) rest := by
  have hword : n.text.toList ≠ [] := by
    intro hnil
    rw [Number.ReadsBack, hnil] at h
    cases h
  refine scan_bare hword (fun c hc => ?_) (bare?_of_number? h) hrest found
  exact endsBare_of_isNumberChar (isNumberChar_of_number? h c hc)

/-! ## 4. Strings -/

theorem hex4?_hex2 {n : Nat} (h : n < 0x20) :
    hex4? '0' '0' (Nat.digitChar (n / 16)) (Nat.digitChar (n % 16)) = some n := by
  have hall : ∀ n < 0x20, hex4? '0' '0' (Nat.digitChar (n / 16)) (Nat.digitChar (n % 16)) = some n := by
    decide
  exact hall n h

/-- **A character inside quotes is read as that character.** -/
theorem scan_quoteChar (c : Char) (read : List Char) (found : List Token) (cs : List Char) :
    scan (.string read) found ((quoteChar c).toList ++ cs) = scan (.string (c :: read)) found cs := by
  unfold quoteChar
  split
  iterate 7 rfl
  split
  · rename_i hcontrol
    have htext : ("\\u00" ++ hex2 c.toNat).toList ++ cs
        = '\\' :: 'u' :: '0' :: '0' :: Nat.digitChar (c.toNat / 16) :: Nat.digitChar (c.toNat % 16)
          :: cs := by
      simp [hex2]
    rw [htext, scan, hex4?_hex2 hcontrol]
    have hhigh : isHighHalf c.toNat = false := by simp [isHighHalf]; omega
    have hlow : isLowHalf c.toNat = false := by simp [isLowHalf]; omega
    simp [hhigh, hlow, Char.ofNat_toNat]
  · rename_i hquote hslash _ _ _ _ _ hplain
    have hguard : ¬ (c == '\\' || c.toNat < 0x20) = true := by simp [hplain]; exact hslash
    have htext : c.toString.toList ++ cs = c :: cs := by simp
    rw [htext, scan, if_neg hguard]
    · exact hquote
    · rintro _ _ _ _ _ rfl
      exact absurd rfl hslash
    · exact fun _ _ heq => absurd heq hslash

theorem scan_quoteChars (s : List Char) (read : List Char) (found : List Token) (rest : List Char) :
    scan (.string read) found ((String.join (s.map quoteChar)).toList ++ '"' :: rest)
      = scan .between (.string (String.ofList (read.reverse ++ s)) :: found) rest := by
  induction s generalizing read with
  | nil => simp [scan]
  | cons c s ih =>
    have hjoin : (String.join ((c :: s).map quoteChar)).toList
        = (quoteChar c).toList ++ (String.join (s.map quoteChar)).toList := by
      simp
    rw [hjoin, List.append_assoc, scan_quoteChar, ih]
    simp

/-- **A string in quotes is one token**, whatever stands in it and after it. -/
theorem scan_quote (s : String) (found : List Token) (rest : List Char) :
    scan .between found ((quote s).toList ++ rest) = scan .between (.string s :: found) rest := by
  have hquote : (quote s).toList ++ rest
      = '"' :: ((String.join (s.toList.map quoteChar)).toList ++ '"' :: rest) := by
    simp [quote]
  have hopen : ∀ cs, scan .between found ('"' :: cs) = scan (.string []) found cs := fun _ => rfl
  rw [hquote, hopen, scan_quoteChars]
  simp

end ChainQuery.Json
