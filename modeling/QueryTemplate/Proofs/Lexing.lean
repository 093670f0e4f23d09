import QueryTemplate.Filter.Token
import QueryTemplate.Proofs.Except
import Mathlib.Data.List.TakeWhile

/-!
# Cutting written text

What the lexer makes of text that was put together from chunks. A word or a number reaches as far as
it can, so a chunk that ends in one is only cut as it was meant to be if the text after it starts with
a character that no word and no number goes on with (`Delimited`). A chunk that ends in a blank or in
a parenthesis does not care what stands after it.

* **`Scans`**, **`Opens`**: chunks of the two kinds, with the tokens they are cut into.
* **`Scans.separate`**: two chunks with a separator between them are cut one after the other.
* **`scans_word`**, **`scans_integer`**, **`scans_text`**: single tokens, for every name, every 64-bit
  integer and every string.
-/

namespace QueryTemplate.Filter

open QueryTemplate.Number

/-! ## Chunks -/

/-- `Cuts cs ts`: the lexer cuts the text `cs` into the tokens `ts`. -/
def Cuts (cs : List Char) (ts : List Token) : Prop :=
  ∃ lexemes, lex cs = .ok lexemes ∧ lexemes.map Lexeme.token = ts

theorem cuts_nil : Cuts [] [] :=
  ⟨[], by rw [lex], rfl⟩

theorem Cuts.blank {c : Char} {cs : List Char} {ts : List Token} (hc : Text.isBlank c = true)
    (h : Cuts cs ts) : Cuts (c :: cs) ts := by
  obtain ⟨lexemes, hlex, hts⟩ := h
  exact ⟨lexemes, by rw [lex, if_pos hc, hlex], hts⟩

theorem Cuts.token {c : Char} {cs rest : List Char} {t : Token} {ts : List Token}
    (hc : Text.isBlank c = false) (ht : readToken c cs = .ok (t, rest)) (h : Cuts rest ts) :
    Cuts (c :: cs) (t :: ts) := by
  obtain ⟨lexemes, hlex, rfl⟩ := h
  refine ⟨⟨t, c :: cs⟩ :: lexemes, ?_, rfl⟩
  rw [lex_cons_of_not_blank hc, ht]
  dsimp only
  rw [hlex]
  rfl

/-- The characters that written text goes on with after an operand. -/
def isDelimiter (c : Char) : Bool :=
  c = ' ' || c = ')' || c = ','

/-- Text that nothing in front of it runs into: it is empty or starts with a delimiter. -/
def Delimited : List Char → Prop
  | [] => True
  | c :: _ => isDelimiter c = true

/-- `Scans p ts`: in front of delimited text, the chunk `p` is cut into the tokens `ts`. -/
def Scans (p : List Char) (ts : List Token) : Prop :=
  ∀ rest us, Delimited rest → Cuts rest us → Cuts (p ++ rest) (ts ++ us)

/-- `Opens p ts`: in front of any text, the chunk `p` is cut into the tokens `ts`. -/
def Opens (p : List Char) (ts : List Token) : Prop :=
  ∀ rest us, Cuts rest us → Cuts (p ++ rest) (ts ++ us)

/-- A chunk that stands between two others and keeps them apart. -/
structure Separates (p : List Char) (ts : List Token) : Prop where
  delimited : ∀ rest, Delimited (p ++ rest)
  opens : Opens p ts

theorem scans_nil : Scans [] [] :=
  fun _ _ _ h => h

theorem Opens.append {p q : List Char} {ts us : List Token} (hp : Opens p ts) (hq : Scans q us) :
    Scans (p ++ q) (ts ++ us) := by
  intro rest vs hrest hcut
  rw [List.append_assoc, List.append_assoc]
  exact hp _ _ (hq rest vs hrest hcut)

theorem Scans.separate {p q r : List Char} {ts us vs : List Token} (hp : Scans p ts)
    (hq : Separates q us) (hr : Scans r vs) : Scans (p ++ (q ++ r)) (ts ++ (us ++ vs)) := by
  intro rest ws hrest hcut
  have hqr : Cuts (q ++ (r ++ rest)) (us ++ (vs ++ ws)) := hq.opens _ _ (hr rest ws hrest hcut)
  rw [List.append_assoc, List.append_assoc, List.append_assoc, List.append_assoc]
  exact hp _ _ (hq.delimited _) hqr

theorem Scans.cuts {p : List Char} {ts : List Token} (h : Scans p ts) : Cuts p ts := by
  have := h [] [] trivial cuts_nil
  rwa [List.append_nil, List.append_nil] at this

theorem span_delimited {p : Char → Bool} (hp : ∀ c, isDelimiter c = true → p c = false)
    {rest : List Char} (h : Delimited rest) :
    rest.takeWhile p = [] ∧ rest.dropWhile p = rest := by
  cases rest with
  | nil => exact ⟨rfl, rfl⟩
  | cons c rest =>
    have hc : ¬ p c = true := by
      rw [hp c h]
      decide
    exact ⟨List.takeWhile_cons_of_neg hc, List.dropWhile_cons_of_neg hc⟩

theorem span_append {p : Char → Bool} (hp : ∀ c, isDelimiter c = true → p c = false)
    {cs rest : List Char} (hcs : ∀ c ∈ cs, p c = true) (h : Delimited rest) :
    (cs ++ rest).takeWhile p = cs ∧ (cs ++ rest).dropWhile p = rest := by
  obtain ⟨htake, hdrop⟩ := span_delimited hp h
  rw [List.takeWhile_append_of_pos hcs, List.dropWhile_append_of_pos hcs, htake, hdrop,
    List.append_nil]
  exact ⟨rfl, rfl⟩

theorem eq_of_isDelimiter {c : Char} (h : isDelimiter c = true) : c = ' ' ∨ c = ')' ∨ c = ',' := by
  simpa [isDelimiter, or_assoc] using h

/-! ## First characters -/

/-- The characters that alone decide what is read at them. -/
def signs : List Char :=
  ['(', ')', ',', '=', '!', '<', '>', '\'', ':', '-']

theorem not_mem_signs {p : Char → Bool} (hp : signs.all (fun c => !p c) = true) {d : Char} (hd : p d = true) :
    d ∉ signs := by
  intro hmem
  have hnot := List.all_eq_true.1 hp d hmem
  rw [hd] at hnot
  cases hnot

/-- At any other character there is a number or a word, or nothing that could be read. -/
theorem readToken_of_not_mem_signs {d : Char} (h : d ∉ signs) (cs : List Char) :
    readToken d cs =
      if d.isDigit then numberToken (spanNumber (d :: cs)).1 (spanNumber (d :: cs)).2
      else if Text.isAlphabetic d || d = '_' then
        .ok (.word (String.ofList (d :: cs.takeWhile isWordChar)), cs.dropWhile isWordChar)
      else .error (.unexpectedCharacter d) := by
  simp only [signs, List.mem_cons, List.not_mem_nil, or_false, not_or] at h
  obtain ⟨hopening, hclosing, hcomma, heq, hbang, hlt, hgt, hquote, hcolon, hminus⟩ := h
  unfold readToken
  rw [if_neg hopening, if_neg hclosing, if_neg hcomma, if_neg heq, if_neg hbang, if_neg hlt, if_neg hgt,
    if_neg hquote, if_neg hcolon, if_neg hminus]

/-! ## Words -/

theorem isWordChar_of_isDelimiter (c : Char) (h : isDelimiter c = true) : isWordChar c = false := by
  rcases eq_of_isDelimiter h with rfl | rfl | rfl <;> rfl

/-- Characters that words start with, said by what the lexer does at one of them. -/
def StartsWord (c : Char) : Prop :=
  Text.isBlank c = false ∧ ∀ cs, readToken c cs
    = .ok (.word (String.ofList (c :: cs.takeWhile isWordChar)), cs.dropWhile isWordChar)

/-- Only its first character decides that a token is a word. -/
theorem startsWord_of_readToken {c : Char} {cs rest : List Char} {w : String}
    (hc : Text.isBlank c = false) (h : readToken c cs = .ok (.word w, rest)) : StartsWord c := by
  refine ⟨hc, fun ds => ?_⟩
  revert h
  fun_cases readToken c cs <;> intro h
  case case16 digits rest' _ =>
    unfold numberToken at h
    split at h <;> cases h
  case case17 digits rest' _ =>
    unfold numberToken at h
    split at h <;> cases h
  case case18 =>
    -- all tests before the last one look at the first character only
    unfold readToken
    simp only [*, if_true, if_false, Bool.false_eq_true]
  all_goals cases h

theorem scans_word {c : Char} {cs : List Char} (hc : StartsWord c)
    (hcs : cs.all isWordChar = true) : Scans (c :: cs) [.word (String.ofList (c :: cs))] := by
  intro rest us hrest hcut
  obtain ⟨htake, hdrop⟩ := span_append isWordChar_of_isDelimiter (List.all_eq_true.1 hcs) hrest
  have htoken := hc.2 (cs ++ rest)
  rw [htake, hdrop] at htoken
  exact .token hc.1 htoken hcut

/-- A name that the lexer reads as one word, which is none of the nine keywords. -/
structure IsName (name : String) : Prop where
  lexed : lex name.toList = .ok [⟨.word name, name.toList⟩]
  not_keyword : Keyword.ofWord? name = none

theorem start_suffix_of_lex {cs : List Char} {lexemes : List Lexeme} (h : lex cs = .ok lexemes)
    {l : Lexeme} (hl : l ∈ lexemes) : l.start <:+ cs := by
  fun_induction lex cs generalizing lexemes with
  | case1 =>
    cases h
    cases hl
  | case2 c cs _ ih => exact (ih h hl).trans (List.suffix_cons c cs)
  | case3 => cases h
  | case4 c cs _ token rest hread ih =>
    obtain ⟨later, hlater, rfl⟩ := Except.map_eq_ok_iff.1 h
    rcases List.mem_cons.1 hl with rfl | hl
    · exact List.suffix_rfl
    · exact ((ih hlater hl).trans (isSuffix_of_readToken hread)).trans (List.suffix_cons c cs)

/-- A name is a character that words start with and word characters after it. -/
theorem IsName.chars {name : String} (h : IsName name) :
    ∃ c cs, name.toList = c :: cs ∧ StartsWord c ∧ ∀ d ∈ cs, isWordChar d = true := by
  have hlex := h.lexed
  cases hname : name.toList with
  | nil =>
    rw [hname, lex] at hlex
    cases hlex
  | cons c cs =>
    rw [hname] at hlex
    have hblank : Text.isBlank c = false := by
      -- after a blank the token would start further right than it says
      by_contra hc
      rw [lex, if_pos (by simpa using hc)] at hlex
      have hsuffix := start_suffix_of_lex hlex List.mem_cons_self
      have hlength : cs.length + 1 ≤ cs.length := hsuffix.length_le
      omega
    rw [lex_cons_of_not_blank hblank] at hlex
    split at hlex
    · cases hlex
    · rename_i token rest hread
      obtain ⟨later, _, he⟩ := Except.map_eq_ok_iff.1 hlex
      cases he
      have hstart := startsWord_of_readToken hblank hread
      have hword := hread
      rw [hstart.2 cs] at hword
      refine ⟨c, cs, rfl, hstart, ?_⟩
      -- the word is the whole text, so its characters are all that the lexer took
      have hall : name.toList = c :: cs.takeWhile isWordChar := by
        have := (Prod.mk.inj (Except.ok.inj hword)).1
        rw [← Token.word.inj this, String.toList_ofList]
      rw [hname] at hall
      exact List.takeWhile_eq_self_iff.1 (List.cons.inj hall).2.symm

theorem scans_name {name : String} (h : IsName name) : Scans name.toList [.word name] := by
  obtain ⟨c, cs, hname, hc, hcs⟩ := h.chars
  have := scans_word hc (List.all_eq_true.2 hcs)
  rwa [← hname, String.ofList_toList] at this

/-! ## Numbers -/

theorem isDigit_of_isDelimiter (c : Char) (h : isDelimiter c = true) : c.isDigit = false := by
  rcases eq_of_isDelimiter h with rfl | rfl | rfl <;> rfl

theorem spanNumber_append {ds rest : List Char} (hds : ∀ d ∈ ds, d.isDigit = true)
    (hrest : Delimited rest) : spanNumber (ds ++ rest) = (ds, rest) := by
  obtain ⟨htake, hdrop⟩ := span_append isDigit_of_isDelimiter hds hrest
  unfold spanNumber
  rw [htake, hdrop]
  simp only
  split
  · cases hrest
  · rfl

theorem isBlank_of_isDigit {d : Char} (h : d.isDigit = true) : Text.isBlank d = false := by
  have hrange : 48 ≤ d.toNat ∧ d.toNat ≤ 57 := by
    simp only [Char.isDigit, Bool.and_eq_true, decide_eq_true_eq, UInt32.le_iff_toNat_le] at h
    exact h
  have hspace : d ≠ ' ' := by
    rintro rfl
    cases h
  have hcontrol : ¬ (9 ≤ d.toNat ∧ d.toNat ≤ 13) := by omega
  -- all other blanks come after the digits
  have hranges : Text.inRanges Text.blankRanges d.toNat = false := by
    apply List.any_eq_false.2
    intro r hr
    have hlow : ∀ r ∈ Text.blankRanges, 57 < r.1 := by decide
    have hr' := hlow r hr
    rw [← Bool.decide_and, decide_eq_true_eq]
    omega
  unfold Text.isBlank
  rw [hranges, decide_eq_false hspace, ← Bool.decide_and, decide_eq_false hcontrol]
  rfl

theorem readToken_of_isDigit {d : Char} (h : d.isDigit = true) (cs : List Char) :
    readToken d cs = numberToken (spanNumber (d :: cs)).1 (spanNumber (d :: cs)).2 := by
  rw [readToken_of_not_mem_signs (not_mem_signs (by decide) h), if_pos h]

theorem scans_digits {ds : List Char} {v : Value} (hne : ds ≠ [])
    (hds : ∀ d ∈ ds, d.isDigit = true) (hv : numberValue? ds = some v) :
    Scans ds [.number v] := by
  intro rest us hrest hcut
  obtain ⟨d, ds, rfl⟩ := List.exists_cons_of_ne_nil hne
  have hd : d.isDigit = true := hds d List.mem_cons_self
  have hspan : spanNumber (d :: (ds ++ rest)) = (d :: ds, rest) := spanNumber_append hds hrest
  refine .token (isBlank_of_isDigit hd) ?_ hcut
  show readToken d (ds ++ rest) = _
  rw [readToken_of_isDigit hd, hspan, numberToken, hv]

theorem scans_minus_digits {ds : List Char} {v : Value} (hds : ∀ d ∈ ds, d.isDigit = true)
    (hv : numberValue? ('-' :: ds) = some v) : Scans ('-' :: ds) [.number v] := by
  intro rest us hrest hcut
  refine .token rfl ?_ hcut
  show numberToken ('-' :: (spanNumber (ds ++ rest)).1) (spanNumber (ds ++ rest)).2 = _
  rw [spanNumber_append hds hrest, numberToken, hv]

theorem toList_toString_int (i : Int) :
    (toString i).toList
      = if 0 ≤ i then Nat.toDigits 10 i.toNat else '-' :: Nat.toDigits 10 (-i).toNat := by
  rw [Int.toString_eq_repr, Int.repr_eq_if]
  split
  · rw [Nat.toList_repr]
  · rw [String.toList_append, Nat.toList_repr]
    rfl

theorem isDigit_of_mem_toDigits {n : Nat} {d : Char} (h : d ∈ Nat.toDigits 10 n) :
    d.isDigit = true :=
  Nat.isDigit_of_mem_toDigits (by decide) (by decide) h

theorem readNat?_toDigits (n : Nat) : readNat? (Nat.toDigits 10 n) = some n := by
  have hne : (Nat.toDigits 10 n).isEmpty = false := List.isEmpty_eq_false_iff.2 Nat.toDigits_ne_nil
  have hall : (Nat.toDigits 10 n).all Char.isDigit = true :=
    List.all_eq_true.2 fun _ => isDigit_of_mem_toDigits
  rw [readNat?, hne, hall]
  exact congrArg some (Nat.ofDigitChars_toDigits (by decide) (by decide))

theorem splitSign_toDigits (n : Nat) : splitSign (Nat.toDigits 10 n) = (false, Nat.toDigits 10 n) := by
  unfold splitSign
  split
  · rename_i h
    exact absurd (isDigit_of_mem_toDigits (h ▸ List.mem_cons_self)) (by decide)
  · rename_i h
    exact absurd (isDigit_of_mem_toDigits (h ▸ List.mem_cons_self)) (by decide)
  · rfl

theorem readInt64?_toString (n : Int64) : readInt64? (toString n.toInt).toList = some n := by
  have hrange : Int64.minValue.toInt ≤ n.toInt ∧ n.toInt ≤ Int64.maxValue.toInt :=
    ⟨n.minValue_le_toInt, n.toInt_le⟩
  rw [toList_toString_int]
  split
  · rename_i h
    have hvalue : ((n.toInt.toNat : Nat) : Int) = n.toInt := Int.toNat_of_nonneg h
    simp only [readInt64?, splitSign_toDigits, readNat?_toDigits, hvalue, Bool.false_eq_true,
      if_false, if_pos hrange, Int64.ofInt_toInt]
  · rename_i h
    have hvalue : -(((-n.toInt).toNat : Nat) : Int) = n.toInt := by omega
    simp only [readInt64?, splitSign, readNat?_toDigits, hvalue, if_true, if_pos hrange,
      Int64.ofInt_toInt]

theorem scans_integer (n : Int64) : Scans (toString n.toInt).toList [.number (.integer n)] := by
  have hread := readInt64?_toString n
  have hpoint : ∀ k : Nat, '.' ∉ Nat.toDigits 10 k :=
    fun k h => absurd (isDigit_of_mem_toDigits h) (by decide)
  rw [toList_toString_int] at hread ⊢
  split
  · rename_i h
    rw [if_pos h] at hread
    refine scans_digits Nat.toDigits_ne_nil (fun _ => isDigit_of_mem_toDigits) ?_
    rw [numberValue?, if_neg (by simpa using hpoint _), hread]
    rfl
  · -- the sign is not among the digits, but in front of them
    rename_i h
    rw [if_neg h] at hread
    refine scans_minus_digits (fun _ => isDigit_of_mem_toDigits) ?_
    rw [numberValue?, if_neg (by simpa using hpoint _), hread]
    rfl

/-! ## Quoted text -/

theorem readText_doubleQuotes (s : List Char) {rest : List Char} (hrest : rest.head? ≠ some '\'') :
    readText (Value.doubleQuotes s ++ '\'' :: rest) = some (s, rest) := by
  induction s with
  | nil =>
    cases rest with
    | nil => rfl
    | cons c rest =>
      -- the closing quote is not the first of two
      have hc : c ≠ '\'' := fun h => hrest (by rw [h]; rfl)
      show readText ('\'' :: c :: rest) = _
      unfold readText
      simp [hc]
  | cons c s ih =>
    unfold Value.doubleQuotes
    split
    · -- a quote of the text is written as two, and read from two
      rename_i hc
      show readText ('\'' :: '\'' :: (Value.doubleQuotes s ++ '\'' :: rest)) = _
      rw [readText, ih, hc]
      rfl
    · rename_i hc
      show readText (c :: (Value.doubleQuotes s ++ '\'' :: rest)) = _
      rw [readText, if_neg hc, ih]
      · rfl
      · rintro _ rfl
        exact absurd rfl hc

theorem readToken_quote {cs body rest : List Char} (h : readText cs = some (body, rest)) :
    readToken '\'' cs = .ok (.text (String.ofList body), rest) := by
  simp [readToken, h]

/-- Between its quotes, text is read back whatever characters it has. -/
theorem scans_text (s : String) :
    Scans ('\'' :: (Value.doubleQuotes s.toList ++ ['\''])) [.text s] := by
  intro rest us hrest hcut
  have hhead : rest.head? ≠ some '\'' := by
    cases rest with
    | nil => simp
    | cons c rest =>
      intro h
      rw [Option.some.inj h] at hrest
      cases hrest
  refine .token rfl ?_ hcut
  show readToken '\'' (Value.doubleQuotes s.toList ++ ['\''] ++ rest) = _
  rw [List.append_assoc, List.singleton_append,
    readToken_quote (readText_doubleQuotes s.toList hhead), String.ofList_toList]

end QueryTemplate.Filter
