import QueryTemplate.Proofs.Sql.Brackets
import QueryTemplate.Proofs.Sql.Lexing
import QueryTemplate.Sql.Reader

/-!
# Select lists

A select list is read as items with commas between them, each an expression, the word `AS` and an
identifier. As in a predicate, commas and `AS` count outside of brackets only, so tokens are one select
list at most (`SelectList.unique`).

An identifier in quotes denotes what is between them, so it is longer than what it denotes. A name that is
written without quotes is therefore read as itself only if it is a single word (`isBare_iff`), and a single
word is cut apart from whatever does not go on with it (`IsBare.lex_append`).
-/

namespace QueryTemplate.Sql

/-! ## Bare names -/

/-- A text that is a single word. -/
def IsBare (name : String) : Prop :=
  lex name.toList = some [.ofWord name.toList]

instance (name : String) : Decidable (IsBare name) :=
  inferInstanceAs (Decidable (_ = _))

/-- A quotation has two marks more than it has characters. -/
theorem length_of_readQuoted {quote : Char} {cs s rest : List Char}
    (h : readQuoted quote cs = some (s, rest)) : s.length + rest.length < cs.length := by
  fun_induction readQuoted quote cs generalizing s with
  | case1 => cases h
  | case2 c cs hc ih =>
    obtain ⟨⟨s', r⟩, hr, he⟩ := Option.map_eq_some_iff.1 h
    cases he
    have := ih hr
    simp only [List.length_cons]
    omega
  | case3 c hc =>
    cases h
    simp
  | case4 c hc rest' ih =>
    obtain ⟨⟨s', r⟩, hr, he⟩ := Option.map_eq_some_iff.1 h
    cases he
    have := ih hr
    simp only [List.length_cons]
    omega
  | case5 c hc d rest' hd =>
    cases h
    simp

theorem ident?_ofWord (word : List Char) : (Token.ofWord word).ident? = some ⟨String.ofList word, none⟩ :=
  rfl

/-- What is read of a word is its spelling. -/
theorem readWord_eq {start cs rest : List Char} {t : Token} {label : Ident}
    (h : readWord start cs = (t, rest)) (ht : t.ident? = some label) :
    t = .ofWord label.text.toList ∧ start ++ cs = label.text.toList ++ rest := by
  cases h
  cases ht
  rw [String.toList_ofList, List.append_assoc, List.takeWhile_append_dropWhile]
  exact ⟨rfl, rfl⟩

/-- The reader of a word that starts with a character. -/
def readWordFrom (c : Char) : List Char → Token × List Char :=
  if c = '@' then readAt else if c = '#' then readHash else readWord [c]

/-- **An identifier is a quotation or a word.** Whether it is a word depends on its first character, and on
the second only as far as the two might start a literal. -/
theorem cases_of_ident {c : Char} {cs rest : List Char} {t : Token} {label : Ident}
    (h : readToken c cs = some (t, rest)) (ht : t.ident? = some label) :
    label.quote = some c ∧ readQuoted c cs = some (label.text.toList, rest)
      ∨ isWordStart c = true ∧ startsMarked c cs = false
        ∧ ∀ ds, startsMarked c ds = false → readToken c ds = some (readWordFrom c ds) := by
  have hnone {p : Token × List Char} (hp : some p = some (t, rest)) (hident : p.1.ident? = none) :
      False := by
    cases hp
    rw [hident] at ht
    cases ht
  revert h
  -- of the tests in front of a word's, all but that for a literal look at the first character alone
  fun_cases readToken c cs <;> intro h
  case case1 hc =>
    obtain ⟨_, hr, he⟩ := Option.map_eq_some_iff.1 h
    cases he
    cases ht
    exact .inl ⟨by rw [hc], by rw [hr, String.toList_ofList]⟩
  case case2 =>
    obtain ⟨_, hr, he⟩ := Option.map_eq_some_iff.1 h
    cases he
    cases ht
    exact .inl ⟨rfl, by rw [hr, String.toList_ofList]⟩
  case case3 =>
    refine (hnone h ?_).elim
    fun_cases readNumber (c :: cs) <;> rfl
  case case4 hmarked =>
    obtain ⟨_, _, _, -, -, hread⟩ := readMarked_eq hmarked
    rw [← List.append_nil cs, hread] at h
    obtain ⟨_, _, he⟩ := Option.map_eq_some_iff.1 h
    cases he
    cases ht
  case case5 hc hquote hnumber hmarked hat =>
    refine .inr ⟨by rw [hat]; rfl, Bool.eq_false_iff.2 hmarked, fun ds hds => ?_⟩
    simp only [readToken, readWordFrom, if_neg hc, if_neg hquote, if_neg hnumber, hds, if_pos hat]
    rfl
  case case6 hc hquote hnumber hmarked hat hhash =>
    refine .inr ⟨by rw [hhash]; rfl, Bool.eq_false_iff.2 hmarked, fun ds hds => ?_⟩
    simp only [readToken, readWordFrom, if_neg hc, if_neg hquote, if_neg hnumber, hds, if_neg hat,
      if_pos hhash]
    rfl
  case case7 => cases h
  case case8 | case9 => exact (hnone h rfl).elim
  case case10 hc hquote hnumber hmarked hat hhash hdollar hplaceholder hword =>
    refine .inr ⟨hword, Bool.eq_false_iff.2 hmarked, fun ds hds => ?_⟩
    simp only [readToken, readWordFrom, if_neg hc, if_neg hquote, if_neg hnumber, hds, if_neg hat,
      if_neg hhash, if_neg hdollar, if_neg hplaceholder, if_pos hword]
    rfl
  case case11 =>
    refine (hnone h ?_).elim
    rcases readSymbol_cases c cs with ⟨s, hs⟩ | hs <;> rw [hs] <;> rfl

/-- A word is the text that it is read from. -/
theorem readWordFrom_eq {c : Char} {cs rest : List Char} {t : Token} {label : Ident}
    (h : readWordFrom c cs = (t, rest)) (ht : t.ident? = some label) :
    t = .ofWord label.text.toList ∧ c :: cs = label.text.toList ++ rest := by
  unfold readWordFrom at h
  split at h
  · rename_i hat
    subst hat
    revert h
    fun_cases readAt cs <;> intro h
    case case4 | case7 => exact readWord_eq h ht
    all_goals cases h; cases ht
  split at h
  · rename_i hhash
    subst hhash
    revert h
    fun_cases readHash cs <;> intro h
    case case4 => exact readWord_eq h ht
    all_goals cases h; cases ht
  · exact readWord_eq h ht

theorem ident_of_readToken {c : Char} {cs rest : List Char} {t : Token} {label : Ident}
    (h : readToken c cs = some (t, rest)) (ht : t.ident? = some label) :
    readQuoted c cs = some (label.text.toList, rest)
      ∨ t = .ofWord label.text.toList ∧ c :: cs = label.text.toList ++ rest := by
  rcases cases_of_ident h ht with hquoted | ⟨_, hunmarked, hword⟩
  · exact .inl hquoted.2
  · rw [hword cs hunmarked] at h
    exact .inr (readWordFrom_eq (Option.some.inj h) ht)

/-- What an identifier denotes is no longer than the text that it stands in. -/
theorem length_le_of_mem_lex {cs : List Char} {ts : List Token} (h : lex cs = some ts) {t : Token}
    (ht : t ∈ ts) {label : Ident} (hlabel : t.ident? = some label) :
    label.text.toList.length ≤ cs.length := by
  obtain ⟨c, ds, rest, hds, hread⟩ := exists_readToken_of_mem_lex h ht
  refine .trans ?_ hds.length_le
  rcases ident_of_readToken hread hlabel with hquoted | ⟨_, hword⟩
  · have hlength := length_of_readQuoted hquoted
    rw [List.length_cons]
    omega
  · rw [hword, List.length_append]
    omega

/-- A name that is read as an identifier for itself is read in one piece. -/
theorem readToken_of_denotes {name : String} {t : Token} {label : Ident}
    (h : lex name.toList = some [t]) (ht : t.ident? = some label) (hname : label.text = name) :
    ∃ c cs, name.toList = c :: cs ∧ Text.isBlank c = false ∧ readToken c cs = some (t, [])
      ∧ t = .ofWord (c :: cs) := by
  cases hcs : name.toList with
  | nil =>
    rw [hcs] at h
    cases h
  | cons c cs =>
    rw [hcs] at h
    have hlength : label.text.toList.length = cs.length + 1 := by rw [hname, hcs, List.length_cons]
    rcases cases_of_lex_cons h with ⟨rest, hrest, hlex⟩ | ⟨t', rest, us, hblank, hread, hlex, heq⟩
    · -- a blank or a comment in front leaves too little text for the name
      have hlabel := length_le_of_mem_lex hlex List.mem_cons_self ht
      have hrest := hrest.length_le
      omega
    cases heq
    rcases ident_of_readToken hread ht with hquoted | ⟨hword, hspelled⟩
    · -- and so do quotation marks
      have hquoted := length_of_readQuoted hquoted
      omega
    · rw [hname, hcs] at hword hspelled
      rw [List.self_eq_append_right.1 hspelled] at hread
      exact ⟨c, cs, rfl, hblank, hread, hword⟩

/-- **Only single words denote themselves.** -/
theorem isBare_iff {name : String} :
    IsBare name ↔ ∃ t label, lex name.toList = some [t] ∧ t.ident? = some label ∧ label.text = name := by
  constructor
  · intro h
    exact ⟨_, _, h, ident?_ofWord _, String.ofList_toList⟩
  · rintro ⟨t, label, hlex, ht, hname⟩
    obtain ⟨c, cs, hcs, -, -, rfl⟩ := readToken_of_denotes hlex ht hname
    rw [IsBare, hlex, hcs]

/-- Text that no word goes on with, and that makes no literal of a letter in front of it. -/
def Ends (rest : List Char) : Prop :=
  ∀ d, rest.head? = some d → isWordPart d = false ∧ d ∉ ['\'', '"', '&']

theorem ends_cons {d : Char} (h : isWordPart d = false ∧ d ∉ ['\'', '"', '&']) (rest : List Char) :
    Ends (d :: rest) := by
  rintro _ ⟨⟩
  exact h

theorem readWord_append {start cs rest : List Char} {t : Token} (h : readWord start cs = (t, []))
    (hrest : Ends rest) : readWord start (cs ++ rest) = (t, rest) := by
  obtain ⟨rfl, hdrop⟩ := Prod.mk.inj h
  have hparts : ∀ d ∈ cs, isWordPart d = true := List.dropWhile_eq_nil_iff.1 hdrop
  have htake : cs.takeWhile isWordPart = cs := List.takeWhile_eq_self_iff.2 hparts
  have hafter : rest.takeWhile isWordPart = [] ∧ rest.dropWhile isWordPart = rest := by
    cases rest with
    | nil => exact ⟨rfl, rfl⟩
    | cons d rest =>
      have hd : ¬ isWordPart d = true := Bool.eq_false_iff.1 (hrest d rfl).1
      exact ⟨List.takeWhile_cons_of_neg hd, List.dropWhile_cons_of_neg hd⟩
  rw [readWord, List.takeWhile_append_of_pos hparts, List.dropWhile_append_of_pos hparts, hafter.1,
    hafter.2, List.append_nil, htake]

theorem readAt_append_word {cs rest word : List Char} (h : readAt cs = (.ofWord word, []))
    (hrest : Ends rest) : readAt (cs ++ rest) = (.ofWord word, rest) := by
  revert h
  fun_cases readAt cs <;> intro h
  case case4 c cs hc =>
    simp only [List.cons_append, readAt, readWord_append h hrest]
  case case7 c cs hgt hquestion _ hat hend hc =>
    have hne : c ≠ '@' := by
      rintro rfl
      cases cs with
      | nil => exact hend rfl rfl
      | cons d cs => exact hat d cs rfl rfl
    simp [readAt, hne, hc, readWord_append h hrest]
  all_goals cases h

theorem readHash_append_word {cs rest word : List Char} (h : readHash cs = (.ofWord word, []))
    (hrest : Ends rest) : readHash (cs ++ rest) = (.ofWord word, rest) := by
  revert h
  fun_cases readHash cs <;> intro h
  case case4 c cs _ _ _ =>
    simp only [List.cons_append, readHash, readWord_append h hrest]
  all_goals cases h

theorem startsMarked_append_ends (c : Char) (cs : List Char) {rest : List Char} (h : Ends rest) :
    startsMarked c (cs ++ rest) = startsMarked c cs := by
  cases rest with
  | nil => rw [List.append_nil]
  | cons d rest =>
    have hd := (h d rfl).2
    rcases cs with _ | ⟨e, _ | ⟨e', cs⟩⟩ <;> simp_all [startsMarked]

theorem readWordFrom_append {c : Char} {cs rest word : List Char}
    (h : readWordFrom c cs = (.ofWord word, [])) (hrest : Ends rest) :
    readWordFrom c (cs ++ rest) = (.ofWord word, rest) := by
  unfold readWordFrom at h ⊢
  by_cases hat : c = '@'
  · rw [if_pos hat] at h ⊢
    exact readAt_append_word h hrest
  by_cases hhash : c = '#'
  · rw [if_neg hat, if_pos hhash] at h ⊢
    exact readHash_append_word h hrest
  · rw [if_neg hat, if_neg hhash] at h ⊢
    exact readWord_append h hrest

/-- **A bare name is cut apart from what does not go on with it.** -/
theorem IsBare.lex_append {name : String} (h : IsBare name) {rest : List Char} (hrest : Ends rest) :
    lex (name.toList ++ rest) = (lex rest).map (.ofWord name.toList :: ·) := by
  obtain ⟨c, cs, hcs, hblank, hread, -⟩ :=
    readToken_of_denotes h (ident?_ofWord _) String.ofList_toList
  rw [hcs] at hread ⊢
  rcases cases_of_ident hread (ident?_ofWord _) with ⟨-, hquoted⟩ | ⟨hstart, hunmarked, hword⟩
  · have hlength := length_of_readQuoted hquoted
    rw [String.toList_ofList, List.length_cons] at hlength
    omega
  have hsign : c ≠ '-' ∧ c ≠ '/' := by
    constructor <;> rintro rfl <;> cases hstart
  rw [hword cs hunmarked] at hread
  rw [List.cons_append, lex_cons, lexRound, if_neg (Bool.eq_false_iff.1 hblank),
    if_neg (fun h => hsign.1 h.1), if_neg (fun h => hsign.2 h.1),
    hword _ ((startsMarked_append_ends c cs hrest).trans hunmarked),
    readWordFrom_append (Option.some.inj hread) hrest]
  rfl

/-! ### Settled names -/

theorem ident?_settled (p : Place) (rest : List Token) (t : Token) : (t.settled p rest).ident? = t.ident? := by
  cases t with
  | word name keyword =>
    cases keyword with
    | none => rfl
    | some k => cases p <;> rfl
  | _ => rfl

theorem settled_name_ofWord (rest : List Token) (word : List Char) :
    (Token.ofWord word).settled .name rest = .word ⟨String.ofList word, none⟩ none := by
  rw [Token.ofWord]
  cases Keyword.ofCapitals? (Keyword.inCapitals (String.ofList word)) <;> rfl

theorem exists_of_settle_eq_singleton {p : Place} {us : List Token} {t : Token} (h : settle p us = [t]) :
    ∃ u, us = [u] ∧ u.settled p [] = t := by
  cases us with
  | nil => cases h
  | cons u us =>
    obtain ⟨hu, hus⟩ := List.cons.inj h
    cases us with
    | nil => exact ⟨u, rfl, hu⟩
    | cons u' us => cases hus

/-! ### Words -/

/-- The code points of blanks, and of signs and digits that tokens other than words start with. -/
def otherStarts : List Nat :=
  ['"', '$', '\'', '-', '.', '/', '?', '`', ' '].map Char.toNat ++ List.range' 9 5 ++ List.range' 48 10
    ++ [0x85, 0xa0, 0x1680, 0x2028, 0x2029, 0x202f, 0x205f, 0x3000] ++ List.range' 0x2000 11

theorem not_mem_otherStarts {c : Char} (h : isWordStart c = true) : c.toNat ∉ otherStarts := by
  have hall : ∀ n ∈ otherStarts, isWordStart (Char.ofNat n) = false := by decide +kernel
  intro hmem
  have hc := hall _ hmem
  rw [Char.ofNat_toNat, h] at hc
  cases hc

theorem mem_otherStarts_of_isBlank {c : Char} (h : Text.isBlank c = true) : c.toNat ∈ otherStarts := by
  simp only [Text.isBlank, Text.inRanges, Text.blankRanges, Bool.or_eq_true, Bool.and_eq_true,
    decide_eq_true_eq, List.any_cons, List.any_nil, Bool.or_false] at h
  simp only [otherStarts, List.mem_append, List.mem_range'_1, List.mem_cons, List.not_mem_nil, or_false]
  rcases h with (rfl | h) | h
  · exact .inl (.inl (.inl (.inl (by decide))))
  · omega
  · omega

theorem mem_otherStarts_of_isDigit {c : Char} (h : c.isDigit = true) : c.toNat ∈ otherStarts := by
  simp only [Char.isDigit, Bool.and_eq_true, decide_eq_true_eq, ge_iff_le, UInt32.le_iff_toNat_le] at h
  have hlow : 48 ≤ c.toNat := h.1
  have hhigh : c.toNat ≤ 57 := h.2
  simp only [otherStarts, List.mem_append, List.mem_range'_1]
  omega

/-- A letter or an underscore, and characters of words after it. -/
def IsPlainWord (word : List Char) : Prop :=
  ∃ c cs, word = c :: cs ∧ isWordStart c = true ∧ c ≠ '@' ∧ c ≠ '#' ∧ ∀ d ∈ cs, isWordPart d = true

theorem IsPlainWord.of_isPrefix {word front : List Char} (h : IsPlainWord word) (hfront : front <+: word)
    (hne : front ≠ []) : IsPlainWord front := by
  obtain ⟨c, cs, rfl, hstart, hat, hhash, hcs⟩ := h
  obtain ⟨d, ds, rfl⟩ := List.exists_cons_of_ne_nil hne
  obtain ⟨rfl, hds⟩ := List.cons_prefix_cons.1 hfront
  exact ⟨d, ds, rfl, hstart, hat, hhash, fun e he => hcs e (hds.subset he)⟩

theorem readToken_word {c : Char} {cs : List Char} (hstart : isWordStart c = true) (hat : c ≠ '@')
    (hhash : c ≠ '#') (hcs : ∀ d ∈ cs, isWordPart d = true) :
    readToken c cs = some (.ofWord (c :: cs), []) := by
  have hother := not_mem_otherStarts hstart
  have hne {d : Char} (hd : d.toNat ∈ otherStarts) : c ≠ d := by
    rintro rfl
    exact hother hd
  have hmarked : startsMarked c cs = false := by
    cases cs with
    | nil => rfl
    | cons d cs =>
      have hd := hcs d List.mem_cons_self
      have hquote : d ≠ '\'' ∧ d ≠ '"' ∧ d ≠ '&' := by
        refine ⟨?_, ?_, ?_⟩ <;> rintro rfl <;> cases hd
      simp [startsMarked, hquote]
  have hnumber : ¬ (c.isDigit = true ∨ c = '.') := by
    rintro (hdigit | hpoint)
    · exact hother (mem_otherStarts_of_isDigit hdigit)
    · exact hne (by decide) hpoint
  have hquoted : ¬ (c = '"' ∨ c = '`') := by
    rintro (hdouble | hback)
    · exact hne (by decide) hdouble
    · exact hne (by decide) hback
  have hspan : readWord [c] cs = (.ofWord (c :: cs), []) := by
    rw [readWord, List.takeWhile_eq_self_iff.2 hcs, List.dropWhile_eq_nil_iff.2 hcs]
    rfl
  simp only [readToken, if_neg (hne (d := '\'') (by decide)), if_neg hquoted, if_neg hnumber, hmarked,
    Bool.false_eq_true, if_false, if_neg hat, if_neg hhash, if_neg (hne (d := '$') (by decide)),
    if_neg (hne (d := '?') (by decide)), if_pos hstart, hspan]

theorem isBare_of_word {name : String} (h : IsPlainWord name.toList) : IsBare name := by
  obtain ⟨c, cs, hname, hstart, hat, hhash, hcs⟩ := h
  have hblank : ¬ Text.isBlank c = true := fun hblank =>
    not_mem_otherStarts hstart (mem_otherStarts_of_isBlank hblank)
  have hsign : c ≠ '-' ∧ c ≠ '/' := by
    constructor <;> rintro rfl <;> cases hstart
  rw [IsBare, hname, lex_cons, lexRound, if_neg hblank, if_neg (fun h => hsign.1 h.1),
    if_neg (fun h => hsign.2 h.1), readToken_word hstart hat hhash hcs]
  rfl

/-! ## Items -/

/-- A comma, or the word `AS`. -/
def Token.endsExpression : Token → Bool
  | .symbol .comma => true
  | .word _ (some .AS) => true
  | _ => false

/-- `IsItem ts e label`: the tokens `ts` are the expression `e`, the word `AS` and an identifier. -/
inductive IsItem : List Token → List Token → Ident → Prop where
  | mk {e : List Token} {name : Ident} {t : Token} {label : Ident} (hne : e ≠ [])
      (he : FreeOf Token.endsExpression e) (ht : t.ident? = some label) :
      IsItem (e ++ [.word name (some .AS), t]) e label

/-- `SelectList ts items`: the tokens `ts` are items with commas between them, each given as the tokens of
its expression and its alias. -/
inductive SelectList : List Token → List (List Token × Ident) → Prop where
  | one {ts e : List Token} {label : Ident} (h : IsItem ts e label) : SelectList ts [(e, label)]
  | cons {ts e us : List Token} {label : Ident} {items : List (List Token × Ident)}
      (h : IsItem ts e label) (hrest : SelectList us items) :
      SelectList (ts ++ .symbol .comma :: us) ((e, label) :: items)

theorem plain_as (name : Ident) : (Token.word name (some .AS)).isPlain = true :=
  rfl

/-- Where an item starts, and what is behind it, the tokens say. -/
theorem IsItem.unique {ts ts' e e' rest rest' : List Token} {label label' : Ident} (h : IsItem ts e label)
    (h' : IsItem ts' e' label') (heq : ts ++ rest = ts' ++ rest') :
    e = e' ∧ label = label' ∧ rest = rest' := by
  obtain ⟨hne, he, ht⟩ := h
  obtain ⟨hne', he', ht'⟩ := h'
  rw [List.append_assoc, List.append_assoc] at heq
  obtain ⟨rfl, -, hlabel⟩ := split_first he he' (plain_as _) (plain_as _) rfl rfl heq
  obtain ⟨rfl, hrest⟩ := List.cons_eq_cons.1 hlabel
  exact ⟨rfl, Option.some.inj (ht.symm.trans ht'), hrest⟩

theorem IsItem.rest_eq_nil {ts ts' e e' rest : List Token} {label label' : Ident} (h : IsItem ts e label)
    (h' : IsItem ts' e' label') (heq : ts' = ts ++ rest) : rest = [] :=
  have heq' : ts ++ rest = ts' ++ [] := by rw [List.append_nil, heq]
  (h.unique h' heq').2.2

/-- **Tokens are one select list at most.** -/
theorem SelectList.unique {ts : List Token} {items items' : List (List Token × Ident)}
    (h : SelectList ts items) (h' : SelectList ts items') : items = items' := by
  -- both lists cut the first item off at the first comma outside of brackets
  induction h generalizing items' with
  | @one ts e label h =>
    generalize hts : ts = us at h'
    cases h' with
    | one h' =>
      obtain ⟨rfl, rfl, -⟩ := h.unique h' (congrArg (· ++ []) hts)
      rfl
    | cons h' _ =>
      cases h'.rest_eq_nil h hts
  | @cons ts e us label items h _ ih =>
    generalize hts : ts ++ .symbol .comma :: us = vs at h'
    cases h' with
    | one h' =>
      cases h.rest_eq_nil h' hts.symm
    | cons h' hrest' =>
      obtain ⟨rfl, rfl, hrest⟩ := h.unique h' hts
      cases hrest
      rw [ih hrest']

end QueryTemplate.Sql
