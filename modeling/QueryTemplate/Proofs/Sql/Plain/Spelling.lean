import QueryTemplate.Proofs.Sql.Plain.Grammar

/-!
# Atoms are cut apart again

What an atom is written as is read as one token, in front of text that it does not go on with. That token is
not always the one that the atom was, as keywords may change their case, but it is the same kind of atom
and written in the same way.
-/

namespace QueryTemplate.Sql

open QueryTemplate.Number

/-! ## Characters around atoms -/

/-- The characters that written text goes on with behind a word, a literal or an expression. -/
def stopping : List Char :=
  [' ', '\n', ')', ',', ':', '(']

/-- The characters that an atom may start with when it is written. -/
def Atom.starts : Atom → Char → Bool
  | .symbol s, c => some c = s.sign.toList.head?
  | .operator _, _ => true
  | .name .., c => isWordStart c || c = '"' || c = '`'
  | .number, c | .size, c => c.isDigit || c = '.'
  | .text, c | .escape, c => c = '\''
  | .placeholder, c => c = '?'
  | _, c => isWordStart c

/-- The characters that may stand behind an atom when it is written. -/
def Atom.admits : Atom → Char → Bool
  | .symbol .minus, d => d ≠ '-' && d ≠ '>'
  | .symbol .colon, d => d ≠ ':' && d ≠ '='
  | .symbol .period, d => !d.isDigit
  | .symbol _, _ => true
  | .operator _, d => d = ' '
  | .name .., d => stopping.contains d || d = '.'
  | _, d => stopping.contains d

/-- The token `t` is what is read of the atom `a` when it is written as `x`. -/
structure Atom.Written (a : Atom) (t : Token) (x : String) : Prop where
  spells : a.Spells t x
  starts : ∃ c cs, x.toList = c :: cs ∧ a.starts c = true
  ends : ∀ c, x.toList.getLast? = some c → Text.isBlank c = false
  cut : ∀ rest, (∀ d, rest.head? = some d → a.admits d = true) →
    lex (x.toList ++ rest) = (lex rest).map (t :: ·)

/-- A token that starts with no sign of a comment. -/
theorem lex_token {c : Char} {cs rest : List Char} {t : Token} (hblank : Text.isBlank c = false)
    (hdash : ¬ (c = '-' ∧ cs.head? = some '-')) (hslash : c ≠ '/') (h : readToken c cs = some (t, rest)) :
    lex (c :: cs) = (lex rest).map (t :: ·) := by
  rw [lex_cons, lexRound, if_neg (by rw [hblank]; decide), if_neg hdash, if_neg (fun h => hslash h.1), h]
  rfl

theorem ends_of_stopping {rest : List Char} (h : ∀ d, rest.head? = some d → d ∈ '.' :: stopping) : Ends rest := by
  have hall : ∀ d ∈ '.' :: stopping, isWordPart d = false ∧ d ∉ ['\'', '"', '&'] := by decide +kernel
  exact fun d hd => hall d (h d hd)

theorem endsNumber_of_stopping {rest : List Char} (h : ∀ d, rest.head? = some d → d ∈ stopping) :
    EndsNumber rest := by
  have hall : ∀ d ∈ stopping, d.isDigit = false ∧ d ∉ ['.', 'e', 'E', '+', '-', 'x', 'L'] := by decide
  rintro d cs rfl
  exact hall d (h d rfl)

theorem isBlank_of_isWordStart {c : Char} (h : isWordStart c = true) : Text.isBlank c = false :=
  Bool.eq_false_iff.2 fun hblank => not_mem_otherStarts h (mem_otherStarts_of_isBlank hblank)

theorem isBlank_of_isWordPart {c : Char} (h : isWordPart c = true) : Text.isBlank c = false := by
  by_cases hstart : isWordStart c = true
  · exact isBlank_of_isWordStart hstart
  · simp only [isWordStart, isWordPart, Bool.or_eq_true, decide_eq_true_eq] at h hstart
    have hc : c.isDigit = true ∨ c = '$' := by tauto
    rcases hc with hc | rfl
    · exact Filter.isBlank_of_isDigit hc
    · decide

theorem isBlank_of_isNumeric {c : Char} (h : Text.isNumeric c = true) : Text.isBlank c = false := by
  have hall : ∀ n ∈ otherStarts, Text.isNumeric (Char.ofNat n) = true → (Char.ofNat n).isDigit = true := by
    decide +kernel
  refine Bool.eq_false_iff.2 fun hblank => ?_
  have hdigit := hall c.toNat (mem_otherStarts_of_isBlank hblank) (by rwa [Char.ofNat_toNat])
  rw [Char.ofNat_toNat] at hdigit
  rw [Filter.isBlank_of_isDigit hdigit] at hblank
  cases hblank

/-! ## Words -/

instance (word : List Char) : Decidable (IsPlainWord word) :=
  match word with
  | [] => isFalse nofun
  | c :: cs =>
    decidable_of_iff (isWordStart c = true ∧ c ≠ '@' ∧ c ≠ '#' ∧ ∀ d ∈ cs, isWordPart d = true)
      ⟨fun h => ⟨c, cs, rfl, h⟩, fun ⟨_, _, heq, h⟩ => by cases heq; exact h⟩

/-- An atom that is written as a word. -/
theorem written_word {a : Atom} {x : String} (hx : IsPlainWord x.toList) (hspells : a.Spells (.ofWord x.toList) x)
    (hstarts : ∀ c, isWordStart c = true → a.starts c = true)
    (hadmits : ∀ d, a.admits d = true → d ∈ '.' :: stopping) : a.Written (.ofWord x.toList) x where
  spells := hspells
  starts := by
    obtain ⟨c, cs, hcs, hstart, -⟩ := hx
    exact ⟨c, cs, hcs, hstarts c hstart⟩
  ends c hc := by
    obtain ⟨d, cs, hcs, hstart, -, -, hparts⟩ := hx
    have hmem := List.mem_of_getLast? hc
    rw [hcs] at hmem
    rcases List.mem_cons.1 hmem with rfl | hmem
    · exact isBlank_of_isWordStart hstart
    · exact isBlank_of_isWordPart (hparts c hmem)
  cut rest hrest := (isBare_of_word hx).lex_append (ends_of_stopping fun d hd => hadmits d (hrest d hd))

/-- What is in capitals stays as it is. -/
theorem Keyword.capitals_of_mem {c d : Char} (h : d ∈ Keyword.capitals c) : Keyword.capitals d = [d] := by
  by_cases hc : c.toNat < 128
  · have hall : ∀ n < 128, ∀ d ∈ Keyword.capitals (Char.ofNat n), Keyword.capitals d = [d] := by decide
    exact hall c.toNat hc d (by rwa [Char.ofNat_toNat])
  have hupper : c.toUpper = c := by
    refine dif_neg fun hlower => hc ?_
    have hle : c.val.toNat ≤ 122 := UInt32.le_iff_toNat_le.1 hlower.2
    exact Nat.lt_of_le_of_lt hle (by decide)
  have hself : Keyword.capitals c = [c.toUpper] → Keyword.capitals d = [d] := by
    intro hc
    rw [hc, hupper, List.mem_singleton] at h
    rw [h, hc, hupper]
  unfold Keyword.capitals at h hself
  split at h
  case h_11 => exact hself (by split <;> first | rfl | contradiction)
  all_goals simp only [List.mem_cons, List.not_mem_nil, or_false] at h
  case h_1 | h_2 => exact h ▸ rfl
  case h_3 | h_4 | h_5 | h_6 | h_9 | h_10 => rcases h with rfl | rfl <;> rfl
  case h_7 | h_8 => rcases h with rfl | rfl | rfl <;> rfl

theorem Keyword.inCapitals_inCapitals (s : String) :
    Keyword.inCapitals (Keyword.inCapitals s) = Keyword.inCapitals s := by
  have hall (cs : List Char) : (cs.flatMap capitals).flatMap capitals = cs.flatMap capitals := by
    induction cs with
    | nil => rfl
    | cons c cs ih =>
      rw [List.flatMap_cons, List.flatMap_append, ih,
        List.flatMap_congr (fun d hd => Keyword.capitals_of_mem hd), List.flatMap_singleton']
  rw [inCapitals, inCapitals, String.toList_ofList, hall]

/-- A keyword is read back as it is written. -/
theorem Token.IsKeyword.spelled {t : Token} {k : Keyword} (h : t.IsKeyword k) :
    IsPlainWord k.spelling.toList ∧ (Token.ofWord k.spelling.toList).IsKeyword k := by
  obtain ⟨s, rfl, hs⟩ := h
  have hback : Keyword.ofCapitals? (Keyword.inCapitals k.spelling) = some k := by
    rw [Keyword.spelling_eq hs, Keyword.inCapitals_inCapitals, hs]
  refine ⟨?_, k.spelling, ?_, hback⟩
  · rw [Keyword.spelling_eq hs]
    simpa using Keyword.of_table (P := fun w _ => IsPlainWord w.toList) (by decide +kernel) hs
  · rw [Token.ofWord, String.ofList_toList, hback]

theorem written_keyword {t : Token} {k : Keyword} (h : t.IsKeyword k) :
    (Atom.keyword k).Written (.ofWord k.spelling.toList) k.spelling :=
  written_word h.spelled.1 ⟨h.spelled.2, rfl⟩ (fun _ => id) fun _ hd =>
    List.mem_cons_of_mem _ (List.contains_iff_mem.1 hd)

/-- Words that are looked up in capitals. -/
theorem capitals?_ofWord {x : String} (hx : Keyword.inCapitals x = x) :
    (Token.ofWord x.toList).capitals? = some x := by
  simp [Token.capitals?, Token.ofWord, hx]

theorem inCapitals_of_capitals? {t : Token} {x : String} (h : t.capitals? = some x) : Keyword.inCapitals x = x := by
  unfold Token.capitals? at h
  split at h
  · cases h
    exact Keyword.inCapitals_inCapitals _
  · cases h

theorem known_of_knownType? {t : Token} {x : String} {shape : TypeShape} (h : t.knownType? = some (x, shape)) :
    t.capitals? = some x ∧ knownTypes.lookup x = some shape := by
  unfold Token.knownType? at h
  obtain ⟨w, hw, h⟩ := Option.bind_eq_some_iff.1 h
  obtain ⟨s, hs, h⟩ := Option.bind_eq_some_iff.1 h
  cases h
  exact ⟨hw, hs⟩

/-! ## Quotations -/

/-- The token that a quotation is. -/
def Token.ofQuotation (quote : Char) (s : String) : Token :=
  if quote = '\'' then .text s else .word ⟨s, some quote⟩ none

theorem lex_quotation {quote : Char} (hquote : quote = '\'' ∨ quote = '"' ∨ quote = '`') {cs : List Char} {s : String}
    (h : readQuoted quote cs = some (s.toList, [])) {rest : List Char} (hrest : rest.head? ≠ some quote) :
    lex (quote :: (cs ++ rest)) = (lex rest).map (.ofQuotation quote s :: ·) := by
  have hread := (readQuoted_append h).2 rest hrest
  refine lex_token ?_ ?_ ?_ ?_
  · rcases hquote with rfl | rfl | rfl <;> decide
  · rintro ⟨rfl, -⟩
    revert hquote
    decide
  · rintro rfl
    revert hquote
    decide
  · rcases hquote with rfl | rfl | rfl <;> simp [readToken, hread, Token.ofQuotation]

/-- An atom that is written with quotes around it. -/
theorem written_quotation {a : Atom} {quote : Char} (hquote : quote = '\'' ∨ quote = '"' ∨ quote = '`')
    {cs : List Char} {s x : String} (hx : x.toList = quote :: (cs ++ [quote]))
    (hread : readQuoted quote (cs ++ [quote]) = some (s.toList, [])) (hspells : a.Spells (.ofQuotation quote s) x)
    (hstarts : a.starts quote = true) (hadmits : ∀ d, a.admits d = true → d ∈ '.' :: stopping) :
    a.Written (.ofQuotation quote s) x where
  spells := hspells
  starts := ⟨quote, _, hx, hstarts⟩
  ends c hc := by
    rw [hx, List.getLast?_cons, List.getLast?_append] at hc
    obtain rfl : quote = c := by simpa using hc
    rcases hquote with rfl | rfl | rfl <;> decide
  cut rest hrest := by
    rw [hx]
    refine lex_quotation hquote hread fun hd => ?_
    have hmem := hadmits quote (hrest quote hd)
    rcases hquote with rfl | rfl | rfl <;> revert hmem <;> decide

theorem readQuoted_of_not_mem {quote : Char} {cs : List Char} (h : quote ∉ cs) :
    readQuoted quote (cs ++ [quote]) = some (cs, []) := by
  induction cs with
  | nil => simp [readQuoted]
  | cons c cs ih =>
    rw [List.mem_cons, not_or] at h
    rw [List.cons_append, readQuoted.eq_def]
    simp [Ne.symm h.1, ih h.2]

/-! ## Numbers -/

theorem lex_number {c : Char} (hc : c.isDigit = true ∨ c = '.') {cs rest : List Char} {t : Token}
    (h : readNumber (c :: cs) = (t, [])) (hrest : EndsNumber rest) :
    lex (c :: (cs ++ rest)) = (lex rest).map (t :: ·) := by
  have hne {d : Char} (hd : d.isDigit = false) (hpoint : d ≠ '.') : c ≠ d := by
    rintro rfl
    rcases hc with hc | rfl
    · rw [hc] at hd
      cases hd
    · exact hpoint rfl
  have hread := readNumber_in_front hrest (c :: cs)
  rw [h] at hread
  refine lex_token ?_ (fun h => hne rfl (by decide) h.1) (hne rfl (by decide)) ?_
  · rcases hc with hc | rfl
    · exact Filter.isBlank_of_isDigit hc
    · decide
  · have hquote : ¬ (c = '"' ∨ c = '`') := not_or.2 ⟨hne rfl (by decide), hne rfl (by decide)⟩
    rw [readToken, if_neg (hne rfl (by decide)), if_neg hquote, if_pos hc]
    exact congrArg some hread

/-- An atom that is written as a number. -/
theorem written_number {a : Atom} {t : Token} {x : String} (hx : readNumber x.toList = (t, []))
    (hfirst : ∃ c cs, x.toList = c :: cs ∧ (c.isDigit = true ∨ c = '.')) (hspells : a.Spells t x)
    (hstarts : ∀ c, c.isDigit = true ∨ c = '.' → a.starts c = true)
    (hadmits : ∀ d, a.admits d = true → d ∈ stopping) : a.Written t x where
  spells := hspells
  starts := by
    obtain ⟨c, cs, hcs, hc⟩ := hfirst
    exact ⟨c, cs, hcs, hstarts c hc⟩
  ends c hc := by
    -- a blank would be left over
    refine Bool.eq_false_iff.2 fun hblank => ?_
    obtain ⟨front, hfront⟩ := List.getLast?_eq_some_iff.1 hc
    have hends : EndsNumber [c] := by
      rintro d cs h
      cases h
      refine ⟨Bool.eq_false_iff.2 fun hdigit => ?_, fun hmem => ?_⟩
      · rw [Filter.isBlank_of_isDigit hdigit] at hblank
        cases hblank
      · have hall : ∀ d ∈ ['.', 'e', 'E', '+', '-', 'x', 'L'], Text.isBlank d = false := by decide
        rw [hall c hmem] at hblank
        cases hblank
    have hread := readNumber_in_front hends front
    rw [← hfront, hx] at hread
    exact absurd (congrArg Prod.snd hread) (by simp)
  cut rest hrest := by
    obtain ⟨c, cs, hcs, hc⟩ := hfirst
    rw [hcs] at hx ⊢
    exact lex_number hc hx (endsNumber_of_stopping fun d hd => hadmits d (hrest d hd))

/-- The size of a type is written in digits. -/
theorem written_size {t : Token} {x : String} (h : t.count?.map toString = some x) :
    Atom.size.Written (.number x false) x := by
  obtain ⟨n, hn, rfl⟩ := Option.map_eq_some_iff.1 h
  have hbound : n < UInt64.size := by
    cases t with
    | number digits long =>
      obtain ⟨v, -, rfl⟩ := Option.map_eq_some_iff.1 hn
      exact v.toNat_lt
    | _ => cases hn
  have hdigits : (toString n).toList = Nat.toDigits 10 n := Nat.toList_repr
  have hall : ∀ d ∈ Nat.toDigits 10 n, d.isDigit = true := fun _ => Filter.isDigit_of_mem_toDigits
  obtain ⟨c, cs, hcs⟩ := List.exists_cons_of_ne_nil (Nat.toDigits_ne_nil (n := n) (b := 10))
  have hc : c.isDigit = true := hall c (hcs ▸ List.mem_cons_self)
  refine written_number ?_ ⟨c, cs, hdigits.trans hcs, .inl hc⟩ ?_ (fun c => by simp [Atom.starts])
    (fun d => List.contains_iff_mem.1)
  · have hne : Nat.toDigits 10 n ≠ ['.'] := fun h => absurd (hall '.' (h ▸ List.mem_cons_self)) (by decide)
    have hspan : spanDecimal (Nat.toDigits 10 n) = (Nat.toDigits 10 n, []) := by
      rw [spanDecimal, List.takeWhile_eq_self_iff.2 hall, List.dropWhile_eq_nil_iff.2 hall]
    have hback : String.ofList (Nat.toDigits 10 n ++ []) = toString n := by
      rw [List.append_nil, ← hdigits, String.ofList_toList]
    rw [hdigits, readNumber, hspan]
    dsimp only
    rw [if_neg hne, if_neg (by simp)]
    exact congrArg (fun s => (Token.number s false, [])) hback
  · have hplus : ∀ ds, Nat.toDigits 10 n ≠ '+' :: ds :=
      fun ds h => absurd (hall '+' (h ▸ List.mem_cons_self)) (by decide)
    have hread : readUInt64? (Nat.toDigits 10 n) = some (UInt64.ofNat n) := by
      unfold readUInt64?
      split
      · exact absurd ‹_› (hplus _)
      · dsimp only
        rw [Filter.readNat?_toDigits]
        exact if_pos hbound
    simp [Atom.Spells, Token.count?, hread, UInt64.toNat_ofNat_of_lt' hbound]

/-! ## Symbols -/

theorem readToken_symbol {c : Char} (hc : c ∈ ['(', ')', ',', ':', '+', '-', '*']) (cs : List Char) :
    readToken c cs = some (readSymbol c cs) := by
  have hall : ∀ c ∈ ['(', ')', ',', ':', '+', '-', '*'], c.toLower ∉ ['b', 'e', 'n', 'r', 'x', 'b', 'r', 'u']
      ∧ isWordStart c = false ∧ c.isDigit = false ∧ c ∉ ['\'', '"', '`', '.', '@', '#', '$', '?'] := by decide
  obtain ⟨hletter, hword, hdigit, hothers⟩ := hall c hc
  simp only [List.mem_cons, List.not_mem_nil, or_false, not_or] at hletter hothers
  have hmarked : startsMarked c cs = false := by
    cases cs <;> simp [startsMarked, hletter]
  simp [readToken, hmarked, hword, hdigit, hothers]

theorem lex_symbol {c : Char} {s : Symbol} (hc : c ∈ ['(', ')', ',', ':', '+', '-', '*'])
    (hs : singleSymbol? c = some s) {rest : List Char}
    (hrest : ∀ d, rest.head? = some d → pairSymbol? c d = none ∧ d ∉ otherAfter c ∧ ¬ (c = '-' ∧ d = '-')) :
    lex (c :: rest) = (lex rest).map (.symbol s :: ·) := by
  have hall : ∀ c ∈ ['(', ')', ',', ':', '+', '-', '*'], Text.isBlank c = false ∧ c ≠ '/' := by decide
  refine lex_token (hall c hc).1 ?_ (hall c hc).2 ?_
  · rintro ⟨hdash, hd⟩
    exact (hrest '-' hd).2.2 ⟨hdash, rfl⟩
  · rw [readToken_symbol hc]
    cases rest with
    | nil => simp [readSymbol, hs]
    | cons d rest =>
      obtain ⟨hpair, hother, -⟩ := hrest d rfl
      simp [readSymbol, hs, hpair, hother]

/-- Symbols that do not care what follows. -/
theorem lex_alone {c : Char} {s : Symbol} (hc : c ∈ ['(', ')', ',', '+', '*']) (hs : singleSymbol? c = some s)
    (rest : List Char) : lex (c :: rest) = (lex rest).map (.symbol s :: ·) := by
  have hall : ∀ c ∈ ['(', ')', ',', '+', '*'], c ∈ ['(', ')', ',', ':', '+', '-', '*']
      ∧ c ∉ [':', '=', '<', '!', '>', '|'] ∧ otherAfter c = [] ∧ c ≠ '-' := by decide
  obtain ⟨hsymbol, hpair, hother, hdash⟩ := hall c hc
  refine lex_symbol hsymbol hs fun d _ => ⟨?_, by simp [hother], fun h => hdash h.1⟩
  unfold pairSymbol?
  split <;> first | rfl | exact absurd (by decide) hpair

theorem lex_minus {rest : List Char} (h : ∀ d, rest.head? = some d → d ≠ '-' ∧ d ≠ '>') :
    lex ('-' :: rest) = (lex rest).map (.symbol .minus :: ·) := by
  refine lex_symbol (by decide) rfl fun d hd => ⟨?_, ?_, fun hdash => (h d hd).1 hdash.2⟩
  · unfold pairSymbol?
    split <;> first | rfl | contradiction
  · simpa [otherAfter] using (h d hd).2

theorem lex_colon {rest : List Char} (h : ∀ d, rest.head? = some d → d ≠ ':' ∧ d ≠ '=') :
    lex (':' :: rest) = (lex rest).map (.symbol .colon :: ·) := by
  refine lex_symbol (by decide) rfl fun d hd => ⟨?_, ?_, fun hdash => nomatch hdash.1⟩
  · unfold pairSymbol?
    split <;> first | rfl | contradiction | exact absurd rfl (h _ hd).1
  · simpa [otherAfter] using (h d hd).2

theorem lex_doubleColon (rest : List Char) :
    lex (':' :: ':' :: rest) = (lex rest).map (.symbol .doubleColon :: ·) := by
  refine lex_token (by decide) (by simp) (by decide) ?_
  rw [readToken_symbol (by decide)]
  rfl

theorem lex_period {rest : List Char} (h : ∀ d, rest.head? = some d → d.isDigit = false) :
    lex ('.' :: rest) = (lex rest).map (.symbol .period :: ·) := by
  have hstop : ∀ d cs, rest = d :: cs → d.isDigit = false := fun d cs hd => h d (by rw [hd]; rfl)
  obtain ⟨htake, hdrop⟩ := Filter.span_append_of_stop hstop []
  have hspan : spanDecimal ('.' :: rest) = (['.'], rest) := by
    simp only [List.nil_append, List.takeWhile_nil, List.dropWhile_nil] at htake hdrop
    simp [spanDecimal, Char.isDigit, htake, hdrop]
  refine lex_token (by decide) (by simp) (by decide) ?_
  simp [readToken, readNumber, hspan]

/-- The symbols that are no operators are read back as they are written. -/
theorem written_symbol {s : Symbol} (hs : s.sign ≠ "") : (Atom.symbol s).Written (.symbol s) s.sign where
  spells := ⟨rfl, rfl⟩
  starts := by
    obtain ⟨c, cs, hcs⟩ := List.exists_cons_of_ne_nil (mt String.toList_eq_nil_iff.1 hs)
    exact ⟨c, cs, hcs, by rw [Atom.starts, hcs]; exact decide_eq_true rfl⟩
  ends c hc := by
    have hall : ∀ c ∈ s.sign.toList, Text.isBlank c = false := by cases s <;> decide
    exact hall c (List.mem_of_getLast? hc)
  cut rest hrest := by
    cases s with
    | opening => exact lex_alone (by decide) rfl rest
    | closing => exact lex_alone (by decide) rfl rest
    | comma => exact lex_alone (by decide) rfl rest
    | plus => exact lex_alone (by decide) rfl rest
    | star => exact lex_alone (by decide) rfl rest
    | doubleColon => exact lex_doubleColon rest
    | minus => exact lex_minus fun d hd => by simpa [Atom.admits] using hrest d hd
    | colon => exact lex_colon fun d hd => by simpa [Atom.admits] using hrest d hd
    | period => exact lex_period fun d hd => by simpa [Atom.admits] using hrest d hd
    | _ => exact absurd rfl hs

/-- An operator stands between blanks. -/
theorem written_operator {t : Token} {level : Nat} {x : String} (h : t.operator? = some (level, x)) :
    ∃ u, (Atom.operator level).Written u x := by
  have hwritten {u : Token} (hu : u.operator? = some (level, x)) (hlex : lex x.toList = some [u])
      (htidy : Tidy x.toList) (hblanks : x ≠ "" ∧ ∀ c ∈ x.toList, Text.isBlank c = false) :
      (Atom.operator level).Written u x := by
    refine ⟨hu, ?_, fun c hc => hblanks.2 c (List.mem_of_getLast? hc), fun rest hrest => ?_⟩
    · obtain ⟨c, cs, hcs⟩ := List.exists_cons_of_ne_nil (mt String.toList_eq_nil_iff.1 hblanks.1)
      exact ⟨c, cs, hcs, rfl⟩
    · refine lex_append hlex htidy ?_
      cases rest with
      | nil => trivial
      | cons d rest =>
        obtain rfl : d = ' ' := by simpa [Atom.admits] using hrest d rfl
        rfl
  have hsymbol {s : Symbol} (h : s.operator? = some (level, x)) : ∃ u, (Atom.operator level).Written u x := by
    -- a doubled sign is written as a single one
    obtain rfl | hs := eq_or_ne s .doubleEq
    · cases h
      exact ⟨.symbol .eq, hwritten rfl (by decide +kernel) (by decide +kernel) (by decide +kernel)⟩
    · refine ⟨.symbol s, hwritten h ?_ ?_ ?_⟩ <;> cases s <;> cases h <;>
        first | exact absurd rfl hs | decide +kernel
  have hkeyword {k : Keyword} (h : k.operator? = some (level, x)) : ∃ u, (Atom.operator level).Written u x := by
    refine ⟨.ofWord x.toList, hwritten ?_ ?_ ?_ ?_⟩ <;>
      (unfold Keyword.operator? at h; split at h <;> cases h <;> decide +kernel)
  unfold Token.operator? at h
  split at h
  · exact hsymbol h
  · exact hkeyword h
  · cases h

/-! ## All atoms -/

/-- A word in capitals, such as the first word of a type. -/
theorem written_capitals (words : List String) {a : Atom} {x : String}
    (hwords : words.all (fun w => IsPlainWord w.toList) = true) (hx : x ∈ words)
    (hspells : a.Spells (.ofWord x.toList) x) (hstarts : a.starts = isWordStart)
    (hadmits : a.admits = stopping.contains) : a.Written (.ofWord x.toList) x := by
  refine written_word (by simpa using List.all_eq_true.1 hwords x hx) hspells (fun c => ?_) fun d hd => ?_
  · rw [hstarts]
    exact id
  · rw [hadmits] at hd
    exact List.mem_cons_of_mem _ (List.contains_iff_mem.1 hd)

theorem written_type {t : Token} {shapes : List TypeShape} {x : String} (h : (Atom.type shapes).Spells t x) :
    (Atom.type shapes).Written (.ofWord x.toList) x := by
  obtain ⟨hinterval, -, shape, hshape, ht⟩ := h
  obtain ⟨hcapitals, hlookup⟩ := known_of_knownType? ht
  obtain ⟨front, back, htable, -⟩ := List.lookup_eq_some_iff.1 hlookup
  have hmem : x ∈ knownTypes.map Prod.fst := by simp [htable]
  refine written_capitals (knownTypes.map Prod.fst) (by decide +kernel) hmem ?_ rfl rfl
  refine ⟨hinterval, ⟨_, rfl⟩, shape, hshape, ?_⟩
  simp [Token.knownType?, capitals?_ofWord (inCapitals_of_capitals? hcapitals), hlookup]

theorem written_placeholder {x : String} {cs : List Char} (hx : x.toList = '?' :: cs)
    (hcs : cs.all Text.isNumeric = true) : Atom.placeholder.Written (.placeholder x) x where
  spells := ⟨rfl, cs, hx, hcs⟩
  starts := ⟨'?', cs, hx, rfl⟩
  ends c hc := by
    have hmem := List.mem_of_getLast? hc
    rw [hx, List.mem_cons] at hmem
    rcases hmem with rfl | hmem
    · decide
    · exact isBlank_of_isNumeric (List.all_eq_true.1 hcs c hmem)
  cut rest hrest := by
    have hall : ∀ d ∈ stopping, Text.isNumeric d = false := by decide +kernel
    have hstop : ∀ d ds, rest = d :: ds → Text.isNumeric d = false := fun d ds hd =>
      hall d (List.contains_iff_mem.1 (hrest d (by rw [hd]; rfl)))
    obtain ⟨htake, hdrop⟩ := Filter.span_append_of_stop hstop cs
    have hcs := List.all_eq_true.1 hcs
    rw [List.takeWhile_eq_self_iff.2 hcs] at htake
    rw [List.dropWhile_eq_nil_iff.2 hcs, List.nil_append] at hdrop
    have hmarked : startsMarked '?' (cs ++ rest) = false := by
      cases cs ++ rest <;> simp [startsMarked, show '?'.toLower = '?' from rfl]
    rw [hx, List.cons_append]
    refine lex_token (by decide) (by simp) (by decide) ?_
    rw [readToken, hmarked, htake, hdrop, ← hx, String.ofList_toList]
    rfl

theorem written_name {keywords : List Keyword} {types : List TypeShape} {t : Token} {x : String}
    (h : (Atom.name keywords types).Spells t x) : (Atom.name keywords types).Written t x := by
  obtain ⟨name, k, hname, rfl, rfl, hk, htypes⟩ := h
  have hspells : (Atom.name keywords types).Spells (.word name k) name.written :=
    ⟨name, k, hname, rfl, rfl, hk, htypes⟩
  have hadmits (d : Char) (hd : (Atom.name keywords types).admits d = true) : d ∈ '.' :: stopping := by
    rw [Atom.admits, Bool.or_eq_true, decide_eq_true_eq, List.contains_iff_mem] at hd
    exact List.mem_cons.2 hd.symm
  cases hname with
  | @word s hs =>
    have hword : Token.word ⟨s, none⟩ (Keyword.ofCapitals? (Keyword.inCapitals s)) = .ofWord s.toList := by
      rw [Token.ofWord, String.ofList_toList]
    rw [hword] at hspells ⊢
    exact written_word hs hspells (fun c hc => by simp [Atom.starts, hc]) hadmits
  | @quoted s quote hquote hs =>
    have hquotation : Token.word ⟨s, some quote⟩ none = .ofQuotation quote s := by
      rcases hquote with rfl | rfl <;> rfl
    rw [hquotation] at hspells ⊢
    refine written_quotation (.inr hquote) (String.toList_ofList ..) hs hspells ?_ hadmits
    rcases hquote with rfl | rfl <;> simp [Atom.starts]

/-- **An atom is read back as it is written**, except that it may be another token. -/
theorem Atom.Spells.written {a : Atom} {t : Token} {x : String} (h : a.Spells t x)
    (ha : ∀ s, a = .symbol s → s.sign ≠ "") : ∃ u, a.Written u x := by
  have hadmits (d : Char) (hd : stopping.contains d = true) : d ∈ '.' :: stopping :=
    List.mem_cons_of_mem _ (List.contains_iff_mem.1 hd)
  cases a with
  | keyword k =>
    obtain ⟨hk, rfl⟩ := h
    exact ⟨_, written_keyword hk⟩
  | symbol s =>
    obtain ⟨rfl, rfl⟩ := h
    exact ⟨_, written_symbol (ha s rfl)⟩
  | name keywords types => exact ⟨t, written_name h⟩
  | parameter =>
    obtain ⟨hx, rfl⟩ := h
    exact ⟨_, written_word hx ⟨hx, rfl⟩ (fun _ => id) hadmits⟩
  | number =>
    obtain ⟨hnumber, hread, hfirst⟩ := h
    exact ⟨t, written_number hread hfirst ⟨hnumber, hread, hfirst⟩ (fun c => by simp [Atom.starts])
      fun d => List.contains_iff_mem.1⟩
  | text =>
    obtain ⟨s, rfl, rfl, hs⟩ := h
    exact ⟨_, written_quotation (.inl rfl) (String.toList_ofList ..) hs ⟨s, rfl, rfl, hs⟩ rfl hadmits⟩
  | escape =>
    obtain ⟨s, rfl, rfl, hs⟩ := h
    exact ⟨_, written_quotation (s := s) (.inl rfl) (by simp) (readQuoted_of_not_mem hs) ⟨s, rfl, rfl, hs⟩ rfl hadmits⟩
  | placeholder =>
    obtain ⟨-, cs, hx, hcs⟩ := h
    exact ⟨_, written_placeholder hx hcs⟩
  | constant =>
    rcases h with ⟨-, rfl⟩ | ⟨-, rfl⟩ | ⟨-, rfl⟩
    · exact ⟨_, written_word (by decide +kernel) (.inl ⟨⟨"true", rfl, rfl⟩, rfl⟩) (fun _ => id) hadmits⟩
    · exact ⟨_, written_word (by decide +kernel) (.inr (.inl ⟨⟨"false", rfl, rfl⟩, rfl⟩)) (fun _ => id) hadmits⟩
    · exact ⟨_, written_word (by decide +kernel) (.inr (.inr ⟨⟨"NULL", rfl, rfl⟩, rfl⟩)) (fun _ => id) hadmits⟩
  | moment =>
    obtain ⟨hx, rfl, hmoment⟩ := h
    exact ⟨_, written_word hx ⟨hx, rfl, hmoment⟩ (fun _ => id) hadmits⟩
  | operator level => exact written_operator h
  | type shapes => exact ⟨_, written_type h⟩
  | size => exact ⟨_, written_size h⟩
  | dateField =>
    have hback := capitals?_ofWord (inCapitals_of_capitals? h.2)
    exact ⟨_, written_capitals dateFields (by decide +kernel) h.1 ⟨h.1, hback⟩ rfl rfl⟩
  | unit =>
    have hback := capitals?_ofWord (inCapitals_of_capitals? h.2)
    exact ⟨_, written_capitals intervalUnits (by decide +kernel) h.1 ⟨h.1, hback⟩ rfl rfl⟩

end QueryTemplate.Sql
