import QueryTemplate.Proofs.Embedding
import QueryTemplate.Proofs.PrintedNulls
import QueryTemplate.Proofs.Splitting

/-!
# Literals in filter text and alone

A literal of a filter means what the same text means alone, where it is the value of a parameter. The lexer
takes it off the text character by character, and the raw text is tried as an integer, as a floating point number
and as a word in turn; the two agree, except that a raw text needs no quotes.

* **`cuts_blank_iff`**, **`cuts_token_iff`**: what the tokens of a text say about its first character.
* **`eq_text_of_readToken`**, **`eq_number_of_readToken`**, **`eq_word_of_readToken`**: a token of each kind has the
  characters in front of the rest.
* **`infer_of_token`**: a text that is one token for a literal is read as that literal.
* **`infer_eq_of_parse`**: so is the literal of a comparison.
-/

namespace QueryTemplate

open QueryTemplate.Number

namespace Filter

/-! ## Tokens of a text -/

theorem cuts_blank_iff {c : Char} {cs : List Char} {ts : List Token} (hc : Text.isBlank c = true) :
    Cuts (c :: cs) ts ↔ Cuts cs ts := by
  unfold Cuts
  rw [lex, if_pos hc]

theorem cuts_token_iff {c : Char} {cs : List Char} {ts : List Token} (hc : Text.isBlank c = false) :
    Cuts (c :: cs) ts ↔ ∃ t rest us, readToken c cs = .ok (t, rest) ∧ Cuts rest us ∧ ts = t :: us := by
  constructor
  · rintro ⟨lexemes, hlex, rfl⟩
    rw [lex_cons_of_not_blank hc] at hlex
    split at hlex
    · cases hlex
    · rename_i t rest hread
      obtain ⟨later, hlater, rfl⟩ := Except.map_eq_ok_iff.1 hlex
      exact ⟨t, rest, _, hread, ⟨later, hlater, rfl⟩, rfl⟩
  · rintro ⟨t, rest, us, hread, hcuts, rfl⟩
    exact .token hc hread hcuts

/-- A text without tokens is blank. -/
theorem isBlank_of_cuts_nil {cs : List Char} (h : Cuts cs []) : ∀ c ∈ cs, Text.isBlank c = true := by
  induction cs with
  | nil => exact nofun
  | cons c cs ih =>
    cases hc : Text.isBlank c with
    | true => exact List.forall_mem_cons.2 ⟨hc, ih ((cuts_blank_iff hc).1 h)⟩
    | false =>
      obtain ⟨t, rest, us, -, -, hts⟩ := (cuts_token_iff hc).1 h
      cases hts

/-- A text without blanks at its ends that is cut into one token is that token and nothing else. -/
theorem exists_readToken_of_cuts {cs : List Char} {t : Token} (hends : Text.Trimmed Text.isBlank cs)
    (h : Cuts cs [t]) : ∃ c ds, cs = c :: ds ∧ readToken c ds = .ok (t, []) := by
  cases cs with
  | nil =>
    obtain ⟨lexemes, hlex, hts⟩ := h
    rw [lex] at hlex
    cases hlex
    cases hts
  | cons c cs =>
    obtain ⟨t, rest, us, hread, hrest, hts⟩ := (cuts_token_iff (hends.1 c rfl)).1 h
    cases hts
    have hblank := isBlank_of_cuts_nil hrest
    obtain ⟨front, hfront⟩ := isSuffix_of_readToken hread
    -- the last character would be a blank of the rest
    rcases List.eq_nil_or_concat rest with rfl | ⟨init, d, rfl⟩
    · exact ⟨c, cs, rfl, hread⟩
    · have hlast : d ∈ (c :: cs).getLast? := by
        rw [← hfront, List.concat_eq_append, ← List.append_assoc, ← List.cons_append, List.getLast?_concat]
        rfl
      have hd := hends.2 d hlast
      rw [hblank d (by simp)] at hd
      cases hd

/-! ## The characters of a token -/

/-- Between quotes stands what is read, with its quotes doubled. -/
theorem eq_append_of_readText {cs body rest : List Char} (h : readText cs = some (body, rest)) :
    cs = Value.doubleQuotes body ++ '\'' :: rest := by
  fun_induction readText cs generalizing body with
  | case1 => cases h
  | case2 cs ih =>
    obtain ⟨⟨body, rest⟩, hread, he⟩ := Option.map_eq_some_iff.1 h
    cases he
    rw [ih hread]
    rfl
  | case3 cs =>
    cases h
    rfl
  | case4 c cs _ hc ih =>
    obtain ⟨⟨body, rest⟩, hread, he⟩ := Option.map_eq_some_iff.1 h
    cases he
    rw [Value.doubleQuotes, if_neg hc, ih hread]
    rfl

theorem numberToken_eq_ok_iff {text rest rest' : List Char} {t : Token} :
    numberToken text rest = .ok (t, rest') ↔ ∃ v, numberValue? text = some v ∧ t = .number v ∧ rest' = rest := by
  unfold numberToken
  cases numberValue? text with
  | none => simp
  | some v => simp [eq_comm]

theorem eq_text_of_readToken {c : Char} {cs rest : List Char} {s : String}
    (h : readToken c cs = .ok (.text s, rest)) : c :: cs = (Value.text s).literal.toList ++ rest := by
  revert h
  fun_cases readToken c cs <;> intro h
  case case12 hquote body rest' hread =>
    cases h
    rw [hquote, eq_append_of_readText hread]
    simp [Value.literal]
  case case16 => obtain ⟨v, -, ht, -⟩ := numberToken_eq_ok_iff.1 h; cases ht
  case case17 => obtain ⟨v, -, ht, -⟩ := numberToken_eq_ok_iff.1 h; cases ht
  all_goals cases h

theorem eq_word_of_readToken {c : Char} {cs rest : List Char} {w : String}
    (h : readToken c cs = .ok (.word w, rest)) : c :: cs = w.toList ++ rest := by
  revert h
  fun_cases readToken c cs <;> intro h
  case case16 => obtain ⟨v, -, ht, -⟩ := numberToken_eq_ok_iff.1 h; cases ht
  case case17 => obtain ⟨v, -, ht, -⟩ := numberToken_eq_ok_iff.1 h; cases ht
  case case18 =>
    cases h
    simp
  all_goals cases h

theorem eq_spanNumber (cs : List Char) : cs = (spanNumber cs).1 ++ (spanNumber cs).2 := by
  have hwhole := List.takeWhile_append_dropWhile (p := Char.isDigit) (l := cs)
  unfold spanNumber
  dsimp only
  split
  case h_1 rest hpoint =>
    have hrest := List.takeWhile_append_dropWhile (p := Char.isDigit) (l := rest)
    rw [List.append_assoc, List.cons_append, hrest, ← hpoint, hwhole]
  case h_2 => exact hwhole.symm

/-- A number takes its numeral off the text. -/
theorem eq_number_of_readToken {c : Char} {cs rest : List Char} {v : Value}
    (h : readToken c cs = .ok (.number v, rest)) : c :: cs = numeral (c :: cs) ++ rest := by
  revert h
  fun_cases readToken c cs <;> intro h
  -- with a sign and without
  case case16 hminus digits rest' hs =>
    obtain ⟨-, -, -, rfl⟩ := numberToken_eq_ok_iff.1 h
    have hspan := eq_spanNumber cs
    rw [hs] at hspan
    rw [hminus, numeral, hs]
    exact congrArg ('-' :: ·) hspan
  case case17 hminus hdigit digits rest' hs =>
    obtain ⟨-, -, -, rfl⟩ := numberToken_eq_ok_iff.1 h
    have hspan := eq_spanNumber (c :: cs)
    rw [hs] at hspan
    rw [numeral_of_ne hminus, hs]
    exact hspan
  all_goals cases h

/-! ## Literals -/

/-- A text with a point is no integer. -/
theorem readInt64?_eq_none_of_point {cs : List Char} (h : '.' ∈ cs) : readInt64? cs = none := by
  cases hread : readInt64? cs with
  | none => rfl
  | some n =>
    obtain ⟨k, hk, -⟩ := exists_readNat?_of_readInt64? hread
    obtain ⟨-, hdigits, -⟩ := readNat?_eq_some_iff.1 hk
    -- a sign is no point, so the point is left behind it
    have hpoint : '.' ∈ (splitSign cs).2 := by
      unfold splitSign
      split
      · simpa using h
      · simpa using h
      · exact h
    exact absurd (hdigits '.' hpoint) (by decide)

/-- **A number is read alone as it is read in filter text.** -/
theorem infer_of_numberValue? {cs : List Char} {v : Value} (h : numberValue? cs = some v) :
    Value.infer (String.ofList cs) = v := by
  unfold numberValue? at h
  rw [Value.infer, String.toList_ofList]
  split at h
  case isTrue hpoint =>
    obtain ⟨x, hx, rfl⟩ := Option.map_eq_some_iff.1 h
    rw [readInt64?_eq_none_of_point (List.contains_iff_mem.1 hpoint), hx]
  case isFalse =>
    obtain ⟨n, hn, rfl⟩ := Option.map_eq_some_iff.1 h
    rw [hn]

theorem literalWords_of_keyword {word : String} {k : Keyword} (hk : Keyword.ofWord? word = some k) :
    (k = .true_ → (Text.lower word, .boolean true) ∈ Value.literalWords)
      ∧ (k = .false_ → (Text.lower word, .boolean false) ∈ Value.literalWords)
      ∧ (k = .null → (Text.lower word, .null) ∈ Value.literalWords) := by
  unfold Keyword.ofWord? at hk
  split at hk <;> cases hk <;> simp_all [Value.literalWords]

/-- **A text that is one token for a literal** and no quoted text is read as that literal. -/
theorem infer_of_token {c : Char} {cs : List Char} {t : Token} {v : Value} (hread : readToken c cs = .ok (t, []))
    (hstands : Stands t (.literal v)) (htext : ∀ s, String.ofList (c :: cs) ≠ (Value.text s).literal) :
    Value.infer (String.ofList (c :: cs)) = v := by
  have hword {k : Keyword} (hk : t.keyword? = some k)
      (hliteral : ∀ word, Keyword.ofWord? word = some k → (Text.lower word, v) ∈ Value.literalWords) :
      Value.infer (String.ofList (c :: cs)) = v := by
    obtain ⟨word, rfl, hk⟩ := keyword?_eq_some_iff.1 hk
    rw [eq_word_of_readToken hread, List.append_nil, String.ofList_toList]
    exact Value.infer_of_literalWords (hliteral word hk)
  cases hstands with
  | text s =>
    have hquoted := eq_text_of_readToken hread
    rw [List.append_nil] at hquoted
    exact absurd (by rw [hquoted, String.ofList_toList]) (htext s)
  | number =>
    have hwhole := eq_number_of_readToken hread
    rw [List.append_nil] at hwhole
    rw [hwhole]
    exact infer_of_numberValue? (numberValue?_of_readToken hread)
  | true_ hk => exact hword hk fun word hk => (literalWords_of_keyword hk).1 rfl
  | false_ hk => exact hword hk fun word hk => (literalWords_of_keyword hk).2.1 rfl
  | null hk => exact hword hk fun word hk => (literalWords_of_keyword hk).2.2 rfl

/-! ## Comparisons -/

/-- A comparison that is not in parentheses is a predicate and nothing more. -/
theorem isPredicate_of_derives {ts : List Token} {n : Nat} {l r : Operand} {op : CompareOp}
    (h : Derives .disjunction n ts (.compare l op r)) (hts : ts.head? ≠ some .opening) :
    IsPredicate ts (.compare l op r) := by
  cases h with
  | conjunction h =>
    cases h with
    | unary h =>
      cases h with
      | predicate h => exact h
      | group h => exact absurd rfl hts

/-- What stands behind the sign of a comparison is cut into the token of its second operand. -/
theorem cuts_of_parse {s : String} {v : Value}
    (h : parse ("x = " ++ s) = .ok (.compare (.field "x") .eq (.literal v))) :
    ∃ t, Cuts s.toList [t] ∧ Stands t (.literal v) := by
  obtain ⟨ts, hcuts, n, -, hderives⟩ := parse_eq_ok_iff_cuts.1 h
  rw [String.toList_append] at hcuts
  -- the word, the sign and the blanks are taken off the front
  obtain ⟨t, rest, us, hread, hrest, rfl⟩ := (cuts_token_iff rfl).1 hcuts
  obtain ⟨rfl, rfl⟩ : .word "x" = t ∧ " = ".toList ++ s.toList = rest := Prod.mk.inj (Except.ok.inj hread)
  obtain ⟨u, rest, vs, hread, hrest, rfl⟩ := (cuts_token_iff rfl).1 ((cuts_blank_iff rfl).1 hrest)
  obtain ⟨rfl, rfl⟩ : .op .eq = u ∧ ' ' :: s.toList = rest := Prod.mk.inj (Except.ok.inj hread)
  have hliteral := (cuts_blank_iff rfl).1 hrest
  cases isPredicate_of_derives hderives nofun with
  | compare _ _ hr => exact ⟨_, hliteral, hr⟩

end Filter

/-- **The same literal means the same in filter text and alone.** What is read as the literal of a comparison, and
is no quoted text, has the same value when it is read as a raw text. -/
theorem infer_eq_of_parse {s : String} {v : Value} (hblank : Text.trim s = s)
    (hparse : Filter.parse ("x = " ++ s) = .ok (.compare (.field "x") .eq (.literal v)))
    (htext : ∀ t, s ≠ (Value.text t).literal) : Value.infer s = v := by
  have hends : Text.Trimmed Text.isBlank s.toList := by
    rw [← hblank, Text.trim, String.toList_ofList]
    exact Text.trimmed_trimBoth s.toList
  obtain ⟨t, hcuts, hstands⟩ := Filter.cuts_of_parse hparse
  obtain ⟨c, cs, hcs, hread⟩ := Filter.exists_readToken_of_cuts hends hcuts
  have hs : s = String.ofList (c :: cs) := by rw [← hcs, String.ofList_toList]
  rw [hs] at htext ⊢
  exact Filter.infer_of_token hread hstands htext

/-- A number with a sign and nothing behind its point. -/
theorem infer_eq_of_parse_number :
    let v : Value := .float (.finite true 1024 0)
    Text.trim "-2." = "-2." ∧ Filter.parse "x = -2." = .ok (.compare (.field "x") .eq (.literal v))
      ∧ (∀ t, "-2." ≠ (Value.text t).literal) ∧ Value.infer "-2." = v := by
  intro v
  have hblank : Text.trim "-2." = "-2." := by decide +kernel
  have hparse : Filter.parse "x = -2." = .ok (.compare (.field "x") .eq (.literal v)) := by decide +kernel
  have htext : ∀ t, "-2." ≠ (Value.text t).literal := by
    intro t ht
    have hfirst := congrArg (fun s => s.toList.head?) ht
    simp [Value.literal] at hfirst
  exact ⟨hblank, hparse, htext, infer_eq_of_parse hblank hparse htext⟩

end QueryTemplate
