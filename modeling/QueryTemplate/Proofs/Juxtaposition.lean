import QueryTemplate.Filter.Token
import QueryTemplate.Proofs.Except

/-!
# Texts side by side

A token reaches as far as it can, so text after it could become part of it: a letter makes a word longer,
a quote reopens a string, an equals sign makes another operator. Text that starts with any other character
is apart from what stands in front (`Apart`). It is cut into the same tokens as alone, and so is the text
in front of it.

* **`readToken_append`**: a token is read as before in front of text that is apart.
* **`lex_append`**: so the tokens of both texts come one after the other.
-/

namespace QueryTemplate.Filter

/-! ## Where no token goes on -/

/-- The characters that no token goes on with. -/
def isApart (c : Char) : Bool :=
  !isWordChar c && !c.isDigit && c ≠ '=' && c ≠ '>' && c ≠ '\''

/-- Text that no token in front of it goes on with. -/
def Apart : List Char → Prop
  | [] => True
  | c :: _ => isApart c = true

theorem Apart.not_wordChar {c : Char} {cs : List Char} (h : Apart (c :: cs)) : isWordChar c = false := by
  have : isApart c = true := h
  simp only [isApart, Bool.and_eq_true, Bool.not_eq_true'] at this
  exact this.1.1.1.1

theorem Apart.not_digit {c : Char} {cs : List Char} (h : Apart (c :: cs)) : c.isDigit = false := by
  have : isApart c = true := h
  simp only [isApart, Bool.and_eq_true, Bool.not_eq_true'] at this
  exact this.1.1.1.2

theorem Apart.head?_ne {rest : List Char} (h : Apart rest) {c : Char} (hc : isApart c = false) :
    rest.head? ≠ some c := by
  cases rest with
  | nil => simp
  | cons d rest =>
    have hd : isApart d = true := h
    rw [List.head?_cons]
    rintro ⟨⟩
    rw [hc] at hd
    cases hd

/-- A run of characters stops where it did, at the latest at text that is apart. -/
theorem span_append_of_stop {p : Char → Bool} {rest : List Char}
    (h : ∀ c cs, rest = c :: cs → p c = false) (cs : List Char) :
    (cs ++ rest).takeWhile p = cs.takeWhile p ∧ (cs ++ rest).dropWhile p = cs.dropWhile p ++ rest := by
  induction cs with
  | nil =>
    cases rest with
    | nil => exact ⟨rfl, rfl⟩
    | cons c rest =>
      have hc : ¬ p c = true := by simpa using h c rest rfl
      exact ⟨List.takeWhile_cons_of_neg hc, List.dropWhile_cons_of_neg hc⟩
  | cons c cs ih =>
    by_cases hc : p c = true
    · simp [hc, ih.1, ih.2]
    · simp [hc]

/-! ## One token -/

section Tokens

variable {rest : List Char} (h : Apart rest)

include h

theorem span_wordChars_append (cs : List Char) :
    (cs ++ rest).takeWhile isWordChar = cs.takeWhile isWordChar
      ∧ (cs ++ rest).dropWhile isWordChar = cs.dropWhile isWordChar ++ rest := by
  refine span_append_of_stop (fun c cs hrest => ?_) cs
  subst hrest
  exact h.not_wordChar

theorem spanNumber_append_of_apart (cs : List Char) :
    spanNumber (cs ++ rest) = ((spanNumber cs).1, (spanNumber cs).2 ++ rest) := by
  have hdigits (ds : List Char) : (ds ++ rest).takeWhile Char.isDigit = ds.takeWhile Char.isDigit
      ∧ (ds ++ rest).dropWhile Char.isDigit = ds.dropWhile Char.isDigit ++ rest := by
    refine span_append_of_stop (fun c cs hrest => ?_) ds
    subst hrest
    exact h.not_digit
  have hpoint : rest.head? ≠ some '.' := h.head?_ne (by decide)
  simp only [spanNumber, (hdigits cs).1, (hdigits cs).2]
  cases cs.dropWhile Char.isDigit with
  | nil =>
    -- the digits end the text, and what comes now is no point
    cases rest with
    | nil => rfl
    | cons c rest =>
      have hc : c ≠ '.' := by simpa using hpoint
      simp [hc]
  | cons c tail =>
    by_cases hc : c = '.'
    · subst hc
      simp [(hdigits tail).1, (hdigits tail).2]
    · simp [hc]

omit h in
theorem append_ne_cons {d : Char} (h : rest.head? ≠ some d) {cs : List Char}
    (hcs : ∀ tail, cs = d :: tail → False) (tail : List Char) (htail : cs ++ rest = d :: tail) : False := by
  cases cs with
  | nil =>
    have hrest : rest = d :: tail := htail
    exact h (by rw [hrest]; rfl)
  | cons e cs =>
    cases htail
    exact hcs cs rfl

theorem readText_append {cs s tail : List Char} (hread : readText cs = some (s, tail)) :
    readText (cs ++ rest) = some (s, tail ++ rest) := by
  have hquote : rest.head? ≠ some '\'' := h.head?_ne (by decide)
  fun_induction readText cs generalizing s with
  | case1 => cases hread
  | case2 cs ih =>
    obtain ⟨⟨s', tail'⟩, hs, he⟩ := Option.map_eq_some_iff.1 hread
    cases he
    rw [List.cons_append, List.cons_append, readText, ih hs]
    rfl
  | case3 cs hcs =>
    cases hread
    rw [List.cons_append, readText]
    · exact if_pos rfl
    · exact fun tail hc => append_ne_cons hquote (fun tail => hcs tail hc) tail
  | case4 c cs hcs hc ih =>
    obtain ⟨⟨s', tail'⟩, hs, he⟩ := Option.map_eq_some_iff.1 hread
    cases he
    rw [List.cons_append, readText, if_neg hc, ih hs]
    · rfl
    · exact fun tail hc => append_ne_cons hquote (fun tail => hcs tail hc) tail

omit h in
theorem numberToken_append {text tail tail' : List Char} {t : Token}
    (hread : numberToken text tail = .ok (t, tail')) :
    numberToken text (tail ++ rest) = .ok (t, tail' ++ rest) := by
  cases hv : numberValue? text with
  | none =>
    rw [numberToken, hv] at hread
    cases hread
  | some v =>
    rw [numberToken, hv] at hread
    cases hread
    rw [numberToken, hv]

/-- **A token is read as before** in front of text that is apart. -/
theorem readToken_append {c : Char} {cs tail : List Char} {t : Token}
    (hread : readToken c cs = .ok (t, tail)) : readToken c (cs ++ rest) = .ok (t, tail ++ rest) := by
  have heq : rest.head? ≠ some '=' := h.head?_ne (by decide)
  have hgt : rest.head? ≠ some '>' := h.head?_ne (by decide)
  have hwords := span_wordChars_append h cs
  revert hread
  fun_cases readToken c cs <;> intro hread
  -- the operators that could have been longer
  case case9 hc hcseq hcsgt =>
    subst hc
    cases hread
    simp only [readToken, Char.reduceEq, if_false, if_true]
    split
    · rename_i hcs
      exact (append_ne_cons heq hcseq _ hcs).elim
    · rename_i hcs
      exact (append_ne_cons hgt hcsgt _ hcs).elim
    · rfl
  case case11 hc hcseq =>
    subst hc
    cases hread
    simp only [readToken, Char.reduceEq, if_false, if_true]
    split
    · rename_i hcs
      exact (append_ne_cons heq hcseq _ hcs).elim
    · rfl
  case case12 hc _ _ htext =>
    subst hc
    cases hread
    simp only [readToken, Char.reduceEq, if_false, if_true, readText_append h htext]
  case case15 hc hne =>
    subst hc
    cases hread
    simp only [readToken, Char.reduceEq, if_false, if_true, hwords.1, hwords.2]
  case case16 hc digits tail' hspan =>
    subst hc
    show numberToken ('-' :: (spanNumber (cs ++ rest)).1) (spanNumber (cs ++ rest)).2 = _
    rw [spanNumber_append_of_apart h, hspan]
    exact numberToken_append hread
  case case17 hdigit digits tail' hspan =>
    unfold readToken
    simp only [*, if_true, if_false]
    rw [← List.cons_append, spanNumber_append_of_apart h, hspan]
    exact numberToken_append hread
  case case18 hstart =>
    cases hread
    unfold readToken
    simp only [*, if_true, if_false, Bool.false_eq_true]
  all_goals first
    | cases hread; done
    | subst_vars; cases hread; rfl

end Tokens

/-! ## Whole texts -/

/-- The token at the same place of a text that goes on with more. -/
def Lexeme.before (rest : List Char) (l : Lexeme) : Lexeme :=
  { l with start := l.start ++ rest }

theorem tokens_before (rest : List Char) (lexemes : List Lexeme) :
    (lexemes.map (Lexeme.before rest)).map Lexeme.token = lexemes.map Lexeme.token := by
  rw [List.map_map]
  rfl

/-- **Texts side by side are cut one after the other**: the tokens of a text in front of text that is
apart from it are what they are alone. -/
theorem lex_append {cs rest : List Char} {lexemes : List Lexeme} (hlex : lex cs = .ok lexemes)
    (h : Apart rest) :
    lex (cs ++ rest) = (lex rest).map (lexemes.map (Lexeme.before rest) ++ ·) := by
  fun_induction lex cs generalizing lexemes with
  | case1 =>
    cases hlex
    rw [List.nil_append]
    cases lex rest <;> rfl
  | case2 c cs hc ih =>
    rw [List.cons_append, lex, if_pos hc, ih hlex]
  | case3 => cases hlex
  | case4 c cs hc token tail hread ih =>
    obtain ⟨later, hlater, rfl⟩ := Except.map_eq_ok_iff.1 hlex
    have hagain := readToken_append h hread
    rw [List.cons_append, lex_cons_of_not_blank (Bool.eq_false_iff.2 hc), hagain]
    dsimp only
    rw [ih hlater]
    cases lex rest <;> rfl

end QueryTemplate.Filter
