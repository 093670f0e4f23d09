import QueryTemplate.Proofs.Juxtaposition
import QueryTemplate.Proofs.Lexing
import QueryTemplate.Sql.Token
import Mathlib.Data.List.Infix

/-!
# Cutting SQL text in two

The lexer of SQL text looks at most one character past the token it takes, so a text that ends with a
token is cut in the same way wherever a delimiter follows.

* **`Steady`**: what a reader of single tokens takes off a text, it takes off with delimited text
  behind it as well. Each reader of the lexer is (`steady_readNumber`, `steady_readWord`, …).
* **`lex_cons`**: the lexer without its bound on the number of tokens.
* **`lex_append`**: a text without open ends (`Tidy`) is cut apart from what follows it.
-/

namespace QueryTemplate.Sql

open QueryTemplate.Filter (Delimited isDelimiter eq_of_isDelimiter span_append_of_stop)

/-! ## Runs of characters -/

theorem span_before_delimited {p : Char → Bool} (hp : ∀ d, isDelimiter d = true → p d = false)
    (cs : List Char) {more : List Char} (h : Delimited more) :
    (cs ++ more).takeWhile p = cs.takeWhile p
      ∧ (cs ++ more).dropWhile p = cs.dropWhile p ++ more := by
  refine span_append_of_stop (fun d ds hd => ?_) cs
  subst hd
  exact hp d h

theorem isWordPart_of_delimiter (d : Char) (h : isDelimiter d = true) : isWordPart d = false := by
  rcases eq_of_isDelimiter h with rfl | rfl | rfl <;> rfl

theorem isNumeric_of_delimiter (d : Char) (h : isDelimiter d = true) :
    Text.isNumeric d = false := by
  rcases eq_of_isDelimiter h with rfl | rfl | rfl <;> rfl

theorem isNamePart_of_delimiter (d : Char) (h : isDelimiter d = true) :
    (Text.isAlphanumeric d || decide (d = '_')) = false := by
  rcases eq_of_isDelimiter h with rfl | rfl | rfl <;> rfl

theorem Delimited.ne {d c : Char} {more : List Char} (h : Delimited (d :: more))
    (hc : isDelimiter c = false) : d ≠ c := by
  rintro rfl
  rw [show isDelimiter d = true from h] at hc
  cases hc

/-- `Steady read`: what is left is the end of the text, and delimited text behind the text changes
nothing but that it is left too. -/
def Steady {α : Type} (read : List Char → α × List Char) : Prop :=
  ∀ cs, (read cs).2 <:+ cs
    ∧ ∀ more, Delimited more → read (cs ++ more) = ((read cs).1, (read cs).2 ++ more)

theorem steady_readWord (start : List Char) : Steady (readWord start) := by
  refine fun cs => ⟨List.dropWhile_suffix _, fun more hmore => ?_⟩
  obtain ⟨htake, hdrop⟩ := span_before_delimited isWordPart_of_delimiter cs hmore
  rw [readWord, htake, hdrop]
  rfl

/-! ## Numbers -/

/-- Text that no number goes on with. -/
def EndsNumber (more : List Char) : Prop :=
  ∀ d cs, more = d :: cs → d.isDigit = false ∧ d ∉ ['.', 'e', 'E', '+', '-', 'x', 'L']

theorem endsNumber_of_delimited {more : List Char} (h : Delimited more) : EndsNumber more := by
  rintro d cs rfl
  rcases eq_of_isDelimiter h with rfl | rfl | rfl <;> decide

theorem EndsNumber.ne {d c : Char} {more : List Char} (h : EndsNumber (d :: more))
    (hc : c ∈ ['.', 'e', 'E', '+', '-', 'x', 'L']) : d ≠ c := by
  rintro rfl
  exact (h d more rfl).2 hc

theorem EndsNumber.span_digits {more : List Char} (h : EndsNumber more) (cs : List Char) :
    (cs ++ more).takeWhile Char.isDigit = cs.takeWhile Char.isDigit
      ∧ (cs ++ more).dropWhile Char.isDigit = cs.dropWhile Char.isDigit ++ more :=
  span_append_of_stop (fun d ds hd => (h d ds hd).1) cs

theorem suffix_spanDecimal (cs : List Char) : (spanDecimal cs).2 <:+ cs := by
  have hsuffix : cs.dropWhile Char.isDigit <:+ cs := List.dropWhile_suffix _
  unfold spanDecimal
  split
  · rename_i rest h
    exact (List.dropWhile_suffix _).trans ((List.suffix_cons '.' rest).trans (h ▸ hsuffix))
  · exact hsuffix

theorem spanDecimal_in_front {more : List Char} (hmore : EndsNumber more) (cs : List Char) :
    spanDecimal (cs ++ more) = ((spanDecimal cs).1, (spanDecimal cs).2 ++ more) := by
  obtain ⟨htake, hdrop⟩ := hmore.span_digits cs
  unfold spanDecimal
  rw [htake, hdrop]
  cases cs.dropWhile Char.isDigit with
  | nil =>
    -- the digits end where the text ends, and no point follows
    cases more with
    | nil => rfl
    | cons d more => simp [hmore.ne (c := '.') (by decide)]
  | cons d rest =>
    by_cases hd : d = '.'
    · subst hd
      obtain ⟨htake, hdrop⟩ := hmore.span_digits rest
      simp only [List.cons_append, htake, hdrop]
    · simp [hd]

/-- The digits of an exponent come after its letter and its sign, if it has one. -/
theorem spanExponent_of_sign {e : Char} (he : e = 'e' ∨ e = 'E') {sign digits : List Char}
    (hsign : (∃ c, sign = [c] ∧ (c = '+' ∨ c = '-'))
      ∨ sign = [] ∧ ∀ c, digits.head? = some c → ¬ (c = '+' ∨ c = '-')) :
    spanExponent (e :: (sign ++ digits)) = match digits.takeWhile Char.isDigit with
      | [] => ([], e :: (sign ++ digits))
      | ds => (e :: sign ++ ds, digits.dropWhile Char.isDigit) := by
  rcases hsign with ⟨c, rfl, hc⟩ | ⟨rfl, hdigits⟩
  · cases hspan : digits.takeWhile Char.isDigit <;>
      simp only [spanExponent, List.cons_append, List.nil_append, if_pos he, if_pos hc, hspan]
  · cases digits with
    | nil => simp only [spanExponent, List.nil_append, List.takeWhile_nil, if_pos he]
    | cons c rest =>
      cases hspan : (c :: rest).takeWhile Char.isDigit <;>
        simp only [spanExponent, List.cons_append, List.nil_append, if_pos he,
          if_neg (hdigits c rfl), hspan]

theorem EndsNumber.not_sign {cs more : List Char} (h : EndsNumber more)
    (hcs : ∀ c, cs.head? = some c → ¬ (c = '+' ∨ c = '-')) :
    ∀ c, (cs ++ more).head? = some c → ¬ (c = '+' ∨ c = '-') := by
  intro c hc
  cases cs with
  | cons d cs => exact hcs c hc
  | nil =>
    cases more with
    | nil => cases hc
    | cons d more =>
      cases hc
      exact not_or.2 ⟨h.ne (by decide), h.ne (by decide)⟩

theorem spanExponent_in_front_of_sign {e : Char} (he : e = 'e' ∨ e = 'E') {sign digits : List Char}
    (hsign : (∃ c, sign = [c] ∧ (c = '+' ∨ c = '-'))
      ∨ sign = [] ∧ ∀ c, digits.head? = some c → ¬ (c = '+' ∨ c = '-')) :
    (spanExponent (e :: (sign ++ digits))).2 <:+ e :: (sign ++ digits)
      ∧ ∀ more, EndsNumber more → spanExponent (e :: (sign ++ digits) ++ more)
        = ((spanExponent (e :: (sign ++ digits))).1,
            (spanExponent (e :: (sign ++ digits))).2 ++ more) := by
  constructor
  · rw [spanExponent_of_sign he hsign]
    split
    · exact List.suffix_rfl
    · exact ((List.dropWhile_suffix _).trans (List.suffix_append sign digits)).trans
        (List.suffix_cons e _)
  · intro more hmore
    obtain ⟨htake, hdrop⟩ := hmore.span_digits digits
    have hagain : (∃ c, sign = [c] ∧ (c = '+' ∨ c = '-'))
        ∨ sign = [] ∧ ∀ c, (digits ++ more).head? = some c → ¬ (c = '+' ∨ c = '-') :=
      hsign.imp_right fun ⟨hnil, hdigits⟩ => ⟨hnil, hmore.not_sign hdigits⟩
    rw [spanExponent_of_sign he hsign, List.cons_append, List.append_assoc,
      spanExponent_of_sign he hagain, htake, hdrop]
    split <;> simp

theorem spanExponent_in_front (cs : List Char) : (spanExponent cs).2 <:+ cs
    ∧ ∀ more, EndsNumber more → spanExponent (cs ++ more) = ((spanExponent cs).1, (spanExponent cs).2 ++ more) := by
  cases cs with
  | nil =>
    refine ⟨List.suffix_rfl, fun more hmore => ?_⟩
    cases more with
    | nil => rfl
    | cons d more =>
      have hd : ¬ (d = 'e' ∨ d = 'E') := not_or.2 ⟨hmore.ne (by decide), hmore.ne (by decide)⟩
      simp only [List.nil_append, spanExponent, if_neg hd]
  | cons e rest =>
    by_cases he : e = 'e' ∨ e = 'E'
    · cases rest with
      | nil => exact spanExponent_in_front_of_sign he (.inr ⟨rfl, fun _ h => by cases h⟩)
      | cons c rest =>
        by_cases hc : c = '+' ∨ c = '-'
        · exact spanExponent_in_front_of_sign he (.inl ⟨c, rfl, hc⟩)
        · have hdigits : ∀ d, (c :: rest).head? = some d → ¬ (d = '+' ∨ d = '-') := by
            rintro d hd
            cases hd
            exact hc
          exact spanExponent_in_front_of_sign he (.inr ⟨rfl, hdigits⟩)
    · refine ⟨?_, fun more _ => ?_⟩
      · simp only [spanExponent, if_neg he]
        exact List.suffix_rfl
      · simp only [List.cons_append, spanExponent, if_neg he]

theorem suffix_readNumber (cs : List Char) : (readNumber cs).2 <:+ (spanDecimal cs).2 := by
  unfold readNumber
  simp only
  split
  · exact List.suffix_rfl
  split
  · exact List.tail_suffix _
  have hexponent := (spanExponent_in_front (spanDecimal cs).2).1
  split
  · rename_i rest h
    exact (List.suffix_cons 'L' rest).trans (h ▸ hexponent)
  · exact hexponent

/-- **A number is read as it is in front of text that it does not go on with.** -/
theorem readNumber_in_front {more : List Char} (hmore : EndsNumber more) (cs : List Char) :
    readNumber (cs ++ more) = ((readNumber cs).1, (readNumber cs).2 ++ more) := by
  have hdecimal := spanDecimal_in_front hmore cs
  rcases hspan : spanDecimal cs with ⟨digits, rest⟩
  rw [hspan] at hdecimal
  have hexponent := (spanExponent_in_front rest).2 more hmore
  rcases hspan' : spanExponent rest with ⟨exponent, last⟩
  rw [hspan'] at hexponent
  have hx : (rest ++ more).head? = some 'x' ↔ rest.head? = some 'x' := by
    cases rest with
    | cons d rest => rfl
    | nil =>
      cases more with
      | nil => rfl
      | cons d more => simp [hmore.ne (c := 'x') (by decide)]
  simp only [readNumber, hspan, hspan', hdecimal, hexponent, hx]
  by_cases hperiod : digits = ['.']
  · simp only [if_pos hperiod]
  by_cases hzero : digits = ['0'] ∧ rest.head? = some 'x'
  · obtain ⟨rest, rfl⟩ := List.head?_eq_some_iff.1 hzero.2
    simp only [if_neg hperiod, if_pos hzero]
    rfl
  simp only [if_neg hperiod, if_neg hzero]
  cases last with
  | nil =>
    cases more with
    | nil => rfl
    | cons d more => simp [hmore.ne (c := 'L') (by decide)]
  | cons d last =>
    by_cases hd : d = 'L'
    · subst hd
      rfl
    · simp [hd]

theorem steady_readNumber : Steady readNumber :=
  fun cs => ⟨(suffix_readNumber cs).trans (suffix_spanDecimal cs),
    fun _ hmore => readNumber_in_front (endsNumber_of_delimited hmore) cs⟩

/-- A number takes at least the digit or the point that it starts with. -/
theorem suffix_readNumber_cons {c : Char} (hc : c.isDigit = true ∨ c = '.') (cs : List Char) :
    (readNumber (c :: cs)).2 <:+ cs := by
  refine (suffix_readNumber _).trans ?_
  unfold spanDecimal
  by_cases hdigit : c.isDigit = true
  · have hsuffix : cs.dropWhile Char.isDigit <:+ cs := List.dropWhile_suffix _
    rw [List.dropWhile_cons_of_pos hdigit]
    split
    · rename_i rest h
      exact (List.dropWhile_suffix _).trans ((List.suffix_cons '.' rest).trans (h ▸ hsuffix))
    · exact hsuffix
  · rw [List.dropWhile_cons_of_neg hdigit, hc.resolve_left hdigit]
    exact List.dropWhile_suffix _

/-! ## Quotations and comments -/

theorem readQuoted_append {quote : Char} {cs s rest : List Char}
    (h : readQuoted quote cs = some (s, rest)) :
    rest <:+ cs ∧ ∀ more, more.head? ≠ some quote →
      readQuoted quote (cs ++ more) = some (s, rest ++ more) := by
  fun_induction readQuoted quote cs generalizing s with
  | case1 => cases h
  | case2 c cs hc ih =>
    obtain ⟨⟨s', r⟩, hr, he⟩ := Option.map_eq_some_iff.1 h
    cases he
    obtain ⟨hsuffix, hagain⟩ := ih hr
    refine ⟨hsuffix.trans (List.suffix_cons c cs), fun more hmore => ?_⟩
    rw [List.cons_append, readQuoted.eq_def]
    simp only [if_pos hc, hagain more hmore]
    rfl
  | case3 c hc =>
    cases h
    refine ⟨List.nil_suffix, fun more hmore => ?_⟩
    cases more with
    | nil => simp only [List.cons_append, List.nil_append, readQuoted, if_neg hc]
    | cons d more =>
      have hd : d ≠ quote := fun hd => hmore (by rw [hd]; rfl)
      simp only [List.cons_append, List.nil_append, readQuoted, if_neg hc, if_neg hd]
  | case4 c hc rest' ih =>
    obtain ⟨⟨s', r⟩, hr, he⟩ := Option.map_eq_some_iff.1 h
    cases he
    obtain ⟨hsuffix, hagain⟩ := ih hr
    refine ⟨hsuffix.trans ((List.suffix_cons quote rest').trans (List.suffix_cons c _)),
      fun more hmore => ?_⟩
    simp only [List.cons_append, readQuoted, if_neg hc, if_true, hagain more hmore]
    rfl
  | case5 c hc d rest' hd =>
    cases h
    refine ⟨List.suffix_cons c _, fun more _ => ?_⟩
    simp only [List.cons_append, readQuoted, if_neg hc, if_neg hd]

theorem skipComment_append {depth : Nat} {before : Char} {cs rest : List Char}
    (h : skipComment depth before cs = some rest) :
    rest <:+ cs ∧ ∀ more, skipComment depth before (cs ++ more) = some (rest ++ more) := by
  fun_induction skipComment depth before cs with
  | case1 => cases h
  | case2 depth before c cs hc ih =>
    obtain ⟨hsuffix, hagain⟩ := ih h
    refine ⟨hsuffix.trans (List.suffix_cons c cs), fun more => ?_⟩
    simp only [List.cons_append, skipComment, if_pos hc]
    exact hagain more
  | case3 before c cs hc hend =>
    cases h
    refine ⟨List.suffix_cons c _, fun more => ?_⟩
    simp only [List.cons_append, skipComment, if_neg hc, if_pos hend]
  | case4 before c cs hc hend depth ih =>
    obtain ⟨hsuffix, hagain⟩ := ih h
    refine ⟨hsuffix.trans (List.suffix_cons c cs), fun more => ?_⟩
    simp only [List.cons_append, skipComment, if_neg hc, if_pos hend]
    exact hagain more
  | case5 depth before c cs hc hend ih =>
    obtain ⟨hsuffix, hagain⟩ := ih h
    refine ⟨hsuffix.trans (List.suffix_cons c cs), fun more => ?_⟩
    simp only [List.cons_append, skipComment, if_neg hc, if_neg hend]
    exact hagain more

/-! ## Symbols -/

/-- The characters that may end an operator of two. -/
theorem mem_of_pairSymbol? {c d : Char} {s : Symbol} (h : pairSymbol? c d = some s) : d ∈ [':', '=', '>', '|'] := by
  unfold pairSymbol? at h
  split at h <;> first | decide | cases h

theorem otherAfter_subset (c : Char) : otherAfter c ⊆ ['>', '=', '<', '@', '/', '&'] := by
  unfold otherAfter
  split_ifs <;> decide

theorem pairSymbol?_of_delimiter (c : Char) {d : Char} (h : isDelimiter d = true) :
    pairSymbol? c d = none ∧ d ∉ otherAfter c := by
  constructor
  · refine Option.eq_none_iff_forall_not_mem.2 fun s hs => ?_
    have hmem := mem_of_pairSymbol? hs
    rcases eq_of_isDelimiter h with rfl | rfl | rfl <;> exact absurd hmem (by decide)
  · intro hd
    have hmem := otherAfter_subset c hd
    rcases eq_of_isDelimiter h with rfl | rfl | rfl <;> exact absurd hmem (by decide)

theorem steady_readSymbol (c : Char) : Steady (readSymbol c) := by
  intro cs
  cases cs with
  | nil =>
    refine ⟨List.suffix_rfl, fun more hmore => ?_⟩
    cases more with
    | nil => rfl
    | cons d more =>
      obtain ⟨hpair, hother⟩ := pairSymbol?_of_delimiter c (d := d) hmore
      simp only [List.nil_append, readSymbol, hpair, if_neg hother]
  | cons d cs =>
    cases hpair : pairSymbol? c d with
    | some s =>
      refine ⟨?_, fun more _ => ?_⟩
      · simp only [readSymbol, hpair]
        exact List.suffix_cons d cs
      · simp only [List.cons_append, readSymbol, hpair]
    | none =>
      by_cases hd : d ∈ otherAfter c
      · refine ⟨?_, fun more _ => ?_⟩
        · simp only [readSymbol, hpair, if_pos hd]
          exact List.suffix_cons d cs
        · simp only [List.cons_append, readSymbol, hpair, if_pos hd]
      · refine ⟨?_, fun more _ => ?_⟩
        · simp only [readSymbol, hpair, if_neg hd]
          exact List.suffix_rfl
        · simp only [List.cons_append, readSymbol, hpair, if_neg hd]

/-- What is no word and no literal is a symbol, if any rule mentions it. -/
theorem readSymbol_cases (c : Char) (cs : List Char) :
    (∃ s, (readSymbol c cs).1 = .symbol s) ∨ (readSymbol c cs).1 = .otherOperator := by
  fun_cases readSymbol c cs
  case case1 single | case4 single _ _ _ _ =>
    dsimp only [single]
    cases singleSymbol? c with
    | none => exact .inr rfl
    | some s => exact .inl ⟨s, rfl⟩
  case case2 => exact .inl ⟨_, rfl⟩
  case case3 => exact .inr rfl

/-- What starts with an at sign is read steadily if the text does not end in one. -/
theorem readAt_append (cs : List Char) :
    (readAt cs).2 <:+ cs ∧ (¬ ['@'] <:+ '@' :: cs → ∀ more, Delimited more →
      readAt (cs ++ more) = ((readAt cs).1, (readAt cs).2 ++ more)) := by
  fun_cases readAt cs with
  | case1 rest => exact ⟨List.suffix_cons _ _, fun _ _ _ => rfl⟩
  | case2 rest => exact ⟨List.suffix_cons _ _, fun _ _ _ => rfl⟩
  | case3 rest => exact ⟨List.suffix_cons _ _, fun _ _ _ => rfl⟩
  | case4 c rest hc =>
    obtain ⟨hsuffix, hagain⟩ := steady_readWord ['@', '@', c] rest
    refine ⟨hsuffix.trans ((List.suffix_cons c rest).trans (List.suffix_cons '@' _)),
      fun _ more hmore => ?_⟩
    simp only [List.cons_append, readAt, hagain more hmore]
  | case5 => exact ⟨List.nil_suffix, fun h => absurd (List.suffix_cons '@' ['@']) h⟩
  | case6 c rest hgt hquestion _ hat hend hc =>
    have hne : c ≠ '@' := by
      rintro rfl
      cases rest with
      | nil => exact hend rfl rfl
      | cons d rest => exact hat d rest rfl rfl
    refine ⟨List.suffix_rfl, fun _ more _ => ?_⟩
    simp [readAt, hne, hc]
  | case7 c rest hgt hquestion _ hat hend hc =>
    have hne : c ≠ '@' := by
      rintro rfl
      cases rest with
      | nil => exact hend rfl rfl
      | cons d rest => exact hat d rest rfl rfl
    obtain ⟨hsuffix, hagain⟩ := steady_readWord ['@', c] rest
    refine ⟨hsuffix.trans (List.suffix_cons c rest), fun _ more hmore => ?_⟩
    simp [readAt, hne, hc, hagain more hmore]
  | case8 => exact ⟨List.suffix_rfl, fun h => absurd List.suffix_rfl h⟩

theorem readHash_append (cs : List Char) :
    (readHash cs).2 <:+ cs ∧ (¬ ['#'] <:+ '#' :: cs → ∀ more, Delimited more →
      readHash (cs ++ more) = ((readHash cs).1, (readHash cs).2 ++ more)) := by
  fun_cases readHash cs with
  | case1 rest => exact ⟨List.suffix_cons _ _, fun _ _ _ => rfl⟩
  | case2 rest => exact ⟨List.suffix_cons _ _, fun _ _ _ => rfl⟩
  | case3 rest => exact ⟨List.suffix_rfl, fun _ _ _ => rfl⟩
  | case4 c rest =>
    obtain ⟨hsuffix, hagain⟩ := steady_readWord ['#', c] rest
    refine ⟨hsuffix.trans (List.suffix_cons c rest), fun _ more hmore => ?_⟩
    simp only [List.cons_append, readHash, hagain more hmore]
  | case5 => exact ⟨List.suffix_rfl, fun h => absurd List.suffix_rfl h⟩

/-! ## One token -/

/-- A text that nothing behind it gets into: it has no dashes that start a comment, and does not end
in a sign that takes the next character into a word. -/
structure Tidy (cs : List Char) : Prop where
  noDashes : ¬ ['-', '-'] <:+: cs
  noAt : ¬ ['@'] <:+ cs
  noHash : ¬ ['#'] <:+ cs

instance (cs : List Char) : Decidable (Tidy cs) :=
  decidable_of_iff (¬ ['-', '-'] <:+: cs ∧ ¬ ['@'] <:+ cs ∧ ¬ ['#'] <:+ cs)
    ⟨fun ⟨hd, ha, hh⟩ => ⟨hd, ha, hh⟩, fun ⟨hd, ha, hh⟩ => ⟨hd, ha, hh⟩⟩

theorem Tidy.of_suffix {cs rest : List Char} (h : Tidy cs) (hrest : rest <:+ cs) : Tidy rest :=
  ⟨fun hd => h.noDashes (hd.trans hrest.isInfix), fun ha => h.noAt (ha.trans hrest),
    fun hh => h.noHash (hh.trans hrest)⟩

theorem head?_ne_of_delimited {more : List Char} (h : Delimited more) {c : Char}
    (hc : isDelimiter c = false) : more.head? ≠ some c := by
  cases more with
  | nil => exact nofun
  | cons d more => exact fun hd => Delimited.ne h hc (Option.some.inj hd)

theorem head?_append_of_delimited {cs more : List Char} (h : Delimited more) {c : Char}
    (hc : isDelimiter c = false) : (cs ++ more).head? = some c ↔ cs.head? = some c := by
  cases cs with
  | nil => exact iff_of_false (head?_ne_of_delimited h hc) nofun
  | cons d cs => rfl

theorem startsMarked_append (c : Char) (cs : List Char) {more : List Char} (h : Delimited more) :
    startsMarked c (cs ++ more) = startsMarked c cs := by
  cases cs with
  | cons d cs =>
    simp only [List.cons_append, startsMarked, head?_append_of_delimited h (c := '\'') rfl]
  | nil =>
    cases more with
    | nil => rfl
    | cons d more =>
      have hquote := Delimited.ne h (c := '\'') rfl
      have hdouble := Delimited.ne h (c := '"') rfl
      have hmark := Delimited.ne h (c := '&') rfl
      simp [startsMarked, hquote, hdouble, hmark]

/-- Behind its marks, the literal is a quotation. -/
theorem readMarked_eq {c : Char} {cs : List Char} (h : startsMarked c cs = true) :
    ∃ front quote ds, cs = front ++ quote :: ds ∧ isDelimiter quote = false
      ∧ ∀ more, readMarked (cs ++ more)
          = (readQuoted quote (ds ++ more)).map fun p => (.otherLiteral, p.2) := by
  cases cs with
  | nil => cases h
  | cons d cs =>
    simp only [startsMarked, Bool.or_eq_true, Bool.and_eq_true, decide_eq_true_eq] at h
    rcases h with (⟨rfl, -⟩ | ⟨rfl, -⟩) | ⟨⟨rfl, -⟩, hquote⟩
    · exact ⟨[], _, cs, rfl, rfl, fun _ => rfl⟩
    · exact ⟨[], _, cs, rfl, rfl, fun _ => rfl⟩
    · obtain ⟨ds, rfl⟩ := List.head?_eq_some_iff.1 hquote
      exact ⟨['&'], _, ds, rfl, rfl, fun _ => rfl⟩

/-- A token that is a quotation ends with it. -/
theorem readQuoted_map_append {quote : Char} {f : List Char → Token} {cs rest : List Char} {t : Token}
    (hquote : isDelimiter quote = false)
    (h : (readQuoted quote cs).map (fun p => (f p.1, p.2)) = some (t, rest)) :
    rest <:+ cs ∧ ∀ more, Delimited more →
      (readQuoted quote (cs ++ more)).map (fun p => (f p.1, p.2)) = some (t, rest ++ more) := by
  obtain ⟨⟨s, r⟩, hr, he⟩ := Option.map_eq_some_iff.1 h
  cases he
  obtain ⟨hsuffix, hagain⟩ := readQuoted_append hr
  refine ⟨hsuffix, fun more hmore => ?_⟩
  rw [hagain more (head?_ne_of_delimited hmore hquote)]
  rfl

/-- **A token is read as it is in front of delimited text.** -/
theorem readToken_append {c : Char} {cs rest : List Char} {t : Token}
    (h : readToken c cs = some (t, rest)) :
    rest <:+ cs ∧ (Tidy (c :: cs) → ∀ more, Delimited more →
      readToken c (cs ++ more) = some (t, rest ++ more)) := by
  revert h
  fun_cases readToken c cs <;> intro h
  case case1 hc =>
    subst hc
    obtain ⟨hsuffix, hagain⟩ := readQuoted_map_append (f := fun s => .text (String.ofList s)) rfl h
    refine ⟨hsuffix, fun _ more hmore => ?_⟩
    simp only [readToken, if_true]
    exact hagain more hmore
  case case2 hc hquote =>
    have hdelimiter : isDelimiter c = false := by
      rcases hquote with rfl | rfl <;> rfl
    obtain ⟨hsuffix, hagain⟩ :=
      readQuoted_map_append (f := fun s => .word ⟨String.ofList s, some c⟩ none) hdelimiter h
    refine ⟨hsuffix, fun _ more hmore => ?_⟩
    simp only [readToken, if_neg hc, if_pos hquote]
    exact hagain more hmore
  case case3 hc hquote hnumber =>
    have hread := Option.some.inj h
    obtain ⟨_, hagain⟩ := steady_readNumber (c :: cs)
    have hsuffix := suffix_readNumber_cons hnumber cs
    rw [hread] at hagain hsuffix
    refine ⟨hsuffix, fun _ more hmore => ?_⟩
    simp only [readToken, if_neg hc, if_neg hquote, if_pos hnumber]
    exact congrArg some (hagain more hmore)
  case case4 hc hquote hnumber hmarked =>
    obtain ⟨front, quote, ds, hcs, hdelimiter, hread⟩ := readMarked_eq hmarked
    have hnone := hread []
    rw [List.append_nil, List.append_nil, h] at hnone
    obtain ⟨hsuffix, hagain⟩ := readQuoted_map_append (f := fun _ => .otherLiteral) hdelimiter hnone.symm
    have hds : ds <:+ cs := ⟨front ++ [quote], by rw [hcs, List.append_assoc]; rfl⟩
    refine ⟨hsuffix.trans hds, fun _ more hmore => ?_⟩
    simp only [readToken, if_neg hc, if_neg hquote, if_neg hnumber, startsMarked_append c cs hmore,
      if_pos hmarked, hread]
    exact hagain more hmore
  case case5 hc hquote hnumber hmarked hat =>
    have hread := Option.some.inj h
    obtain ⟨hsuffix, hagain⟩ := readAt_append cs
    rw [hread] at hsuffix hagain
    refine ⟨hsuffix, fun htidy more hmore => ?_⟩
    have hend : ¬ ['@'] <:+ '@' :: cs := hat ▸ htidy.noAt
    simp only [readToken, if_neg hc, if_neg hquote, if_neg hnumber,
      startsMarked_append c cs hmore, if_neg hmarked, if_pos hat, hagain hend more hmore]
  case case6 hc hquote hnumber hmarked hat hhash =>
    have hread := Option.some.inj h
    obtain ⟨hsuffix, hagain⟩ := readHash_append cs
    rw [hread] at hsuffix hagain
    refine ⟨hsuffix, fun htidy more hmore => ?_⟩
    have hend : ¬ ['#'] <:+ '#' :: cs := hhash ▸ htidy.noHash
    simp only [readToken, if_neg hc, if_neg hquote, if_neg hnumber,
      startsMarked_append c cs hmore, if_neg hmarked, if_neg hat, if_pos hhash,
      hagain hend more hmore]
  case case7 => cases h
  case case8 hc hquote hnumber hmarked hat hhash hdollar name hname =>
    cases h
    refine ⟨List.dropWhile_suffix _, fun _ more hmore => ?_⟩
    obtain ⟨htake, hdrop⟩ := span_before_delimited isNamePart_of_delimiter cs hmore
    simp only [readToken, if_neg hc, if_neg hquote, if_neg hnumber,
      startsMarked_append c cs hmore, if_neg hmarked, if_neg hat, if_neg hhash, if_pos hdollar,
      htake, hdrop]
    -- a second dollar sign would have to stand where the name ends
    split
    · rename_i rest hrest
      obtain ⟨rest', hdropped⟩ := List.head?_eq_some_iff.1
        ((head?_append_of_delimited hmore (c := '$') rfl).1 (List.head?_eq_some_iff.2 ⟨rest, hrest⟩))
      exact absurd hdropped (hname rest')
    · rfl
  case case9 hc hquote hnumber hmarked hat hhash hdollar hplaceholder =>
    cases h
    refine ⟨List.dropWhile_suffix _, fun _ more hmore => ?_⟩
    obtain ⟨htake, hdrop⟩ := span_before_delimited isNumeric_of_delimiter cs hmore
    simp only [readToken, if_neg hc, if_neg hquote, if_neg hnumber,
      startsMarked_append c cs hmore, if_neg hmarked, if_neg hat, if_neg hhash, if_neg hdollar,
      if_pos hplaceholder, htake, hdrop]
  case case10 hc hquote hnumber hmarked hat hhash hdollar hplaceholder hword =>
    have hread := Option.some.inj h
    obtain ⟨hsuffix, hagain⟩ := steady_readWord [c] cs
    rw [hread] at hsuffix hagain
    refine ⟨hsuffix, fun _ more hmore => ?_⟩
    simp only [readToken, if_neg hc, if_neg hquote, if_neg hnumber,
      startsMarked_append c cs hmore, if_neg hmarked, if_neg hat, if_neg hhash, if_neg hdollar,
      if_neg hplaceholder, if_pos hword, hagain more hmore]
  case case11 hc hquote hnumber hmarked hat hhash hdollar hplaceholder hword =>
    have hread := Option.some.inj h
    obtain ⟨hsuffix, hagain⟩ := steady_readSymbol c cs
    rw [hread] at hsuffix hagain
    refine ⟨hsuffix, fun _ more hmore => ?_⟩
    simp only [readToken, if_neg hc, if_neg hquote, if_neg hnumber,
      startsMarked_append c cs hmore, if_neg hmarked, if_neg hat, if_neg hhash, if_neg hdollar,
      if_neg hplaceholder, if_neg hword, hagain more hmore]

/-! ## The whole text -/

/-- One round of the lexer, which takes a blank, a comment or a token; `later` cuts what is left. -/
def lexRound (later : List Char → Option (List Token)) (c : Char) (cs : List Char) :
    Option (List Token) :=
  if Text.isBlank c then later cs
  else if c = '-' ∧ cs.head? = some '-' then later (cs.dropWhile (· ≠ '\n'))
  else if c = '/' ∧ cs.head? = some '*' then (skipComment 0 ' ' cs.tail).bind later
  else (readToken c cs).bind fun p => (later p.2).map (p.1 :: ·)

theorem lexAtMost_succ (n : Nat) (c : Char) (cs : List Char) :
    lexAtMost (n + 1) (c :: cs) = lexRound (lexAtMost n) c cs := by
  unfold lexAtMost lexRound
  cases readToken c cs with
  | none => rfl
  | some p =>
    obtain ⟨t, rest⟩ := p
    cases h : lexAtMost n rest <;> simp [h]

/-- A round leaves an end of the text. -/
theorem lexRound_congr {later later' : List Char → Option (List Token)} {c : Char} {cs : List Char}
    (h : ∀ rest, rest <:+ cs → later rest = later' rest) :
    lexRound later c cs = lexRound later' c cs := by
  have hcomment : (skipComment 0 ' ' cs.tail).bind later = (skipComment 0 ' ' cs.tail).bind later' := by
    cases hskip : skipComment 0 ' ' cs.tail with
    | none => rfl
    | some rest => exact h rest ((skipComment_append hskip).1.trans (List.tail_suffix cs))
  have htoken : ((readToken c cs).bind fun p => (later p.2).map (p.1 :: ·))
      = (readToken c cs).bind fun p => (later' p.2).map (p.1 :: ·) := by
    cases hread : readToken c cs with
    | none => rfl
    | some p =>
      obtain ⟨t, rest⟩ := p
      simp only [Option.bind_some, h rest (readToken_append hread).1]
  unfold lexRound
  rw [h cs List.suffix_rfl, h _ (List.dropWhile_suffix _), hcomment, htoken]

/-- **Enough tokens are as good as any.** Every round takes a character, so a bound above the length
of the text makes no difference. -/
theorem lexAtMost_eq_of_length_le {m n : Nat} {cs : List Char} (hm : cs.length ≤ m)
    (hn : cs.length ≤ n) : lexAtMost m cs = lexAtMost n cs := by
  induction m generalizing n cs with
  | zero =>
    have hcs : cs = [] := List.eq_nil_of_length_eq_zero (by omega)
    rw [hcs, lexAtMost, lexAtMost]
  | succ m ih =>
    cases cs with
    | nil => rw [lexAtMost, lexAtMost]
    | cons c cs =>
      cases n with
      | zero => simp at hn
      | succ n =>
        rw [lexAtMost_succ, lexAtMost_succ]
        exact lexRound_congr fun rest hrest =>
          ih (hrest.length_le.trans (Nat.le_of_succ_le_succ hm))
            (hrest.length_le.trans (Nat.le_of_succ_le_succ hn))

theorem lex_cons (c : Char) (cs : List Char) : lex (c :: cs) = lexRound lex c cs := by
  show lexAtMost (cs.length + 1) (c :: cs) = _
  rw [lexAtMost_succ]
  exact lexRound_congr fun rest hrest =>
    lexAtMost_eq_of_length_le hrest.length_le (Nat.le_refl _)

/-- One round of the lexer skips something, or takes a token. -/
theorem cases_of_lex_cons {c : Char} {cs : List Char} {ts : List Token} (h : lex (c :: cs) = some ts) :
    (∃ rest, rest <:+ cs ∧ lex rest = some ts)
      ∨ ∃ t rest us, Text.isBlank c = false ∧ readToken c cs = some (t, rest) ∧ lex rest = some us
        ∧ ts = t :: us := by
  rw [lex_cons, lexRound] at h
  split at h
  · exact .inl ⟨cs, List.suffix_rfl, h⟩
  rename_i hblank
  split at h
  · exact .inl ⟨_, List.dropWhile_suffix _, h⟩
  split at h
  · obtain ⟨rest, hskip, hlex⟩ := Option.bind_eq_some_iff.1 h
    exact .inl ⟨rest, (skipComment_append hskip).1.trans (List.tail_suffix cs), hlex⟩
  · obtain ⟨⟨t, rest⟩, hread, hmap⟩ := Option.bind_eq_some_iff.1 h
    obtain ⟨us, hlex, rfl⟩ := Option.map_eq_some_iff.1 hmap
    exact .inr ⟨t, rest, us, Bool.eq_false_iff.2 hblank, hread, hlex, rfl⟩

/-- Every token of a text is read somewhere in it. -/
theorem exists_readToken_of_mem_lex {cs : List Char} {ts : List Token} (h : lex cs = some ts) {t : Token}
    (ht : t ∈ ts) : ∃ c ds rest, c :: ds <:+ cs ∧ readToken c ds = some (t, rest) := by
  induction hn : cs.length using Nat.strong_induction_on generalizing cs ts with
  | _ n ih =>
    cases cs with
    | nil =>
      cases h
      cases ht
    | cons c cs =>
      have hlater {rest : List Char} {us : List Token} (hrest : rest <:+ cs) (hus : lex rest = some us)
          (hmem : t ∈ us) : ∃ d ds rest, d :: ds <:+ c :: cs ∧ readToken d ds = some (t, rest) := by
        have hshorter : rest.length < n := by
          rw [← hn, List.length_cons]
          exact Nat.lt_succ_of_le hrest.length_le
        obtain ⟨d, ds, rest', hds, hread⟩ := ih rest.length hshorter hus hmem rfl
        exact ⟨d, ds, rest', (hds.trans hrest).trans (List.suffix_cons c cs), hread⟩
      rcases cases_of_lex_cons h with ⟨rest, hrest, hlex⟩ | ⟨t', rest, us, -, hread, hlex, rfl⟩
      · exact hlater hrest hlex ht
      rcases List.mem_cons.1 ht with rfl | hmem
      · exact ⟨c, cs, rest, List.suffix_rfl, hread⟩
      · exact hlater (readToken_append hread).1 hlex hmem

/-- **Tidy text is cut apart from what follows it**, and what follows it is cut as it is alone. -/
theorem lex_append {cs : List Char} {ts : List Token} (h : lex cs = some ts) (htidy : Tidy cs)
    {rest : List Char} (hrest : Delimited rest) : lex (cs ++ rest) = (lex rest).map (ts ++ ·) := by
  induction hn : cs.length using Nat.strong_induction_on generalizing cs ts with
  | _ n ih =>
    cases cs with
    | nil =>
      cases h
      exact Option.map_id'.symm
    | cons c cs =>
      have hlater : ∀ {ds vs}, ds <:+ cs → lex ds = some vs →
          lex (ds ++ rest) = (lex rest).map (vs ++ ·) := fun {ds vs} hds hvs =>
        ih ds.length (by rw [← hn, List.length_cons]; exact Nat.lt_succ_of_le hds.length_le)
          hvs (htidy.of_suffix (hds.trans (List.suffix_cons c cs))) rfl
      have hdashes : ¬ (c = '-' ∧ cs.head? = some '-') := by
        rintro ⟨rfl, hd⟩
        obtain ⟨ds, rfl⟩ := List.head?_eq_some_iff.1 hd
        exact htidy.noDashes ⟨[], ds, rfl⟩
      rw [lex_cons, lexRound] at h
      rw [List.cons_append, lex_cons, lexRound]
      simp only [head?_append_of_delimited hrest (c := '-') rfl,
        head?_append_of_delimited hrest (c := '*') rfl, if_neg hdashes] at h ⊢
      by_cases hblank : Text.isBlank c = true
      · rw [if_pos hblank] at h ⊢
        exact hlater List.suffix_rfl h
      rw [if_neg hblank] at h ⊢
      by_cases hcomment : c = '/' ∧ cs.head? = some '*'
      · rw [if_pos hcomment] at h ⊢
        obtain ⟨ds, rfl⟩ := List.head?_eq_some_iff.1 hcomment.2
        obtain ⟨later, hskip, hlex⟩ := Option.bind_eq_some_iff.1 h
        obtain ⟨hsuffix, hagain⟩ := skipComment_append hskip
        show (skipComment 0 ' ' (('*' :: ds).tail ++ rest)).bind lex = _
        rw [hagain rest]
        exact hlater (hsuffix.trans (List.suffix_cons '*' ds)) hlex
      rw [if_neg hcomment] at h ⊢
      obtain ⟨⟨t, later⟩, hread, hmap⟩ := Option.bind_eq_some_iff.1 h
      obtain ⟨vs, hlex, rfl⟩ := Option.map_eq_some_iff.1 hmap
      obtain ⟨hsuffix, hagain⟩ := readToken_append hread
      rw [hagain htidy rest hrest]
      show (lex (later ++ rest)).map (t :: ·) = _
      rw [hlater hsuffix hlex, Option.map_map]
      rfl

/-- A blank keeps tidy text apart from anything. -/
theorem lex_append_blank (text : String) {ts : List Token} (h : lex text.toList = some ts)
    (htidy : Tidy text.toList) (rest : List Char) :
    lex ((text ++ " ").toList ++ rest) = (lex rest).map (ts ++ ·) := by
  rw [String.toList_append, List.append_assoc]
  show lex (text.toList ++ ' ' :: rest) = _
  rw [lex_append h htidy (show Delimited (' ' :: rest) from rfl), lex_cons]
  rfl

/-! ## Chunks -/

/-- `Scans p ts`: in front of delimited text, the chunk `p` is cut into the tokens `ts`. -/
def Scans (p : List Char) (ts : List Token) : Prop :=
  ∀ rest us, Delimited rest → lex rest = some us → lex (p ++ rest) = some (ts ++ us)

/-- `Opens p ts`: in front of any text, the chunk `p` is cut into the tokens `ts`. -/
def Opens (p : List Char) (ts : List Token) : Prop :=
  ∀ rest us, lex rest = some us → lex (p ++ rest) = some (ts ++ us)

theorem Tidy.scans {p : List Char} (h : Tidy p) {ts : List Token} (hlex : lex p = some ts) :
    Scans p ts :=
  fun _ us hrest hus => by rw [lex_append hlex h hrest, hus, Option.map_some]

theorem Scans.lex {p : List Char} {ts : List Token} (h : Scans p ts) : lex p = some ts := by
  have hlex := h [] [] trivial rfl
  rwa [List.append_nil, List.append_nil] at hlex

theorem Opens.scans {p : List Char} {ts : List Token} (h : Opens p ts) : Scans p ts :=
  fun rest us _ hus => h rest us hus

theorem Opens.append {p q : List Char} {ts us : List Token} (hp : Opens p ts) (hq : Opens q us) :
    Opens (p ++ q) (ts ++ us) := by
  intro rest vs hvs
  rw [List.append_assoc, List.append_assoc]
  exact hp _ _ (hq rest vs hvs)

theorem Opens.append_scans {p q : List Char} {ts us : List Token} (hp : Opens p ts)
    (hq : Scans q us) : Scans (p ++ q) (ts ++ us) := by
  intro rest vs hrest hvs
  rw [List.append_assoc, List.append_assoc]
  exact hp _ _ (hq rest vs hrest hvs)

/-- A chunk in front of a delimited one. -/
theorem Scans.append {p q : List Char} {ts us : List Token} (hp : Scans p ts)
    (hq : Scans q us) (hdelimited : ∀ rest, Delimited rest → Delimited (q ++ rest)) :
    Scans (p ++ q) (ts ++ us) := by
  intro rest vs hrest hvs
  rw [List.append_assoc, List.append_assoc]
  exact hp _ _ (hdelimited rest hrest) (hq rest vs hrest hvs)

/-- A blank ends every chunk. -/
theorem Scans.blank {p : List Char} {ts : List Token} (h : Scans p ts) : Opens (p ++ [' ']) ts := by
  intro rest us hus
  rw [List.append_assoc]
  refine h _ us rfl ?_
  show Sql.lex (' ' :: rest) = _
  rw [lex_cons]
  exact hus

/-- No second character makes another symbol of a parenthesis. -/
theorem opens_opening : Opens "(".toList [.symbol .opening] := by
  intro rest us hus
  have hread : readToken '(' rest = some (.symbol .opening, rest) := by
    cases rest with
    | nil => rfl
    | cons d rest =>
      have hmarked : startsMarked '(' (d :: rest) = false := by
        simp [startsMarked, show '('.toLower = '(' from rfl]
      have hpair : pairSymbol? '(' d = none := by
        unfold pairSymbol?
        split <;> first | rfl | contradiction
      have hstart : isWordStart '(' = false := rfl
      simp [readToken, hmarked, hstart, readSymbol, hpair, otherAfter, singleSymbol?]
  show Sql.lex ('(' :: rest) = _
  rw [lex_cons]
  show (readToken '(' rest).bind _ = _
  rw [hread]
  show (lex rest).map _ = _
  rw [hus]
  rfl

end QueryTemplate.Sql
