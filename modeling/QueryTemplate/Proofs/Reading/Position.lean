import QueryTemplate.Proofs.Lexing
import QueryTemplate.Proofs.Reading.Rejection

/-!
# Where syntax errors point

An error carries a byte offset into the text. The tokens of a text start at different offsets, and its
end is at another one, so the offset names the one of them at which the reader stopped.

* **`pairwise_places`**: every token takes a character, so the places of the tokens and the end are
  all different (`nodup_offsets`).
* **`withEnd`**: the end of a text counts as a token of its own, which only the end of another text can
  agree with.
* **`parse_points_at_first_offence`**: the token at the reported offset is the first one at which the
  tokens cease to be the beginning of a condition.
-/

namespace QueryTemplate.Filter

/-! ## Places -/

/-- What is left of the text from each token on, and at its end. -/
def places (lexemes : List Lexeme) : List (List Char) :=
  lexemes.map Lexeme.start ++ [[]]

/-- The byte offsets of the tokens, and of the end of the text. -/
def offsets (text : String) (lexemes : List Lexeme) : List Nat :=
  (places lexemes).map fun rest => Text.byteLength text.toList - Text.byteLength rest

theorem byteLength_le_of_suffix {xs ys : List Char} (h : xs <:+ ys) :
    Text.byteLength xs ≤ Text.byteLength ys := by
  obtain ⟨front, rfl⟩ := h
  rw [Text.byteLength_append]
  exact Nat.le_add_left _ _

theorem suffix_of_mem_places {cs : List Char} {lexemes : List Lexeme} (h : lex cs = .ok lexemes)
    {rest : List Char} (hrest : rest ∈ places lexemes) : rest <:+ cs := by
  rcases List.mem_append.1 hrest with hstart | hend
  · obtain ⟨l, hl, rfl⟩ := List.mem_map.1 hstart
    exact start_suffix_of_lex h hl
  · rw [List.mem_singleton.1 hend]
    exact List.nil_suffix

/-- **Every token takes a character**, so less is left at each place than at the one before. -/
theorem pairwise_places {cs : List Char} {lexemes : List Lexeme} (h : lex cs = .ok lexemes) :
    (places lexemes).Pairwise fun a b => Text.byteLength b < Text.byteLength a := by
  fun_induction lex cs generalizing lexemes with
  | case1 =>
    cases h
    exact List.pairwise_singleton _ _
  | case2 c cs _ ih => exact ih h
  | case3 => cases h
  | case4 c cs _ token rest hread ih =>
    obtain ⟨later, hlater, rfl⟩ := Except.map_eq_ok_iff.1 h
    refine List.pairwise_cons.2 ⟨fun place hplace => ?_, ih hlater⟩
    have hle : Text.byteLength place ≤ Text.byteLength cs :=
      byteLength_le_of_suffix ((suffix_of_mem_places hlater hplace).trans (isSuffix_of_readToken hread))
    have hpos := c.utf8Size_pos
    show Text.byteLength place < Text.byteLength (c :: cs)
    rw [Text.byteLength_cons]
    omega

theorem nodup_offsets {text : String} {lexemes : List Lexeme} (h : lex text.toList = .ok lexemes) :
    (offsets text lexemes).Nodup := by
  refine List.pairwise_map.2 ((pairwise_places h).imp_of_mem fun {a b} ha _ hlt => ?_)
  have hle := byteLength_le_of_suffix (suffix_of_mem_places h ha)
  omega

theorem getElem?_places {lexemes : List Lexeme} {n : Nat} (hn : n ≤ lexemes.length) :
    (places lexemes)[lexemes.length - n]? = some (lastStart lexemes n) := by
  unfold places lastStart
  rcases Nat.eq_zero_or_pos n with rfl | hpos
  · simp
  · have hlt : lexemes.length - n < lexemes.length := by omega
    rw [List.getElem?_append_left (by simpa using hlt), List.drop_eq_getElem_cons hlt]
    simp [hlt]

/-! ## The end as a token -/

/-- The tokens of a text, and its end. -/
def withEnd (ts : List Token) : List (Option Token) :=
  ts.map some ++ [none]

theorem take_withEnd (front r : List Token) :
    (withEnd (front ++ r)).take (front.length + 1) = front.map some ++ [r.head?] := by
  have hlength : front.length = (front.map some).length := (List.length_map ..).symm
  rw [withEnd, List.map_append, List.append_assoc, hlength, List.take_length_add_append]
  cases r <;> rfl

theorem exists_of_prefix_withEnd {front sentence : List Token} {t? : Option Token}
    (h : front.map some ++ [t?] <+: withEnd sentence) :
    ∃ s, sentence = front ++ s ∧ s.head? = t? := by
  induction front generalizing sentence with
  | nil =>
    obtain ⟨more, hmore⟩ := h
    refine ⟨sentence, rfl, ?_⟩
    cases sentence with
    | nil => exact (List.cons.inj hmore).1.symm
    | cons t sentence => exact (List.cons.inj hmore).1.symm
  | cons t front ih =>
    cases sentence with
    | nil =>
      obtain ⟨more, hmore⟩ := h
      cases (List.cons.inj hmore).1
    | cons u sentence =>
      obtain ⟨htu, hrest⟩ := List.cons_prefix_cons.1 h
      cases htu
      obtain ⟨s, rfl, hs⟩ := ih hrest
      exact ⟨s, rfl, hs⟩

/-! ## Errors -/

theorem parse_eq_error_iff {text : String} {lexemes : List Lexeme}
    (h : lex text.toList = .ok lexemes) {e : TextError} :
    parse text = .error e ↔ ∃ fault ts, ofTokens (lexemes.map Lexeme.token) = .error (fault, ts)
      ∧ e = faultAt text.toList fault (lastStart lexemes ts.length) := by
  unfold parse read
  rw [h]
  simp only
  cases hread : ofTokens (lexemes.map Lexeme.token) with
  | ok f => simp
  | error failure =>
    obtain ⟨fault, ts⟩ := failure
    simp [eq_comm]

/-- **Syntax errors point at the first offending token.** Where a text is cut into tokens but not read,
and not because it nests too deeply, the offset of the error is that of one token, or that of the end.
What stands before it can be completed to tokens that are read, and no condition of the grammar,
however deep it nests, begins with the tokens up to and with that one. -/
theorem parse_points_at_first_offence {text : String} {lexemes : List Lexeme} {e : TextError}
    (hlex : lex text.toList = .ok lexemes) (herror : parse text = .error e)
    (hfault : e.fault ≠ .nestedTooDeeply) :
    ∃ k, (∀ j, (offsets text lexemes)[j]? = some e.position ↔ j = k)
      ∧ (∃ rest f, ofTokens ((lexemes.map Lexeme.token).take k ++ rest) = .ok f)
      ∧ ∀ sentence n f, Derives .disjunction n sentence f →
          ¬ (withEnd (lexemes.map Lexeme.token)).take (k + 1) <+: withEnd sentence := by
  obtain ⟨fault, r, hread, rfl⟩ := (parse_eq_error_iff hlex).1 herror
  obtain ⟨front, hfront, hviable, hstuck⟩ := ofTokens_error hread
  have hlength : lexemes.length = front.length + r.length := by
    rw [← List.length_append, ← hfront, List.length_map]
  -- the offending token is the one after those that were taken
  have hplace : (places lexemes)[lexemes.length - r.length]? = some (lastStart lexemes r.length) :=
    getElem?_places (by omega)
  rw [show lexemes.length - r.length = front.length by omega] at hplace
  have hoffset : (offsets text lexemes)[front.length]?
      = some (faultAt text.toList fault (lastStart lexemes r.length)).position := by
    rw [offsets, List.getElem?_map, hplace]
    rfl
  refine ⟨front.length, fun j => ⟨fun hj => ?_, ?_⟩, ?_, fun sentence n f hf hprefix => ?_⟩
  · have hin := (List.getElem?_eq_some_iff.1 hj).1
    exact (List.getElem?_inj hin (nodup_offsets hlex)).1 (hj.trans hoffset.symm)
  · rintro rfl
    exact hoffset
  · rw [hfront, List.take_left]
    exact hviable
  · rw [hfront, take_withEnd] at hprefix
    obtain ⟨s, rfl, hs⟩ := exists_of_prefix_withEnd hprefix
    exact hstuck hfault s n f hs hf

/-- In a group and after `NOT`, behind a letter of two bytes. -/
theorem parse_points_at_first_offence_group :
    let text := "(ö = 1 AND b NOT 2)"
    let lexemes : List Lexeme :=
      [⟨.opening, "(ö = 1 AND b NOT 2)".toList⟩,
       ⟨.word "ö", "ö = 1 AND b NOT 2)".toList⟩,
       ⟨.op .eq, "= 1 AND b NOT 2)".toList⟩,
       ⟨.number (.integer 1), "1 AND b NOT 2)".toList⟩,
       ⟨.word "AND", "AND b NOT 2)".toList⟩,
       ⟨.word "b", "b NOT 2)".toList⟩,
       ⟨.word "NOT", "NOT 2)".toList⟩,
       ⟨.number (.integer 2), "2)".toList⟩,
       ⟨.closing, ")".toList⟩]
    let e : TextError := ⟨18, "2)", .expectedLikeOrIn⟩
    lex text.toList = .ok lexemes ∧ parse text = .error e ∧ e.fault ≠ .nestedTooDeeply
      ∧ ∃ k, (∀ j, (offsets text lexemes)[j]? = some e.position ↔ j = k)
        ∧ (∃ rest f, ofTokens ((lexemes.map Lexeme.token).take k ++ rest) = .ok f)
        ∧ ∀ sentence n f, Derives .disjunction n sentence f →
            ¬ (withEnd (lexemes.map Lexeme.token)).take (k + 1) <+: withEnd sentence := by
  intro text lexemes e
  have hlex : lex text.toList = .ok lexemes := by decide +kernel
  have herror : parse text = .error e := by decide +kernel
  have hfault : e.fault ≠ .nestedTooDeeply := by decide
  exact ⟨hlex, herror, hfault, parse_points_at_first_offence hlex herror hfault⟩

end QueryTemplate.Filter
