import QueryTemplate.Proofs.Juxtaposition
import QueryTemplate.Proofs.RoundTrip

/-!
# Filter text inside filter text

Programs put filter texts together: each in parentheses, with a connective between them. No text can get
out of its parentheses, whatever it has in it: its tokens are the same there as alone, so it is read there
as the tree that it is alone (`parse_embedded`). Only the nesting has to be paid for, one level for the
parentheses and one for a `NOT`.

* **`Cuts.append`**, **`Cuts.group`**: the tokens of a text that stands in front of another, or in
  parentheses.
* **`parse_eq_ok_iff_cuts`**: what is read of a text, said of its tokens.
-/

namespace QueryTemplate.Filter

/-! ## Tokens -/

theorem Cuts.append {cs rest : List Char} {ts us : List Token} (hcs : Cuts cs ts) (h : Apart rest)
    (hrest : Cuts rest us) : Cuts (cs ++ rest) (ts ++ us) := by
  obtain ⟨lexemes, hlex, rfl⟩ := hcs
  obtain ⟨later, hlater, rfl⟩ := hrest
  refine ⟨lexemes.map (Lexeme.before rest) ++ later, ?_, ?_⟩
  · rw [lex_append hlex h, hlater]
    rfl
  · rw [List.map_append, tokens_before]

/-- A text in parentheses, whatever stands behind them. -/
theorem Cuts.group {cs rest : List Char} {ts us : List Token} (hcs : Cuts cs ts) (hrest : Cuts rest us) :
    Cuts ('(' :: (cs ++ ')' :: rest)) (.opening :: (ts ++ .closing :: us)) := by
  have hclosing : Cuts (')' :: rest) (.closing :: us) := .token rfl rfl hrest
  have happart : Apart (')' :: rest) := by
    show isApart ')' = true
    decide
  exact .token rfl rfl (hcs.append happart hclosing)

/-! ## Trees -/

/-- A text is read as a tree exactly if it is cut into tokens that derive the tree. -/
theorem parse_eq_ok_iff_cuts {text : String} {f : Filter} :
    parse text = .ok f ↔ ∃ ts, Cuts text.toList ts ∧ DerivesWithin 64 .disjunction ts f := by
  constructor
  · intro h
    cases hlex : lex text.toList with
    | error e =>
      rw [parse, read, hlex] at h
      cases h
    | ok lexemes =>
      exact ⟨_, ⟨lexemes, hlex, rfl⟩, ((parse_eq_ok_iff_derives hlex).1 f).1 h⟩
  · rintro ⟨_, ⟨lexemes, hlex, rfl⟩, hderives⟩
    exact ((parse_eq_ok_iff_derives hlex).1 f).2 hderives

theorem derives_of_parse {text : String} {f : Filter} {limit : Nat} (h : parse text = .ok f)
    (hnest : NestsWithin limit text) :
    ∃ ts n, Cuts text.toList ts ∧ n ≤ limit ∧ Derives .disjunction n ts f := by
  obtain ⟨_, ⟨lexemes, hlex, rfl⟩, n, -, hderives⟩ := parse_eq_ok_iff_cuts.1 h
  exact ⟨_, n, ⟨lexemes, hlex, rfl⟩, hnest lexemes n f hlex hderives, hderives⟩

theorem nestsWithin_of_length {text : String} {lexemes : List Lexeme} {limit : Nat}
    (hlex : lex text.toList = .ok lexemes) (h : lexemes.length ≤ limit + 1) : NestsWithin limit text := by
  intro lexemes' n f hlex' hderives
  obtain rfl : lexemes = lexemes' := Except.ok.inj (hlex.symm.trans hlex')
  have hlt := hderives.nesting_lt_length
  rw [List.length_map] at hlt
  omega

/-- **A filter text cannot escape its parentheses.** Any two texts that are read as trees, put into
parentheses with a connective between them, are read as the connective of their trees; a text in
parentheses alone is read as its tree, and behind `NOT` as the negation of its tree. The levels of nesting
that are added have to be left. -/
theorem parse_embedded {a b : String} {f g : Filter} (ha : parse a = .ok f) (hb : parse b = .ok g)
    (hna : NestsWithin 63 a) (hnb : NestsWithin 63 b) :
    parse ("(" ++ a ++ ") AND (" ++ b ++ ")") = .ok (.and f g)
      ∧ parse ("(" ++ a ++ ") OR (" ++ b ++ ")") = .ok (.or f g)
      ∧ parse ("(" ++ a ++ ")") = .ok f
      ∧ (NestsWithin 62 a → parse ("NOT (" ++ a ++ ")") = .ok (.not f)) := by
  obtain ⟨ts, m, hts, hm, hf⟩ := derives_of_parse ha hna
  obtain ⟨us, n, hus, hn, hg⟩ := derives_of_parse hb hnb
  have hmax : max (m + 1) (n + 1) ≤ 64 := by omega
  -- the parentheses with what is between them, in front of a connective and behind it
  have hfirst : Derives .unary (m + 1) (.opening :: (ts ++ [.closing])) f := .group hf
  have hsecond : Derives .unary (n + 1) (.opening :: (us ++ [.closing])) g := .group hg
  have hlast : Cuts ('(' :: (b.toList ++ [')'])) (.opening :: (us ++ [.closing])) := hus.group cuts_nil
  refine ⟨?_, ?_, ?_, fun hna => ?_⟩
  · have hcuts := hts.group (separates_and.opens _ _ hlast)
    have hand := Derives.conjunction (.and (.unary hfirst) (t := .word "AND") rfl hsecond)
    refine parse_eq_ok_iff_cuts.2 ⟨_, ?_, _, hmax, hand⟩
    simpa [String.toList_append] using hcuts
  · have hcuts := hts.group (separates_or.opens _ _ hlast)
    have hor := Derives.or (.conjunction (.unary hfirst)) (t := .word "OR") rfl (.unary hsecond)
    refine parse_eq_ok_iff_cuts.2 ⟨_, ?_, _, hmax, hor⟩
    simpa [String.toList_append] using hcuts
  · have hcuts := hts.group cuts_nil
    refine parse_eq_ok_iff_cuts.2 ⟨_, ?_, m + 1, by omega, .conjunction (.unary hfirst)⟩
    simpa [String.toList_append] using hcuts
  · obtain ⟨ts, m, hts, hm, hf⟩ := derives_of_parse ha hna
    have hgroup := hts.group cuts_nil
    have hcuts : Cuts ("NOT ".toList ++ '(' :: (a.toList ++ [')']))
        (.word "NOT" :: .opening :: (ts ++ [.closing])) :=
      .token rfl rfl (.blank rfl hgroup)
    have hnot := Derives.unary (.not (t := .word "NOT") rfl (.group hf))
    refine parse_eq_ok_iff_cuts.2 ⟨_, ?_, m + 1 + 1, by omega, .conjunction hnot⟩
    simpa [String.toList_append] using hcuts

/-- A text with the looser connective, and one that has parentheses and quotes in a string. -/
theorem parse_embedded_parentheses :
    let a := "x = 1 OR y IS NULL"
    let b := "NOT name LIKE ') OR (''('"
    let f : Filter := .or (.compare (.field "x") .eq (.literal (.integer 1))) (.isNull (.field "y") false)
    let g : Filter := .not (.compare (.field "name") .like (.literal (.text ") OR ('(")))
    parse a = .ok f ∧ parse b = .ok g ∧ NestsWithin 63 a ∧ NestsWithin 63 b ∧ NestsWithin 62 a
      ∧ parse "(x = 1 OR y IS NULL) AND (NOT name LIKE ') OR (''(')" = .ok (.and f g)
      ∧ parse "(x = 1 OR y IS NULL) OR (NOT name LIKE ') OR (''(')" = .ok (.or f g)
      ∧ parse "(x = 1 OR y IS NULL)" = .ok f ∧ parse "NOT (x = 1 OR y IS NULL)" = .ok (.not f) := by
  intro a b f g
  have ha : parse a = .ok f := by decide +kernel
  have hb : parse b = .ok g := by decide +kernel
  have hna (limit : Nat) (h : 6 ≤ limit) : NestsWithin limit a := by
    have hlength : (lex a.toList).map List.length = .ok 7 := by decide +kernel
    obtain ⟨lexemes, hlex, hseven⟩ := Except.map_eq_ok_iff.1 hlength
    exact nestsWithin_of_length hlex (by omega)
  have hnb : NestsWithin 63 b := by
    have hlength : (lex b.toList).map List.length = .ok 4 := by decide +kernel
    obtain ⟨lexemes, hlex, hfour⟩ := Except.map_eq_ok_iff.1 hlength
    exact nestsWithin_of_length hlex (by omega)
  obtain ⟨hand, hor, hgroup, hnot⟩ := parse_embedded ha hb (hna 63 (by decide)) hnb
  exact ⟨ha, hb, hna 63 (by decide), hnb, hna 62 (by decide), hand, hor, hgroup, hnot (hna 62 (by decide))⟩

end QueryTemplate.Filter
