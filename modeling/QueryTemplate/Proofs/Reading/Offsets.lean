import QueryTemplate.Proofs.Juxtaposition
import QueryTemplate.Proofs.Reading.Position
import QueryTemplate.Proofs.Slices

/-!
# Tokens and where they start

Every token of a text has the byte offset of its first character, and the end of the text, which
counts as a token here, has the byte length (`tokenize`).

* **`isApart_of_isBlank`**: no token goes on with a blank, whatever blank of Unicode it is, so what
  stands before blanks is cut as it is alone (`lex_append_blanks`).
* **`spans_before`**, **`spans_behind`**: what is put behind a text leaves the offsets of its tokens
  alone, what is put in front of it shifts them by its bytes.
* **`tokenize_around_blanks`** puts the two together, for the tokens as for the first lexical fault.
* **`scan_eq_tokenize`**: a program that only counts the bytes it has passed finds the same offsets,
  and can slice the text where there is a fault. Its invariant is that what is left of the text
  starts at its offset.
-/

namespace QueryTemplate

/-- The same error further on in a text. -/
def TextError.shift (bytes : Nat) (e : TextError) : TextError :=
  { e with position := bytes + e.position }

namespace Filter

/-! ## Offsets -/

/-- A token, or the end of the text, with the byte offset where it starts. -/
structure Spanned where
  token : Option Token
  position : Nat
  deriving DecidableEq, Repr

/-- The same further on in a text. -/
def Spanned.shift (bytes : Nat) (s : Spanned) : Spanned :=
  { s with position := bytes + s.position }

/-- The tokens of a text with their offsets. -/
def spans (text : List Char) (lexemes : List Lexeme) : List Spanned :=
  lexemes.map fun l => ⟨some l.token, Text.byteLength text - Text.byteLength l.start⟩

/-- The end of a text, which is a token after all others. -/
def endOf (text : String) : Spanned :=
  ⟨none, text.utf8ByteSize⟩

/-- The tokens of a text and its end with their offsets. -/
def spansWithEnd (text : String) (lexemes : List Lexeme) : List Spanned :=
  spans text.toList lexemes ++ [endOf text]

/-- The tokens of a text and its end with their offsets, or its first lexical fault. -/
def tokenize (text : String) : Except TextError (List Spanned) :=
  match lex text.toList with
  | .error (fault, rest) => .error (faultAt text.toList fault rest)
  | .ok lexemes => .ok (spansWithEnd text lexemes)

theorem tokenize_eq_ok_iff {text : String} {tokens : List Spanned} :
    tokenize text = .ok tokens ↔
      ∃ lexemes, lex text.toList = .ok lexemes ∧ tokens = spansWithEnd text lexemes := by
  unfold tokenize
  cases lex text.toList with
  | error failure => simp
  | ok lexemes => simp [eq_comm]

theorem tokenize_eq_error_iff {text : String} {e : TextError} :
    tokenize text = .error e ↔
      ∃ fault rest, lex text.toList = .error (fault, rest) ∧ e = faultAt text.toList fault rest := by
  unfold tokenize
  cases lex text.toList with
  | error failure =>
    obtain ⟨fault, rest⟩ := failure
    simp [eq_comm]
  | ok lexemes => simp

/-- A lexical fault lies at an end of the text. -/
theorem suffix_of_lex_error {cs rest : List Char} {fault : Fault}
    (h : lex cs = .error (fault, rest)) : rest <:+ cs := by
  fun_induction lex cs with
  | case1 => cases h
  | case2 c cs _ ih => exact (ih h).trans (List.suffix_cons c cs)
  | case3 =>
    cases h
    exact List.suffix_rfl
  | case4 c cs _ token tail hread ih =>
    cases htail : lex tail with
    | error failure =>
      rw [htail] at h
      cases h
      exact ((ih htail).trans (isSuffix_of_readToken hread)).trans (List.suffix_cons c cs)
    | ok later =>
      rw [htail] at h
      cases h

/-! ## Blanks -/

/-- The code points of blanks. -/
def blankCodes : List Nat :=
  [0x20, 0x85, 0xa0, 0x1680, 0x2028, 0x2029, 0x202f, 0x205f, 0x3000]
    ++ List.range' 9 5 ++ List.range' 0x2000 11

theorem mem_blankCodes {c : Char} (h : Text.isBlank c = true) : c.toNat ∈ blankCodes := by
  simp only [Text.isBlank, Text.inRanges, Text.blankRanges, Bool.or_eq_true, Bool.and_eq_true,
    decide_eq_true_eq, List.any_cons, List.any_nil, Bool.or_false] at h
  simp only [blankCodes, List.mem_append, List.mem_range'_1, List.mem_cons, List.not_mem_nil,
    or_false]
  rcases h with (rfl | h) | h
  · exact .inl (.inl (.inl rfl))
  · omega
  · omega

/-- **No token goes on with a blank.** There are few enough of them to look each one up. -/
theorem isApart_of_isBlank {c : Char} (h : Text.isBlank c = true) : isApart c = true := by
  have hall : ∀ n ∈ blankCodes, isApart (Char.ofNat n) = true := by decide +kernel
  have hc := hall c.toNat (mem_blankCodes h)
  rwa [Char.ofNat_toNat] at hc

theorem lex_blanks_append {blanks : List Char} (h : ∀ c ∈ blanks, Text.isBlank c = true)
    (rest : List Char) : lex (blanks ++ rest) = lex rest := by
  induction blanks with
  | nil => rfl
  | cons c blanks ih =>
    obtain ⟨hc, hblanks⟩ := List.forall_mem_cons.1 h
    rw [List.cons_append, lex, if_pos hc, ih hblanks]

/-- Blanks keep a text that can be cut apart from whatever stands behind them. -/
theorem lex_append_blanks {cs blanks : List Char} {lexemes : List Lexeme}
    (hlex : lex cs = .ok lexemes) (hne : blanks ≠ []) (h : ∀ c ∈ blanks, Text.isBlank c = true)
    (rest : List Char) :
    lex (cs ++ (blanks ++ rest))
      = (lex rest).map (lexemes.map (Lexeme.before (blanks ++ rest)) ++ ·) := by
  obtain ⟨c, more, rfl⟩ := List.exists_cons_of_ne_nil hne
  have happart : Apart (c :: more ++ rest) := isApart_of_isBlank (h c List.mem_cons_self)
  rw [lex_append hlex happart, lex_blanks_append h]

/-! ## Offsets side by side -/

theorem spans_append (text : List Char) (front behind : List Lexeme) :
    spans text (front ++ behind) = spans text front ++ spans text behind :=
  List.map_append

theorem spans_before (text rest : List Char) (lexemes : List Lexeme) :
    spans (text ++ rest) (lexemes.map (Lexeme.before rest)) = spans text lexemes := by
  unfold spans
  rw [List.map_map]
  refine List.map_congr_left fun l _ => ?_
  show Spanned.mk _ (Text.byteLength (text ++ rest) - Text.byteLength (l.start ++ rest)) = _
  rw [Text.byteLength_append, Text.byteLength_append, Nat.add_sub_add_right]
  rfl

theorem spans_behind {rest : List Char} {lexemes : List Lexeme} (hlex : lex rest = .ok lexemes)
    (front : List Char) :
    spans (front ++ rest) lexemes
      = (spans rest lexemes).map (Spanned.shift (Text.byteLength front)) := by
  unfold spans
  rw [List.map_map]
  refine List.map_congr_left fun l hl => ?_
  have hle : Text.byteLength l.start ≤ Text.byteLength rest :=
    byteLength_le_of_suffix (start_suffix_of_lex hlex hl)
  show Spanned.mk _ (Text.byteLength (front ++ rest) - Text.byteLength l.start) = ⟨_, _⟩
  rw [Text.byteLength_append, Nat.add_sub_assoc hle]

/-! ## Texts around blanks -/

/-- A fault behind a text is what it is alone, further on by the bytes of the text. -/
theorem faultAt_append {text rest : List Char} (h : rest <:+ text) (front : List Char)
    (fault : Fault) : faultAt (front ++ text) fault rest
      = (faultAt text fault rest).shift (Text.byteLength front) := by
  unfold faultAt TextError.shift
  rw [Text.byteLength_append, Nat.add_sub_assoc (byteLength_le_of_suffix h)]

theorem endOf_append (u v : String) : endOf (u ++ v) = (endOf v).shift u.utf8ByteSize := by
  rw [endOf, String.utf8ByteSize_append]
  rfl

/-- **Blanks are apart from every token.** Where a text can be cut into tokens and blanks follow,
its tokens stand where they did, whatever comes behind the blanks. That is cut as it is alone, and
the offsets of its tokens, or of its first lexical fault, are only further on by the bytes before
it. -/
theorem tokenize_around_blanks {u w v : String} {tokens : List Spanned}
    (hu : tokenize u = .ok tokens) (hne : w ≠ "") (hw : ∀ c ∈ w.toList, Text.isBlank c = true) :
    ∃ front, tokens = front ++ [endOf u] ∧ (∀ s ∈ front, s.token ≠ none)
      ∧ (∀ behind, tokenize v = .ok behind →
          tokenize (u ++ w ++ v) = .ok (front ++ behind.map (Spanned.shift (u ++ w).utf8ByteSize)))
      ∧ ∀ e, tokenize v = .error e →
          tokenize (u ++ w ++ v) = .error (e.shift (u ++ w).utf8ByteSize) := by
  obtain ⟨lexemes, hlex, rfl⟩ := tokenize_eq_ok_iff.1 hu
  have hblanks : w.toList ≠ [] := fun h =>
    hne (String.toList_inj.1 (h.trans String.toList_empty.symm))
  have happend := lex_append_blanks hlex hblanks hw v.toList
  rw [← List.append_assoc, ← String.toList_append, ← String.toList_append] at happend
  have hbytes : Text.byteLength (u ++ w).toList = (u ++ w).utf8ByteSize := Text.byteLength_toList _
  refine ⟨spans u.toList lexemes, rfl, ?_, fun behind hv => ?_, fun e hv => ?_⟩
  · intro s hs
    obtain ⟨l, _, rfl⟩ := List.mem_map.1 hs
    exact Option.some_ne_none _
  · obtain ⟨later, hlater, rfl⟩ := tokenize_eq_ok_iff.1 hv
    rw [hlater] at happend
    refine tokenize_eq_ok_iff.2 ⟨_, happend, ?_⟩
    have hfront : spans (u ++ w ++ v).toList (lexemes.map (Lexeme.before (w.toList ++ v.toList)))
        = spans u.toList lexemes := by
      rw [String.toList_append, String.toList_append, List.append_assoc, spans_before]
    have hbehind : spans (u ++ w ++ v).toList later
        = (spans v.toList later).map (Spanned.shift (u ++ w).utf8ByteSize) := by
      rw [String.toList_append, spans_behind hlater, hbytes]
    show _ = spans _ (lexemes.map _ ++ later) ++ [endOf _]
    rw [spans_append, hfront, hbehind, endOf_append, spansWithEnd, List.map_append,
      List.append_assoc]
    rfl
  · obtain ⟨fault, rest, hfault, rfl⟩ := tokenize_eq_error_iff.1 hv
    rw [hfault] at happend
    refine tokenize_eq_error_iff.2 ⟨fault, rest, happend, ?_⟩
    rw [String.toList_append, faultAt_append (suffix_of_lex_error hfault), hbytes]

/-- An operator at the end that could have been longer, behind a letter of two bytes, then a
no-break and an ideographic blank of two and three bytes. -/
theorem tokenize_around_blanks_wide :
    let front : List Spanned := [⟨some (.word "ö"), 0⟩, ⟨some (.op .gt), 3⟩]
    tokenize "ö >" = .ok (front ++ [⟨none, 4⟩])
      ∧ (∀ c ∈ "\u00a0\u3000".toList, Text.isBlank c = true)
      ∧ tokenize ("ö >" ++ "\u00a0\u3000" ++ "= 5")
          = .ok (front ++ [⟨some (.op .eq), 9⟩, ⟨some (.number (.integer 5)), 11⟩, ⟨none, 12⟩])
      ∧ tokenize ("ö >" ++ "\u00a0\u3000" ++ "5 ;")
          = .error ⟨11, ";", .unexpectedCharacter ';'⟩ := by
  intro front
  have hu : tokenize "ö >" = .ok (front ++ [⟨none, 4⟩]) := by decide +kernel
  have hw : ∀ c ∈ "\u00a0\u3000".toList, Text.isBlank c = true :=
    List.all_eq_true.1 (by decide +kernel)
  refine ⟨hu, hw, ?_, ?_⟩
  · obtain ⟨front', hfront, -, hok, -⟩ := tokenize_around_blanks (v := "= 5") hu (by decide) hw
    obtain rfl : front = front' := (List.append_inj' hfront rfl).1
    exact hok [⟨some (.op .eq), 0⟩, ⟨some (.number (.integer 5)), 2⟩, ⟨none, 3⟩] (by decide +kernel)
  · obtain ⟨_, -, -, -, herror⟩ := tokenize_around_blanks (v := "5 ;") hu (by decide) hw
    exact herror ⟨2, ";", .unexpectedCharacter ';'⟩ (by decide +kernel)

/-! ## Counting bytes -/

/--
Cuts a text into tokens from an offset on, where `cs` is left of it. The offset is only ever counted
on by the bytes of what is passed, and a fault slices the text at it; nothing is returned if no
character starts there.
-/
def scan (text : String) (offset : Nat) : List Char → Option (Except TextError (List Spanned))
  | [] => some (.ok [endOf text])
  | c :: cs =>
    if Text.isBlank c then scan text (offset + c.utf8Size) cs
    else
      match _h : readToken c cs with
      | .error fault => (Text.sliceFrom? text offset).map fun rest => .error ⟨offset, rest, fault⟩
      | .ok (token, rest) =>
        let passed := Text.byteLength (c :: cs) - Text.byteLength rest
        (scan text (offset + passed) rest).map fun result => result.map (⟨some token, offset⟩ :: ·)
termination_by cs => cs.length
decreasing_by
  · simp
  · exact Nat.lt_succ_of_le (isSuffix_of_readToken _h).length_le

theorem scan_cons_of_not_blank {c : Char} (hc : Text.isBlank c = false) (text : String)
    (offset : Nat) (cs : List Char) :
    scan text offset (c :: cs) = match readToken c cs with
      | .error fault => (Text.sliceFrom? text offset).map fun rest => .error ⟨offset, rest, fault⟩
      | .ok (token, rest) =>
        let passed := Text.byteLength (c :: cs) - Text.byteLength rest
        (scan text (offset + passed) rest).map fun result => result.map (⟨some token, offset⟩ :: ·) := by
  rw [scan, if_neg (Bool.eq_false_iff.1 hc)]
  split <;> simp only [*]

/-- Where the end of a text starts is as many bytes in as there are in front of it. -/
theorem byteLength_sub {text front rest : List Char} (h : text = front ++ rest) :
    Text.byteLength text - Text.byteLength rest = Text.byteLength front := by
  rw [h, Text.byteLength_append, Nat.add_sub_cancel]

/-- What is found behind as much of the text as is passed. It is what an end of the text starts with
at every step, so a fault is where a character starts. -/
theorem scan_append {text : String} {front cs : List Char} (htext : text.toList = front ++ cs) :
    scan text (Text.byteLength front) cs = some (match lex cs with
      | .error (fault, rest) => .error (faultAt text.toList fault rest)
      | .ok lexemes => .ok (spansWithEnd text lexemes)) := by
  fun_induction lex cs generalizing front with
  | case1 => rw [scan]; rfl
  | case2 c cs hc ih =>
    have hnext : Text.byteLength front + c.utf8Size = Text.byteLength (front ++ [c]) := by
      rw [Text.byteLength_append]
      rfl
    rw [scan, if_pos hc, hnext]
    exact ih (by rw [htext, List.append_assoc]; rfl)
  | case3 c cs hc fault hread =>
    have hsuffix : c :: cs <:+ text.toList := ⟨front, htext.symm⟩
    obtain ⟨-, -, hslice⟩ := Text.slice_of_suffix hsuffix
    rw [byteLength_sub htext] at hslice
    rw [scan_cons_of_not_blank (Bool.eq_false_iff.2 hc), hread]
    simp only [hslice, Option.map_some, faultAt, byteLength_sub htext]
  | case4 c cs hc token rest hread ih =>
    obtain ⟨taken, htaken⟩ := (isSuffix_of_readToken hread).trans (List.suffix_cons c cs)
    have hnext : Text.byteLength front + (Text.byteLength (c :: cs) - Text.byteLength rest)
        = Text.byteLength (front ++ taken) := by
      rw [byteLength_sub htaken.symm, Text.byteLength_append]
    rw [scan_cons_of_not_blank (Bool.eq_false_iff.2 hc), hread]
    simp only [hnext]
    rw [ih (by rw [htext, ← htaken, List.append_assoc])]
    cases lex rest with
    | error failure => rfl
    | ok later =>
      simp only [Option.map_some, Except.map, spansWithEnd, spans, List.map_cons,
        byteLength_sub htext, List.cons_append]

/-- **Counting bytes finds the offsets of the tokens**, and where there is a fault a character
starts. -/
theorem scan_eq_tokenize (text : String) : scan text 0 text.toList = some (tokenize text) :=
  scan_append (List.nil_append text.toList).symm

end Filter

end QueryTemplate
