import QueryTemplate.Proofs.Json.Text

/-!
# Blanks between the parts of a JSON text

The two printed forms of a document differ in blanks outside of strings only. `withoutBlanks` drops those, and
keeps track of strings and of the escapes in them, so a blank or a quote that belongs to a string stays.

* **`sheds_quote`**: a string loses nothing, whatever characters it has.
* **`sheds_pretty`**: a document with a line per member loses its line breaks and indentation, by induction on
  the document.
* **`squeeze_pretty`**, **`squeeze_compact`**: without its blanks either form is the one on one line.
* **`pretty_injective`**: so no two documents have the same text with a line per member either.
-/

namespace QueryTemplate.Json

open QueryTemplate.Filter (toList_toString_int isDigit_of_mem_toDigits)

/-- The text without the blanks outside of strings. The flag says whether a string is open at its start. -/
def withoutBlanks : Bool → List Char → List Char
  | _, [] => []
  | true, '\\' :: c :: cs => '\\' :: c :: withoutBlanks true cs
  | quoted, c :: cs =>
    if c = '"' then c :: withoutBlanks (!quoted) cs
    else if !quoted && isSpace c then withoutBlanks quoted cs
    else c :: withoutBlanks quoted cs

/-- A text without the blanks outside of its strings. -/
def squeeze (s : String) : String :=
  String.ofList (withoutBlanks false s.toList)

/-! ## One character -/

theorem withoutBlanks_blank {c : Char} (hc : isSpace c = true) (cs : List Char) :
    withoutBlanks false (c :: cs) = withoutBlanks false cs := by
  have hquote : c ≠ '"' := by
    intro hquote
    rw [hquote] at hc
    exact absurd hc (by decide)
  simp [withoutBlanks, hc, hquote]

theorem withoutBlanks_plain {c : Char} (hquote : c ≠ '"') (hspace : isSpace c = false)
    (cs : List Char) : withoutBlanks false (c :: cs) = c :: withoutBlanks false cs := by
  simp [withoutBlanks, hquote, hspace]

/-- Inside of a string every character is kept; only a backslash has to be looked at with the next. -/
theorem withoutBlanks_quoted {c : Char} (hquote : c ≠ '"') (hbackslash : c ≠ '\\') (cs : List Char) :
    withoutBlanks true (c :: cs) = c :: withoutBlanks true cs := by
  rw [withoutBlanks]
  · simp [hquote]
  · intro d ds _ hc
    exact absurd hc hbackslash

/-- A quote opens a string or ends it. -/
theorem withoutBlanks_quote (quoted : Bool) (cs : List Char) :
    withoutBlanks quoted ('"' :: cs) = '"' :: withoutBlanks (!quoted) cs := by
  cases quoted <;> simp [withoutBlanks]

theorem ne_of_hexDigit {n : Nat} (h : n < 16) : hexDigit n ≠ '"' ∧ hexDigit n ≠ '\\' := by
  have hall : ∀ n < 16, hexDigit n ≠ '"' ∧ hexDigit n ≠ '\\' := by decide
  exact hall n h

/-- No escape ends the string that it stands in. -/
theorem withoutBlanks_escape (c : Char) (cs : List Char) :
    withoutBlanks true (escape c ++ cs) = escape c ++ withoutBlanks true cs := by
  unfold escape
  split
  · rfl
  split
  · rfl
  split
  · rfl
  split
  · rfl
  split
  · rfl
  split
  · rfl
  split
  · rfl
  split
  · -- behind the backslash and its letter stand four digits
    have hhigh := ne_of_hexDigit (n := c.toNat / 16) (by omega)
    have hlow := ne_of_hexDigit (n := c.toNat % 16) (by omega)
    have hzero : '0' ≠ '"' ∧ '0' ≠ '\\' := by decide
    show withoutBlanks true ('\\' :: 'u' :: '0' :: '0' :: _ :: _ :: cs) = _
    rw [withoutBlanks, withoutBlanks_quoted hzero.1 hzero.2, withoutBlanks_quoted hzero.1 hzero.2,
      withoutBlanks_quoted hhigh.1 hhigh.2, withoutBlanks_quoted hlow.1 hlow.2]
    rfl
  · rename_i hquote hbackslash _ _ _ _ _ _
    exact withoutBlanks_quoted hquote hbackslash cs

/-- What is left has no blanks to drop. -/
theorem withoutBlanks_idem (quoted : Bool) (cs : List Char) :
    withoutBlanks quoted (withoutBlanks quoted cs) = withoutBlanks quoted cs := by
  fun_induction withoutBlanks quoted cs with
  | case1 => simp [withoutBlanks]
  | case2 c cs ih => rw [withoutBlanks, ih]
  | case3 quoted cs _ ih => rw [withoutBlanks_quote, ih]
  | case4 quoted c cs _ _ hspace ih =>
    have hquoted : quoted = false := by simpa using (Bool.and_eq_true_iff.1 hspace).1
    rw [hquoted] at ih ⊢
    exact ih
  | case5 quoted c cs hescape hquote hspace ih =>
    cases quoted with
    | false => rw [withoutBlanks_plain hquote (by simpa using hspace), ih]
    | true =>
      by_cases hbackslash : c = '\\'
      · -- a backslash that is no escape is the last character
        cases cs with
        | nil => rw [hbackslash]; rfl
        | cons d cs => exact absurd rfl (hescape d cs rfl hbackslash)
      · rw [withoutBlanks_quoted hquote hbackslash, ih]

/-! ## Pieces of a text -/

/-- In front of any text the piece loses its blanks, which leaves another, and ends outside of a string. -/
def Sheds (piece left : String) : Prop :=
  ∀ rest, withoutBlanks false (piece.toList ++ rest) = left.toList ++ withoutBlanks false rest

theorem Sheds.append {a b a' b' : String} (ha : Sheds a a') (hb : Sheds b b') :
    Sheds (a ++ b) (a' ++ b') := by
  intro rest
  rw [String.toList_append, String.toList_append, List.append_assoc, ha, hb, List.append_assoc]

theorem sheds_of_blanks {s : String} (h : ∀ c ∈ s.toList, isSpace c = true) : Sheds s "" := by
  intro rest
  generalize s.toList = cs at h
  induction cs with
  | nil => rfl
  | cons c cs ih =>
    rw [List.cons_append, withoutBlanks_blank (h c List.mem_cons_self)]
    exact ih fun d hd => h d (List.mem_cons_of_mem c hd)

/-- A character that is dropped nowhere and opens no string. -/
def isPlain (c : Char) : Bool :=
  c ≠ '"' && !isSpace c

theorem sheds_of_plain {s : String} (h : s.toList.all isPlain = true) : Sheds s s := by
  intro rest
  generalize s.toList = cs at h
  induction cs with
  | nil => rfl
  | cons c cs ih =>
    obtain ⟨hc, hcs⟩ := Bool.and_eq_true_iff.1 (List.all_cons ▸ h)
    obtain ⟨hquote, hspace⟩ : c ≠ '"' ∧ isSpace c = false := by simpa [isPlain] using hc
    rw [List.cons_append, withoutBlanks_plain hquote hspace, ih hcs]
    rfl

/-- **A string is kept as it is.** -/
theorem sheds_quote (s : String) : Sheds (quote s) (quote s) := by
  have hinside (cs rest : List Char) : withoutBlanks true (cs.flatMap escape ++ '"' :: rest)
      = cs.flatMap escape ++ '"' :: withoutBlanks false rest := by
    induction cs with
    | nil => rfl
    | cons c cs ih => rw [List.flatMap_cons, List.append_assoc, withoutBlanks_escape, ih, List.append_assoc]
  intro rest
  rw [toList_quote, List.cons_append, List.append_assoc, List.singleton_append]
  show '"' :: withoutBlanks true _ = _
  rw [hinside, List.cons_append, List.append_assoc, List.singleton_append]

theorem sheds_newline (level : Nat) : Sheds (newline level) "" := by
  apply sheds_of_blanks
  intro c hc
  have hchar : c = '\n' ∨ c = ' ' := by
    simp only [newline, String.toList_append, String.toList_ofList, List.mem_append] at hc
    rcases hc with hc | hc
    · exact .inl (List.mem_singleton.1 hc)
    · exact .inr (List.eq_of_mem_replicate hc)
  rcases hchar with rfl | rfl <;> rfl

/-! ## Documents -/

theorem compactItems_cons (x : Json) (items : List Json) :
    compactItems (x :: items) = x.compact ++ String.join (items.map fun y => "," ++ y.compact) := by
  induction items generalizing x with
  | nil => rw [compactItems, List.map_nil, String.join_nil, String.append_empty]
  | cons y items ih =>
    rw [compactItems, ih, List.map_cons, String.join_cons]
    simp only [String.append_assoc]

theorem compactMembers_cons (key : String) (x : Json) (members : List (String × Json)) :
    compactMembers ((key, x) :: members) = quote key ++ ":" ++ x.compact
      ++ String.join (members.map fun m => "," ++ quote m.1 ++ ":" ++ m.2.compact) := by
  induction members generalizing key x with
  | nil => rw [compactMembers, List.map_nil, String.join_nil, String.append_empty]
  | cons m members ih =>
    rw [compactMembers, ih, List.map_cons, String.join_cons]
    simp only [String.append_assoc]

theorem sheds_comma : Sheds "," "," :=
  sheds_of_plain (by decide)

theorem sheds_colon : Sheds ": " ":" := by
  intro rest
  show withoutBlanks false (':' :: ' ' :: rest) = _
  rw [withoutBlanks_plain (by decide) rfl, withoutBlanks_blank rfl]
  rfl

theorem sheds_integer (n : Int) : Sheds (toString n) (toString n) := by
  have hdigit (c : Char) (hc : c.isDigit = true) : isPlain c = true := by
    have hquote : c ≠ '"' := ne_of_isDigit hc rfl
    simp [isPlain, hquote, isSpace_of_isDigit hc]
  apply sheds_of_plain
  apply List.all_eq_true.2
  intro c hc
  rw [toList_toString_int] at hc
  split at hc
  · exact hdigit c (isDigit_of_mem_toDigits hc)
  · rcases List.mem_cons.1 hc with hc | hc
    · rw [hc]
      rfl
    · exact hdigit c (isDigit_of_mem_toDigits hc)

/-- Items behind the first one, each after a comma and a line break. -/
theorem sheds_prettyItems {level : Nat} {items : List Json}
    (h : ∀ x ∈ items, Sheds (x.pretty level) x.compact) :
    Sheds (prettyItems level items) (String.join (items.map fun x => "," ++ x.compact)) := by
  induction items with
  | nil => exact sheds_of_blanks nofun
  | cons x items ih =>
    have hx := h x List.mem_cons_self
    have hmore := ih fun y hy => h y (List.mem_cons_of_mem x hy)
    have hall := ((sheds_comma.append (sheds_newline level)).append hx).append hmore
    rw [prettyItems, List.map_cons, String.join_cons]
    rwa [String.append_empty] at hall

theorem sheds_prettyMembers {level : Nat} {members : List (String × Json)}
    (h : ∀ m ∈ members, Sheds (m.2.pretty level) m.2.compact) :
    Sheds (prettyMembers level members)
      (String.join (members.map fun m => "," ++ quote m.1 ++ ":" ++ m.2.compact)) := by
  induction members with
  | nil => exact sheds_of_blanks nofun
  | cons m members ih =>
    have hx := h m List.mem_cons_self
    have hmore := ih fun y hy => h y (List.mem_cons_of_mem m hy)
    have hall := ((((sheds_comma.append (sheds_newline level)).append (sheds_quote m.1)).append
      sheds_colon).append hx).append hmore
    rw [prettyMembers, List.map_cons, String.join_cons]
    rwa [String.append_empty] at hall

/-- **A document loses its line breaks and indentation, and nothing else**, by induction on the document. -/
theorem sheds_pretty {x : Json} (hx : x.Whole) (level : Nat) : Sheds (x.pretty level) x.compact := by
  induction hx generalizing level with
  | null =>
    show Sheds "null" "null"
    exact sheds_of_plain (by decide)
  | bool b =>
    cases b with
    | false =>
      show Sheds "false" "false"
      exact sheds_of_plain (by decide)
    | true =>
      show Sheds "true" "true"
      exact sheds_of_plain (by decide)
  | integer n => exact sheds_integer n
  | text s => exact sheds_quote s
  | @array items _ ih =>
    have hopening : Sheds "[" "[" := sheds_of_plain (by decide)
    have hclosing : Sheds "]" "]" := sheds_of_plain (by decide)
    cases items with
    | nil =>
      show Sheds "[]" "[]"
      exact sheds_of_plain (by decide)
    | cons x items =>
      have hfirst := ih x List.mem_cons_self (level + 1)
      have hmore := sheds_prettyItems fun y hy => ih y (List.mem_cons_of_mem x hy) (level + 1)
      have hall := ((((hopening.append (sheds_newline (level + 1))).append hfirst).append hmore).append
        (sheds_newline level)).append hclosing
      rw [pretty, compact, compactItems_cons]
      simpa only [String.append_empty, String.append_assoc] using hall
  | @object members _ ih =>
    have hopening : Sheds "\x7b" "\x7b" := sheds_of_plain (by decide)
    have hclosing : Sheds "\x7d" "\x7d" := sheds_of_plain (by decide)
    cases members with
    | nil =>
      show Sheds "\x7b\x7d" "\x7b\x7d"
      exact sheds_of_plain (by decide)
    | cons m members =>
      obtain ⟨key, x⟩ := m
      have hfirst := ih (key, x) List.mem_cons_self (level + 1)
      have hmore := sheds_prettyMembers fun m hm => ih m (List.mem_cons_of_mem _ hm) (level + 1)
      have hall := ((((((hopening.append (sheds_newline (level + 1))).append (sheds_quote key)).append
        sheds_colon).append hfirst).append hmore).append (sheds_newline level)).append hclosing
      rw [pretty, compact, compactMembers_cons]
      simpa only [String.append_empty, String.append_assoc] using hall

/-! ## Whole texts -/

theorem squeeze_pretty {x : Json} (hx : x.Whole) (level : Nat) : squeeze (x.pretty level) = x.compact := by
  have hsheds := sheds_pretty hx level []
  rw [List.append_nil, withoutBlanks, List.append_nil] at hsheds
  rw [squeeze, hsheds, String.ofList_toList]

theorem squeeze_squeeze (s : String) : squeeze (squeeze s) = squeeze s := by
  rw [squeeze, squeeze, String.toList_ofList, withoutBlanks_idem]

theorem squeeze_compact {x : Json} (hx : x.Whole) : squeeze x.compact = x.compact := by
  rw [← squeeze_pretty hx 0, squeeze_squeeze]

/-- **No two documents have the same text with a line per member.** -/
theorem pretty_injective {x y : Json} (hx : x.Whole) (hy : y.Whole) {level : Nat}
    (h : x.pretty level = y.pretty level) : x = y := by
  apply compact_injective hx hy
  rw [← squeeze_pretty hx level, ← squeeze_pretty hy level, h]

end QueryTemplate.Json
