import QueryTemplate.Json.Reader
import QueryTemplate.Proofs.Juxtaposition
import QueryTemplate.Proofs.Lexing

/-!
# JSON texts are read back

A document that is written on one line is read back as it was, whatever characters its strings have. Its
numbers have to be spelled as integers are, and no part of it may be without a value.

* **`readUnits_escape`**, **`joinUnits_map`**: a string, one escaped character at a time.
* **`readUnsigned_toDigits`**: an integer, in front of what may stand behind a value.
* **`reads_compact`**: a document in front of what may stand behind it, by induction on the document.
* **`compact_injective`**: so no two documents have the same text.
-/

namespace QueryTemplate.Json

open QueryTemplate.Filter (span_append_of_stop toList_toString_int isDigit_of_mem_toDigits)

/-! ## Strings -/

theorem hexValue?_hexDigit {n : Nat} (h : n < 16) : hexValue? (hexDigit n) = some n := by
  have hall : ∀ n < 16, hexValue? (hexDigit n) = some n := by decide
  exact hall n h

/-- An escaped character is read as its code point. -/
theorem readUnits_escape_append (c : Char) (cs : List Char) :
    readUnits (escape c ++ cs) = (readUnits cs).map fun r => (c.toNat :: r.1, r.2) := by
  unfold escape
  split
  · subst_vars; rfl
  split
  · subst_vars; rfl
  split
  · subst_vars; rfl
  split
  · subst_vars; rfl
  split
  · subst_vars; rfl
  split
  · subst_vars; rfl
  split
  · subst_vars; rfl
  split
  · -- a control character without a letter of its own is written with its number
    have hhigh := hexValue?_hexDigit (n := c.toNat / 16) (by omega)
    have hlow := hexValue?_hexDigit (n := c.toNat % 16) (by omega)
    have hvalue : hexValue4? '0' '0' (hexDigit (c.toNat / 16)) (hexDigit (c.toNat % 16)) = some c.toNat := by
      have hzero : hexValue? '0' = some 0 := rfl
      simp only [hexValue4?, hzero, hhigh, hlow, bind, Option.bind, Option.some.injEq]
      omega
    show readUnits ('\\' :: 'u' :: '0' :: '0' :: _ :: _ :: cs) = _
    rw [readUnits, hvalue]
  · rename_i hquote hbackslash _ _ _ _ _ hcontrol
    show readUnits (c :: cs) = _
    rw [readUnits, if_neg (by simp [hcontrol, hbackslash])] <;> simp [hquote, hbackslash]

theorem readUnits_escape (cs rest : List Char) :
    readUnits (cs.flatMap escape ++ '"' :: rest) = some (cs.map Char.toNat, rest) := by
  induction cs with
  | nil => rfl
  | cons c cs ih =>
    rw [List.flatMap_cons, List.append_assoc, readUnits_escape_append, ih]
    rfl

/-- No character is half of a surrogate pair. -/
theorem not_surrogate (c : Char) : c.toNat < 0xd800 ∨ 0xdfff < c.toNat := by
  have hvalid : c.toNat < 0xd800 ∨ 0xdfff < c.toNat ∧ c.toNat < 0x110000 := c.valid
  omega

theorem joinUnits_map (cs : List Char) : joinUnits (cs.map Char.toNat) = some cs := by
  induction cs with
  | nil => rfl
  | cons c cs ih =>
    have hc := not_surrogate c
    cases cs with
    | nil =>
      rw [List.map_singleton, joinUnits, if_neg (by simp; omega), Char.ofNat_toNat]
    | cons d cs =>
      rw [List.map_cons] at ih
      rw [List.map_cons, List.map_cons, joinUnits, if_neg (by simp; omega), if_neg (by simp; omega), ih,
        Option.map_some, Char.ofNat_toNat]

theorem readText_escape (s : String) (rest : List Char) :
    readText (s.toList.flatMap escape ++ '"' :: rest) = some (some s, rest) := by
  simp only [readText, readUnits_escape, Option.map_some, joinUnits_map, String.ofList_toList]

theorem toList_quote (s : String) : (quote s).toList = '"' :: (s.toList.flatMap escape ++ ['"']) := by
  simp [quote]

/-! ## Integers -/

/-- What may stand behind a value: nothing, a comma or a closing bracket. -/
def Follows (rest : List Char) : Prop :=
  ∀ c cs, rest = c :: cs → c = ',' ∨ c = ']' ∨ c = '\x7d'

theorem follows_nil : Follows [] :=
  nofun

theorem follows_cons {c : Char} (h : c = ',' ∨ c = ']' ∨ c = '\x7d') (cs : List Char) : Follows (c :: cs) := by
  rintro _ _ ⟨⟩
  exact h

theorem spanDigits_append {ds rest : List Char} (hds : ∀ d ∈ ds, d.isDigit = true) (hrest : Follows rest) :
    spanDigits (ds ++ rest) = (ds, rest) := by
  have hstop : ∀ c cs, rest = c :: cs → c.isDigit = false := fun c cs hc => by
    rcases hrest c cs hc with rfl | rfl | rfl <;> rfl
  obtain ⟨htake, hdrop⟩ := span_append_of_stop hstop ds
  rw [spanDigits, htake, hdrop, List.takeWhile_eq_self_iff.2 hds, List.dropWhile_eq_nil_iff.2 hds,
    List.nil_append]

/-- Only the numeral of zero starts with a zero. -/
theorem eq_zero_of_toDigits {n : Nat} {ds : List Char} (h : Nat.toDigits 10 n = '0' :: ds) : n = 0 := by
  induction n using Nat.strong_induction_on generalizing ds with
  | _ n ih =>
    by_cases hn : n < 10
    · have hall : ∀ n < 10, n.digitChar = '0' → n = 0 := by decide
      rw [Nat.toDigits_of_lt_base hn] at h
      exact hall n hn (List.cons.inj h).1
    · -- the first digit is that of a tenth of the number, which is not zero
      rw [Nat.toDigits_of_base_le (by decide) (by omega)] at h
      obtain ⟨d, front, hfront⟩ := List.exists_cons_of_ne_nil (Nat.toDigits_ne_nil (b := 10) (n := n / 10))
      rw [hfront] at h
      have hd : d = '0' := (List.cons.inj h).1
      have := ih (n / 10) (by omega) (hd ▸ hfront)
      omega

theorem readUnsigned_toDigits (n : Nat) {rest : List Char} (hrest : Follows rest) :
    readUnsigned (Nat.toDigits 10 n ++ rest) = some (Nat.toDigits 10 n, rest) := by
  have hspan := spanDigits_append (fun _ => isDigit_of_mem_toDigits (n := n)) hrest
  have hfraction : readFraction rest = some ([], rest) := by
    cases rest with
    | nil => rfl
    | cons c cs => rcases hrest c cs rfl with rfl | rfl | rfl <;> rfl
  have hexponent : readExponent rest = some ([], rest) := by
    cases rest with
    | nil => rfl
    | cons c cs => rcases hrest c cs rfl with rfl | rfl | rfl <;> rfl
  have hwhole : ∀ d ds, Nat.toDigits 10 n ≠ '0' :: d :: ds := by
    intro d ds h
    rw [eq_zero_of_toDigits h] at h
    cases h
  unfold readUnsigned
  rw [hspan]
  split
  · rename_i h
    exact absurd (Prod.mk.inj h).1 Nat.toDigits_ne_nil
  · rename_i h
    exact absurd (Prod.mk.inj h).1 (hwhole _ _)
  · simp [hfraction, hexponent]

/-! ## Documents -/

/-- A document whose numbers are spelled as integers are, and of which every part has a value. -/
inductive Whole : Json → Prop where
  | null : Whole .null
  | bool (b : Bool) : Whole (.bool b)
  | integer (n : Int) : Whole (.number (toString n))
  | text (s : String) : Whole (.text s)
  | array {items : List Json} (h : ∀ x ∈ items, Whole x) : Whole (.array items)
  | object {members : List (String × Json)} (h : ∀ m ∈ members, Whole m.2) : Whole (.object members)

mutual

/-- How many arrays and objects stand inside each other. -/
def nesting : Json → Nat
  | .array items => nestingItems items + 1
  | .object members => nestingMembers members + 1
  | _ => 0

def nestingItems : List Json → Nat
  | [] => 0
  | x :: rest => max x.nesting (nestingItems rest)

def nestingMembers : List (String × Json) → Nat
  | [] => 0
  | (_, x) :: rest => max x.nesting (nestingMembers rest)

end

theorem nestingItems_lt_iff {items : List Json} {n : Nat} (hn : 0 < n) :
    nestingItems items < n ↔ ∀ x ∈ items, x.nesting < n := by
  induction items with
  | nil => simpa [nestingItems] using hn
  | cons x items ih => rw [nestingItems, Nat.max_lt, ih, List.forall_mem_cons]

theorem nestingMembers_lt_iff {members : List (String × Json)} {n : Nat} (hn : 0 < n) :
    nestingMembers members < n ↔ ∀ m ∈ members, m.2.nesting < n := by
  induction members with
  | nil => simpa [nestingMembers] using hn
  | cons m members ih => rw [nestingMembers, Nat.max_lt, ih, List.forall_mem_cons]

theorem ne_of_isDigit {d c : Char} (hd : d.isDigit = true) (hc : c.isDigit = false) : d ≠ c := by
  rintro rfl
  rw [hd] at hc
  cases hc

theorem isSpace_of_isDigit {d : Char} (hd : d.isDigit = true) : isSpace d = false := by
  have hne {c : Char} : c.isDigit = false → d ≠ c := ne_of_isDigit hd
  simp [isSpace, hne (c := ' ') rfl, hne (c := '\n') rfl, hne (c := '\t') rfl, hne (c := '\r') rfl]

theorem readNested_of_isDigit {d : Char} (hd : d.isDigit = true) (n : Nat) (cs : List Char) :
    readNested (n + 1) (d :: cs) = (readUnsigned (d :: cs)).map fun r => (.number (String.ofList r.1), r.2) := by
  have hne (c : Char) : c.isDigit = false → d ≠ c := ne_of_isDigit hd
  have hskip : skip (d :: cs) = d :: cs := List.dropWhile_cons_of_neg (by simp [isSpace_of_isDigit hd])
  -- no other document starts with a digit
  rw [readNested, hskip]
  simp [hne '"' rfl, hne '[' rfl, hne '\x7b' rfl, hne 'n' rfl, hne 't' rfl, hne 'f' rfl, hne '-' rfl]

theorem readNested_integer (i : Int) (n : Nat) {rest : List Char} (hrest : Follows rest) :
    readNested (n + 1) ((toString i).toList ++ rest) = some (.number (toString i), rest) := by
  have hread {k : Nat} := readUnsigned_toDigits k hrest
  conv => rhs; rw [← String.ofList_toList (s := toString i)]
  rw [toList_toString_int]
  split
  · obtain ⟨d, ds, hds⟩ := List.exists_cons_of_ne_nil (Nat.toDigits_ne_nil (b := 10) (n := i.toNat))
    have hd : d.isDigit = true := isDigit_of_mem_toDigits (hds ▸ List.mem_cons_self)
    rw [hds, List.cons_append, readNested_of_isDigit hd, ← List.cons_append, ← hds, hread]
    rfl
  · show (readUnsigned (Nat.toDigits 10 (-i).toNat ++ rest)).map _ = _
    rw [hread]
    rfl

theorem toList_compact_array (items : List Json) :
    (compact (.array items)).toList = '[' :: ((compactItems items).toList ++ [']']) := by
  simp [compact]

theorem toList_compact_object (members : List (String × Json)) :
    (compact (.object members)).toList = '\x7b' :: ((compactMembers members).toList ++ ['\x7d']) := by
  simp [compact]

/-- With which characters a document may start. -/
theorem exists_toList_compact {x : Json} (hx : x.Whole) :
    ∃ c cs, x.compact.toList = c :: cs ∧ isSpace c = false ∧ c ≠ ']' := by
  cases hx with
  | null => exact ⟨_, _, rfl, rfl, by decide⟩
  | bool b => cases b <;> exact ⟨_, _, rfl, rfl, by decide⟩
  | integer n =>
    rw [compact, toList_toString_int]
    split
    · obtain ⟨d, ds, hds⟩ := List.exists_cons_of_ne_nil (Nat.toDigits_ne_nil (b := 10) (n := n.toNat))
      have hd : d.isDigit = true := isDigit_of_mem_toDigits (hds ▸ List.mem_cons_self)
      exact ⟨d, ds, hds, isSpace_of_isDigit hd, ne_of_isDigit hd rfl⟩
    · exact ⟨_, _, rfl, rfl, by decide⟩
  | text s => exact ⟨_, _, by rw [compact, toList_quote], rfl, by decide⟩
  | array h => exact ⟨_, _, toList_compact_array _, rfl, by decide⟩
  | object h => exact ⟨_, _, toList_compact_object _, rfl, by decide⟩

/-- A reader that takes the document off the front of a text, wherever documents may stand. -/
def Reads (read : Reader Json) (x : Json) : Prop :=
  ∀ rest, Follows rest → read (x.compact.toList ++ rest) = some (x, rest)

theorem skip_cons {c : Char} (h : isSpace c = false) (cs : List Char) : skip (c :: cs) = c :: cs :=
  List.dropWhile_cons_of_neg (by simp [h])

theorem readItems_compact {read : Reader Json} {items : List Json} (hne : items ≠ [])
    (h : ∀ x ∈ items, Reads read x) {n : Nat} (hn : items.length ≤ n) (rest : List Char) :
    readItems read n ((compactItems items).toList ++ ']' :: rest) = some (items, rest) := by
  induction items generalizing n with
  | nil => exact absurd rfl hne
  | cons x items ih =>
    obtain ⟨n, rfl⟩ := Nat.exists_eq_succ_of_ne_zero (n := n) (by rintro rfl; cases hn)
    have hx := h x List.mem_cons_self
    cases items with
    | nil =>
      have hread := hx _ (follows_cons (.inr (.inl rfl)) rest)
      rw [compactItems, readItems, hread]
      rfl
    | cons y items =>
      have hmore := ih (List.cons_ne_nil _ _) (fun z hz => h z (List.mem_cons_of_mem _ hz))
        (Nat.le_of_succ_le_succ hn)
      have hread := hx (',' :: ((compactItems (y :: items)).toList ++ ']' :: rest)) (follows_cons (.inl rfl) _)
      have htext : (compactItems (x :: y :: items)).toList ++ ']' :: rest
          = x.compact.toList ++ ',' :: ((compactItems (y :: items)).toList ++ ']' :: rest) := by
        simp [compactItems]
      rw [htext, readItems, hread]
      show (readItems read n _).map _ = _
      rw [hmore]
      rfl

theorem readMembers_compact {read : Reader Json} {members : List (String × Json)} (hne : members ≠ [])
    (h : ∀ m ∈ members, Reads read m.2) {n : Nat} (hn : members.length ≤ n) (rest : List Char) :
    readMembers read n ((compactMembers members).toList ++ '\x7d' :: rest)
      = some (members.map fun m => (some m.1, m.2), rest) := by
  induction members generalizing n with
  | nil => exact absurd rfl hne
  | cons m members ih =>
    obtain ⟨key, x⟩ := m
    obtain ⟨n, rfl⟩ := Nat.exists_eq_succ_of_ne_zero (n := n) (by rintro rfl; cases hn)
    have hx := h (key, x) List.mem_cons_self
    cases members with
    | nil =>
      have hread := hx _ (follows_cons (.inr (.inr rfl)) rest)
      have htext : (compactMembers [(key, x)]).toList ++ '\x7d' :: rest
          = '"' :: (key.toList.flatMap escape ++ '"' :: ':' :: (x.compact.toList ++ '\x7d' :: rest)) := by
        simp [compactMembers, toList_quote]
      rw [htext, readMembers, skip_cons rfl]
      simp only [readText_escape, Option.bind_eq_bind, Option.bind_some, skip_cons (c := ':') rfl]
      rw [hread]
      rfl
    | cons y members =>
      have hmore := ih (List.cons_ne_nil _ _) (fun z hz => h z (List.mem_cons_of_mem _ hz))
        (Nat.le_of_succ_le_succ hn)
      have hread := hx (',' :: ((compactMembers (y :: members)).toList ++ '\x7d' :: rest)) (follows_cons (.inl rfl) _)
      have htext : (compactMembers ((key, x) :: y :: members)).toList ++ '\x7d' :: rest
          = '"' :: (key.toList.flatMap escape ++ '"' :: ':' ::
            (x.compact.toList ++ ',' :: ((compactMembers (y :: members)).toList ++ '\x7d' :: rest))) := by
        simp [compactMembers, toList_quote]
      rw [htext, readMembers, skip_cons rfl]
      simp only [readText_escape, Option.bind_eq_bind, Option.bind_some, skip_cons (c := ':') rfl]
      rw [hread]
      show (readMembers read n _).map _ = _
      rw [hmore]
      rfl

theorem ofMembers_map (members : List (String × Json)) :
    ofMembers (members.map fun m => (some m.1, m.2)) = .object members := by
  have hmapM {f : Option String × Json → Option (String × Json)} (hf : ∀ m, f (some m.1, m.2) = some m) :
      (members.map fun m => (some m.1, m.2)).mapM f = some members := by
    induction members with
    | nil => rfl
    | cons m members ih => rw [List.map_cons, List.mapM_cons, hf, ih]; rfl
  rw [ofMembers, hmapM fun _ => rfl]

theorem length_le_compactItems (items : List Json) : items.length ≤ (compactItems items).toList.length + 1 := by
  induction items with
  | nil => exact Nat.zero_le _
  | cons x items ih =>
    cases items with
    | nil => exact Nat.le_add_left _ _
    | cons y items =>
      rw [compactItems, String.toList_append, String.toList_append, List.length_append, List.length_append,
        List.length_cons]
      have hcomma : ",".toList.length = 1 := rfl
      omega

theorem length_le_compactMembers (members : List (String × Json)) :
    members.length ≤ (compactMembers members).toList.length + 1 := by
  induction members with
  | nil => exact Nat.zero_le _
  | cons m members ih =>
    cases members with
    | nil => exact Nat.le_add_left _ _
    | cons y members =>
      rw [compactMembers, String.toList_append, String.toList_append, List.length_append, List.length_append,
        List.length_cons]
      have hcomma : ",".toList.length = 1 := rfl
      omega

theorem readNested_bracket {c : Char} (hspace : isSpace c = false) (hc : c ≠ ']') (n : Nat) (cs : List Char) :
    readNested (n + 1) ('[' :: c :: cs)
      = (readItems (readNested n) (c :: cs).length (c :: cs)).map fun r => (.array r.1, r.2) := by
  rw [readNested, skip_cons rfl]
  simp [skip_cons hspace, hc]

theorem readNested_array {n : Nat} {items : List Json} (hitems : ∀ x ∈ items, x.Whole)
    (h : ∀ x ∈ items, Reads (readNested n) x) : Reads (readNested (n + 1)) (.array items) := by
  intro rest _
  rw [toList_compact_array, List.cons_append, List.append_assoc, List.singleton_append]
  cases items with
  | nil => rfl
  | cons x items =>
    -- what follows the bracket is the first item
    obtain ⟨c, cs, hspace, hc, hfirst⟩ : ∃ c cs, isSpace c = false ∧ c ≠ ']'
        ∧ (compactItems (x :: items)).toList ++ ']' :: rest = c :: cs := by
      obtain ⟨c, cs, hx, hspace, hc⟩ := exists_toList_compact (hitems x List.mem_cons_self)
      cases items with
      | nil => exact ⟨c, _, hspace, hc, by rw [compactItems, hx, List.cons_append]⟩
      | cons y items =>
        exact ⟨c, _, hspace, hc, by
          rw [compactItems, String.toList_append, String.toList_append, hx, List.cons_append, List.cons_append,
            List.cons_append]⟩
    have hlength : (x :: items).length ≤ ((compactItems (x :: items)).toList ++ ']' :: rest).length := by
      have := length_le_compactItems (x :: items)
      rw [List.length_append, List.length_cons (a := ']')]
      omega
    have hread := readItems_compact (List.cons_ne_nil x items) h hlength rest
    rw [hfirst] at hread ⊢
    rw [readNested_bracket hspace hc, hread]
    rfl

theorem readNested_object {n : Nat} {members : List (String × Json)}
    (h : ∀ m ∈ members, Reads (readNested n) m.2) : Reads (readNested (n + 1)) (.object members) := by
  intro rest _
  rw [toList_compact_object, List.cons_append, List.append_assoc, List.singleton_append]
  cases members with
  | nil => rfl
  | cons m members =>
    -- what follows the brace is the first key
    obtain ⟨cs, hfirst⟩ : ∃ cs, (compactMembers (m :: members)).toList ++ '\x7d' :: rest = '"' :: cs := by
      obtain ⟨key, x⟩ := m
      cases members with
      | nil => exact ⟨_, by simp [compactMembers, toList_quote]; rfl⟩
      | cons y members => exact ⟨_, by simp [compactMembers, toList_quote]; rfl⟩
    have hlength : (m :: members).length ≤ ((compactMembers (m :: members)).toList ++ '\x7d' :: rest).length := by
      have := length_le_compactMembers (m :: members)
      rw [List.length_append, List.length_cons (a := '\x7d')]
      omega
    have hread := readMembers_compact (List.cons_ne_nil m members) h hlength rest
    rw [hfirst] at hread ⊢
    show (readMembers (readNested n) _ _).map _ = _
    rw [hread]
    exact congrArg (fun x => some (x, rest)) (ofMembers_map _)

/-- **A document is read back**, by induction on the document. -/
theorem reads_compact {x : Json} (hx : x.Whole) {n : Nat} (hn : x.nesting < n) : Reads (readNested n) x := by
  induction hx generalizing n with
  | null =>
    intro rest _
    obtain ⟨n, rfl⟩ := Nat.exists_eq_succ_of_ne_zero (Nat.ne_of_gt hn)
    rfl
  | bool b =>
    intro rest _
    obtain ⟨n, rfl⟩ := Nat.exists_eq_succ_of_ne_zero (Nat.ne_of_gt hn)
    cases b <;> rfl
  | integer i =>
    intro rest hrest
    obtain ⟨n, rfl⟩ := Nat.exists_eq_succ_of_ne_zero (Nat.ne_of_gt hn)
    exact readNested_integer i n hrest
  | text s =>
    intro rest _
    obtain ⟨n, rfl⟩ := Nat.exists_eq_succ_of_ne_zero (Nat.ne_of_gt hn)
    rw [compact, toList_quote, List.cons_append, List.append_assoc, List.singleton_append]
    show (readText _).map _ = _
    rw [readText_escape]
    rfl
  | @array items h ih =>
    obtain ⟨n, rfl⟩ := Nat.exists_eq_succ_of_ne_zero (n := n) (by rintro rfl; cases hn)
    rw [nesting, Nat.succ_eq_add_one, Nat.add_lt_add_iff_right] at hn
    exact readNested_array h fun x hx => ih x hx ((nestingItems_lt_iff (Nat.zero_lt_of_lt hn)).1 hn x hx)
  | @object members h ih =>
    obtain ⟨n, rfl⟩ := Nat.exists_eq_succ_of_ne_zero (n := n) (by rintro rfl; cases hn)
    rw [nesting, Nat.succ_eq_add_one, Nat.add_lt_add_iff_right] at hn
    exact readNested_object fun m hm => ih m hm ((nestingMembers_lt_iff (Nat.zero_lt_of_lt hn)).1 hn m hm)

theorem length_compact_le_compactItems {items : List Json} {x : Json} (hx : x ∈ items) :
    x.compact.length ≤ (compactItems items).length := by
  induction items with
  | nil => cases hx
  | cons y items ih =>
    cases items with
    | nil => rw [List.mem_singleton.1 hx, compactItems]
    | cons z items =>
      rw [compactItems, String.length_append, String.length_append]
      rcases List.mem_cons.1 hx with rfl | hx
      · omega
      · have := ih hx
        omega

theorem length_compact_le_compactMembers {members : List (String × Json)} {m : String × Json}
    (hm : m ∈ members) : m.2.compact.length ≤ (compactMembers members).length := by
  induction members with
  | nil => cases hm
  | cons y members ih =>
    cases members with
    | nil =>
      rw [List.mem_singleton.1 hm, compactMembers, String.length_append]
      omega
    | cons z members =>
      simp only [compactMembers, String.length_append]
      rcases List.mem_cons.1 hm with rfl | hm
      · omega
      · have := ih hm
        omega

/-- A document nests no deeper than its text is long. -/
theorem nesting_le_length {x : Json} (hx : x.Whole) : x.nesting ≤ x.compact.length := by
  induction hx with
  | @array items h ih =>
    have hlt : nestingItems items < (compactItems items).length + 1 := by
      refine (nestingItems_lt_iff (Nat.succ_pos _)).2 fun x hx => ?_
      exact Nat.lt_succ_of_le ((ih x hx).trans (length_compact_le_compactItems hx))
    have hbracket : "[".length = 1 := rfl
    rw [nesting, compact, String.length_append, String.length_append]
    omega
  | @object members h ih =>
    have hlt : nestingMembers members < (compactMembers members).length + 1 := by
      refine (nestingMembers_lt_iff (Nat.succ_pos _)).2 fun m hm => ?_
      exact Nat.lt_succ_of_le ((ih m hm).trans (length_compact_le_compactMembers hm))
    have hbrace : "\x7b".length = 1 := rfl
    rw [nesting, compact, String.length_append, String.length_append]
    omega
  | _ => exact Nat.zero_le _

theorem read?_compact {x : Json} (hx : x.Whole) : read? x.compact = some x := by
  have hn : x.nesting < x.compact.length + 1 := Nat.lt_succ_of_le (nesting_le_length hx)
  have hread := reads_compact hx hn [] follows_nil
  rw [List.append_nil] at hread
  rw [read?, hread]
  rfl

/-- **No two documents have the same text.** -/
theorem compact_injective {x y : Json} (hx : x.Whole) (hy : y.Whole) (h : x.compact = y.compact) : x = y :=
  Option.some.inj ((read?_compact hx).symm.trans (h ▸ read?_compact hy))

end QueryTemplate.Json
