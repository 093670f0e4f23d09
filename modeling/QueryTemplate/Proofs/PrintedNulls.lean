import QueryTemplate.Proofs.Json.Filters
import QueryTemplate.Proofs.Number.Numerals
import QueryTemplate.Proofs.Reading.Condition

/-!
# Values that are printed as null

JSON has no numbers that are not finite, so such a value is printed as `null`, like the value `null` itself.
This module says which texts have one of these values.

* **`Value.compact_toJson_eq_null_iff`**: no other value is printed as `null`.
* **`Value.printsNull_infer_iff`**: the raw texts that are.
* **`Filter.printsNull_number_iff`**: the numbers of filter text, where there are no words for numbers.
* **`Filter.Derives.stands`**: every operand stands in the text, so no other literal of a filter joins them.
-/

namespace QueryTemplate

open QueryTemplate.Number

/-! ## The printed text -/

/-- The text starts like a number. -/
def StartsNumber (cs : List Char) : Prop :=
  ∃ c rest, cs = c :: rest ∧ (c = '-' ∨ c.isDigit = true)

theorem StartsNumber.append {cs : List Char} (h : StartsNumber cs) (more : List Char) :
    StartsNumber (cs ++ more) := by
  obtain ⟨c, rest, rfl, hc⟩ := h
  exact ⟨c, rest ++ more, rfl, hc⟩

theorem not_startsNumber_null : ¬StartsNumber "null".toList := by
  intro ⟨c, rest, hcs, hc⟩
  have hn : 'n' = c := (List.cons.inj hcs).1
  subst hn
  revert hc
  decide

namespace Number.FloatStyle

/-- Digits do not start with the point, wherever it is put. -/
theorem startsNumber_place (style : FloatStyle) {d : Char} (hd : d.isDigit = true) (ds : List Char) (p : Int) :
    StartsNumber (style.place (d :: ds) p).toList := by
  unfold place
  split
  · rw [String.toList_append, String.toList_ofList]
    exact ⟨d, _, rfl, .inr hd⟩
  · dsimp only
    split
    case isTrue hfew =>
      obtain ⟨n, hn⟩ : ∃ n, (d :: ds).length - (-p).toNat = n + 1 :=
        Nat.exists_eq_succ_of_ne_zero (Nat.sub_ne_zero_of_lt hfew)
      rw [hn, List.take_succ_cons, String.toList_append, String.toList_append, String.toList_ofList]
      exact ⟨d, _, rfl, .inr hd⟩
    case isFalse =>
      rw [String.toList_append]
      exact ⟨'0', _, rfl, .inr (by decide)⟩

theorem startsNumber_scientific {d : Char} (hd : d.isDigit = true) (ds : List Char) (e : Int) :
    StartsNumber (scientific (d :: ds) e).toList := by
  unfold scientific
  dsimp only
  rw [String.toList_append, String.toList_append, String.toList_ofList]
  cases ds with
  | nil => exact ⟨d, _, rfl, .inr hd⟩
  | cons d' ds => exact ⟨d, _, rfl, .inr hd⟩

theorem startsNumber_signed (negative : Bool) {s : String} (h : StartsNumber s.toList) :
    StartsNumber ((if negative then "-" else "") ++ s).toList := by
  rw [String.toList_append]
  cases negative with
  | true => exact ⟨'-', s.toList, rfl, .inl rfl⟩
  | false => exact h

/-- The text of a finite number starts with a sign or a digit. -/
theorem startsNumber_write (style : FloatStyle) (negative : Bool) (exponent : Fin 2047)
    (fraction : Fin fractionCount) : StartsNumber (style.write (.finite negative exponent fraction)).toList := by
  unfold write
  dsimp only
  split
  · have hzero : StartsNumber "0".toList := ⟨'0', [], rfl, .inr (by decide)⟩
    rw [String.toList_append]
    exact (startsNumber_signed negative hzero).append _
  · apply startsNumber_signed
    generalize (shortest style.tie (Binary64.scaled exponent fraction).1 (Binary64.scaled exponent fraction).2) = cp
    obtain ⟨d, ds, hds⟩ := List.exists_cons_of_ne_nil (Nat.toDigits_ne_nil (b := 10) (n := cp.1))
    have hd : d.isDigit = true := Filter.isDigit_of_mem_toDigits (hds ▸ List.mem_cons_self)
    rw [hds]
    split
    · exact startsNumber_place style hd ds _
    · exact startsNumber_scientific hd ds _

end Number.FloatStyle

namespace Value

/-- **Only what is not finite joins null.** A finite number starts with a sign or a digit, a text with a quote. -/
theorem compact_toJson_eq_null_iff (v : Value) :
    v.toJson.compact = "null" ↔ v = .null ∨ ∃ x, v = .float x ∧ x.isFinite = false := by
  cases v with
  | null => exact iff_of_true rfl (.inl rfl)
  | integer n =>
    have hstarts : StartsNumber (toString n.toInt).toList := by
      rw [Filter.toList_toString_int]
      split
      · obtain ⟨d, ds, hds⟩ := List.exists_cons_of_ne_nil (Nat.toDigits_ne_nil (b := 10) (n := n.toInt.toNat))
        exact ⟨d, ds, hds, .inr (Filter.isDigit_of_mem_toDigits (hds ▸ List.mem_cons_self))⟩
      · exact ⟨'-', _, rfl, .inl rfl⟩
    apply iff_of_false
    · intro h
      have htext : toString n.toInt = "null" := h
      exact not_startsNumber_null (htext ▸ hstarts)
    · simp
  | float x =>
    cases x with
    | nan => exact iff_of_true rfl (.inr ⟨.nan, rfl, rfl⟩)
    | infinite negative => exact iff_of_true rfl (.inr ⟨.infinite negative, rfl, rfl⟩)
    | finite negative exponent fraction =>
      have hstarts := jsonStyle.startsNumber_write negative exponent fraction
      apply iff_of_false
      · intro h
        have htext : jsonStyle.write (.finite negative exponent fraction) = "null" := h
        exact not_startsNumber_null (htext ▸ hstarts)
      · rintro (h | ⟨x, hx, hfinite⟩)
        · cases h
        · cases hx
          cases hfinite
  | text s =>
    apply iff_of_false
    · intro h
      have hquote : (Json.quote s).toList = "null".toList := congrArg String.toList h
      rw [Json.toList_quote] at hquote
      cases hquote
    · simp
  | boolean b =>
    cases b with
    | true => exact iff_of_false (by decide) (by simp)
    | false => exact iff_of_false (by decide) (by simp)

end Value

/-! ## Raw text -/

namespace Value

theorem infer_eq_null_iff (raw : String) : infer raw = .null ↔ Text.lower raw = "null" := by
  constructor
  · intro h
    unfold infer at h
    split at h
    · cases h
    split at h
    · cases h
    split_ifs at h with htrue hfalse hnull
    exact hnull
  · intro h
    exact infer_of_literalWords (by simp [literalWords, h])

theorem exists_infer_not_finite_iff (raw : String) :
    (∃ x, infer raw = .float x ∧ x.isFinite = false)
      ↔ ∃ x, Binary64.read? raw.toList = some x ∧ x.isFinite = false := by
  unfold infer
  cases hint : readInt64? raw.toList with
  | some n =>
    apply iff_of_false
    · intro ⟨x, hx, hfinite⟩
      cases hx
    · intro ⟨x, hx, hfinite⟩
      rw [isFinite_of_readInt64? hint hx] at hfinite
      cases hfinite
  | none =>
    cases Binary64.read? raw.toList with
    | some x => simp
    | none =>
      apply iff_of_false
      · intro ⟨x, hx, hfinite⟩
        dsimp only at hx
        split_ifs at hx
      · intro ⟨x, hx, hfinite⟩
        cases hx

/-- **The raw texts that are printed as null**: the word for it, the words for numbers that are not finite, and
the numerals that are too large. -/
theorem printsNull_infer_iff (raw : String) :
    (infer raw).toJson.compact = "null" ↔ Text.lower raw = "null" ∨ NamesUnbounded raw ∨ TooLarge raw.toList := by
  rw [compact_toJson_eq_null_iff, infer_eq_null_iff, exists_infer_not_finite_iff, exists_not_finite_iff]

end Value

/-! ## Literals of filter text -/

namespace Filter

/-- The numeral that a text starts with: an optional sign, and digits with at most one point among them. -/
def numeral : List Char → List Char
  | '-' :: cs => '-' :: (spanNumber cs).1
  | cs => (spanNumber cs).1

theorem numeral_of_ne {c : Char} (h : c ≠ '-') (cs : List Char) : numeral (c :: cs) = (spanNumber (c :: cs)).1 := by
  unfold numeral
  split
  case h_1 hcons => exact absurd (List.cons.inj hcons).1 h
  case h_2 => rfl

theorem numberValue?_of_numberToken {text rest rest' : List Char} {v : Value}
    (h : numberToken text rest = .ok (.number v, rest')) : numberValue? text = some v := by
  unfold numberToken at h
  split at h
  · cases h
    assumption
  · cases h

/-- A number is read from the numeral in front. -/
theorem numberValue?_of_readToken {c : Char} {cs rest : List Char} {v : Value}
    (h : readToken c cs = .ok (.number v, rest)) : numberValue? (numeral (c :: cs)) = some v := by
  revert h
  fun_cases readToken c cs <;> intro h
  -- with a sign and without; no other branch gives a number
  case case16 hminus _ _ hs =>
    have hv := numberValue?_of_numberToken h
    rw [hminus, numeral, hs]
    exact hv
  case case17 hminus hd _ _ hs =>
    have hv := numberValue?_of_numberToken h
    rw [numeral_of_ne hminus, hs]
    exact hv
  all_goals cases h

theorem numberValue?_of_lex {cs : List Char} {lexemes : List Lexeme} (h : lex cs = .ok lexemes) {l : Lexeme}
    (hl : l ∈ lexemes) {v : Value} (hv : l.token = .number v) : numberValue? (numeral l.start) = some v := by
  fun_induction lex cs generalizing lexemes with
  | case1 =>
    cases h
    cases hl
  | case2 c cs hblank ih => exact ih h hl
  | case3 c cs hblank fault hread => cases h
  | case4 c cs hblank token rest hread ih =>
    cases hrest : lex rest with
    | error e =>
      rw [hrest] at h
      cases h
    | ok more =>
      rw [hrest] at h
      cases h
      rcases List.mem_cons.1 hl with rfl | hl
      · have htoken : token = .number v := hv
        exact numberValue?_of_readToken (htoken ▸ hread)
      · exact ih hrest hl

theorem mem_spanNumber {cs : List Char} {c : Char} (h : c ∈ (spanNumber cs).1) : c.isDigit = true ∨ c = '.' := by
  unfold spanNumber at h
  dsimp only at h
  split at h
  · rcases List.mem_append.1 h with h | h
    · exact .inl (List.mem_takeWhile_imp h)
    · rcases List.mem_cons.1 h with rfl | h
      · exact .inr rfl
      · exact .inl (List.mem_takeWhile_imp h)
  · exact .inl (List.mem_takeWhile_imp h)

/-- Numerals have no letters, so none is a word for a number. -/
theorem not_namesUnbounded_numeral (cs : List Char) : ¬NamesUnbounded (String.ofList (numeral cs)) := by
  intro ⟨sign, hsign, word, hword, htext⟩
  have hletter : ∀ sign ∈ ["", "+", "-"], ∀ word ∈ unboundedWords, 'n' ∈ (sign ++ word).toList := by decide
  have hn := hletter sign hsign word hword
  rw [← htext, Text.lower, String.toList_ofList, String.toList_ofList] at hn
  obtain ⟨c, hc, hlower⟩ := List.mem_map.1 hn
  have hkind : c = '-' ∨ c.isDigit = true ∨ c = '.' := by
    unfold numeral at hc
    split at hc
    · exact (List.mem_cons.1 hc).imp_right mem_spanNumber
    · exact .inr (mem_spanNumber hc)
  rcases hkind with rfl | hdigit | rfl
  · revert hlower
    decide
  · rw [toLower_of_isDigit hdigit] at hlower
    subst hlower
    cases hdigit
  · revert hlower
    decide

/-- **The numbers that are printed as null** are those with a point that are too large. -/
theorem printsNull_number_iff {cs : List Char} {v : Value} (h : numberValue? (numeral cs) = some v) :
    v.toJson.compact = "null" ↔ '.' ∈ numeral cs ∧ TooLarge (numeral cs) := by
  rw [Value.compact_toJson_eq_null_iff]
  unfold numberValue? at h
  split at h
  case isTrue hpoint =>
    obtain ⟨x, hx, rfl⟩ := Option.map_eq_some_iff.1 h
    have hlarge := exists_not_finite_iff (String.ofList (numeral cs))
    rw [String.toList_ofList, hx, or_iff_right (not_namesUnbounded_numeral cs)] at hlarge
    rw [← hlarge, and_iff_right (List.contains_iff_mem.1 hpoint)]
    simp
  case isFalse hpoint =>
    obtain ⟨n, -, rfl⟩ := Option.map_eq_some_iff.1 h
    apply iff_of_false
    · simp
    · exact fun ⟨hmem, _⟩ => hpoint (List.contains_iff_mem.2 hmem)

/-! ### Literals stand in the text -/

theorem ItemList.stands {ts : List Token} {os : List Operand} (h : ItemList ts os) {o : Operand} (ho : o ∈ os) :
    ∃ t ∈ ts, Stands t o := by
  induction h with
  | single ht =>
    rw [List.mem_singleton.1 ho]
    exact ⟨_, List.mem_cons_self, ht⟩
  | cons ht _ ih =>
    rcases List.mem_cons.1 ho with rfl | ho
    · exact ⟨_, List.mem_cons_self, ht⟩
    · obtain ⟨u, hu, hstands⟩ := ih ho
      exact ⟨u, List.mem_cons_of_mem _ (List.mem_cons_of_mem _ hu), hstands⟩

theorem IsPredicate.stands {ts : List Token} {f : Filter} (h : IsPredicate ts f) {o : Operand}
    (ho : o ∈ f.operands) : ∃ t ∈ ts, Stands t o := by
  have hpair {us : List Token} {t u : Token} {l r : Operand} (ht : t ∈ us) (hl : Stands t l) (hu : u ∈ us)
      (hr : Stands u r) (ho : o ∈ [l, r]) : ∃ t ∈ us, Stands t o := by
    rcases List.mem_pair.1 ho with rfl | rfl
    · exact ⟨t, ht, hl⟩
    · exact ⟨u, hu, hr⟩
  have hlist (front : List Token) {us items : List Token} {t : Token} {l : Operand} {os : List Operand}
      (hl : Stands t l) (hitems : ItemList items os) (hus : us = t :: front ++ (items ++ [.closing])) (ho : o ∈ l :: os) :
      ∃ t ∈ us, Stands t o := by
    subst hus
    rcases List.mem_cons.1 ho with rfl | ho
    · exact ⟨t, List.mem_append_left _ List.mem_cons_self, hl⟩
    · obtain ⟨u, hu, hstands⟩ := hitems.stands ho
      exact ⟨u, List.mem_append_right _ (List.mem_append_left _ hu), hstands⟩
  cases h with
  | compare op hl hr => exact hpair (by simp) hl (by simp) hr ho
  | like hl _ hr => exact hpair (by simp) hl (by simp) hr ho
  | notLike hl _ _ hr => exact hpair (by simp) hl (by simp) hr ho
  | isIn hl _ hitems => exact hlist [_, .opening] hl hitems rfl ho
  | notIn hl _ _ hitems => exact hlist [_, _, .opening] hl hitems rfl ho
  | isNull hl _ _ => exact ⟨_, List.mem_cons_self, List.mem_singleton.1 ho ▸ hl⟩
  | isNotNull hl _ _ _ => exact ⟨_, List.mem_cons_self, List.mem_singleton.1 ho ▸ hl⟩

/-- The operands of a filter stand in its text. -/
theorem Derives.stands {level : Level} {n : Nat} {ts : List Token} {f : Filter} (h : Derives level n ts f)
    {o : Operand} (ho : o ∈ f.operands) : ∃ t ∈ ts, Stands t o := by
  induction h with
  | predicate h => exact h.stands ho
  | not _ _ ih =>
    obtain ⟨t, ht, hstands⟩ := ih ho
    exact ⟨t, List.mem_cons_of_mem _ ht, hstands⟩
  | group _ ih =>
    obtain ⟨t, ht, hstands⟩ := ih ho
    exact ⟨t, List.mem_cons_of_mem _ (List.mem_append_left _ ht), hstands⟩
  | unary _ ih => exact ih ho
  | conjunction _ ih => exact ih ho
  | and _ _ _ ihl ihr =>
    rcases List.mem_append.1 ho with ho | ho
    · obtain ⟨t, ht, hstands⟩ := ihl ho
      exact ⟨t, List.mem_append_left _ ht, hstands⟩
    · obtain ⟨t, ht, hstands⟩ := ihr ho
      exact ⟨t, List.mem_append_right _ (List.mem_cons_of_mem _ ht), hstands⟩
  | or _ _ _ ihl ihr =>
    rcases List.mem_append.1 ho with ho | ho
    · obtain ⟨t, ht, hstands⟩ := ihl ho
      exact ⟨t, List.mem_append_left _ ht, hstands⟩
    · obtain ⟨t, ht, hstands⟩ := ihr ho
      exact ⟨t, List.mem_append_right _ (List.mem_cons_of_mem _ ht), hstands⟩

/-- A literal that is printed as null is the keyword or a number of the text. -/
theorem literal_printsNull {text : String} {lexemes : List Lexeme} (hlex : lex text.toList = .ok lexemes)
    {f : Filter} (hparse : parse text = .ok f) {v : Value} (hv : .literal v ∈ f.operands)
    (hnull : v.toJson.compact = "null") : v = .null ∨ ∃ l ∈ lexemes, l.token = .number v := by
  obtain ⟨n, -, hderives⟩ := ofTokens_eq_ok_iff.1 ((parse_eq_ok_iff_ofTokens hlex).1 hparse)
  obtain ⟨t, ht, hstands⟩ := hderives.stands hv
  obtain ⟨l, hl, htoken⟩ := List.mem_map.1 ht
  rw [Value.compact_toJson_eq_null_iff] at hnull
  cases hstands with
  | text s => simp at hnull
  | number => exact .inr ⟨l, hl, htoken⟩
  | true_ => simp at hnull
  | false_ => simp at hnull
  | null => exact .inl rfl

end Filter

/-- **The values that are printed as null.** A raw text is printed as null exactly if it is the word for null,
a word for a number that is not finite, or a numeral from the bound of the finite numbers on. In filter text a
number is printed as null exactly if it has a point and is a numeral like that, and apart from such numbers
only the keyword is a literal that is. -/
theorem printed_as_null_iff (raw : String) {text : String} {lexemes : List Filter.Lexeme}
    (hlex : Filter.lex text.toList = .ok lexemes) :
    ((Value.infer raw).toJson.compact = "null" ↔
      Text.lower raw = "null" ∨ NamesUnbounded raw ∨ TooLarge raw.toList)
    ∧ (∀ l ∈ lexemes, ∀ v, l.token = .number v → (v.toJson.compact = "null" ↔
        '.' ∈ Filter.numeral l.start ∧ TooLarge (Filter.numeral l.start)))
    ∧ ∀ f, Filter.parse text = .ok f → ∀ v, .literal v ∈ f.operands → v.toJson.compact = "null" →
        v = .null ∨ ∃ l ∈ lexemes, l.token = .number v := by
  refine ⟨Value.printsNull_infer_iff raw, fun l hl v hv => ?_, fun f hparse v hv hnull => ?_⟩
  · exact Filter.printsNull_number_iff (Filter.numberValue?_of_lex hlex hl hv)
  · exact Filter.literal_printsNull hlex hparse hv hnull

/-- The least power of ten that is too large, with a fraction. -/
def largePower : List Char :=
  '1' :: (List.replicate 309 '0' ++ ['.', '0'])

theorem lex_largePower : Filter.lex (String.ofList ("x = ".toList ++ largePower)).toList
    = .ok [⟨.word "x", "x = ".toList ++ largePower⟩, ⟨.op .eq, "= ".toList ++ largePower⟩,
      ⟨.number (.float (.infinite false)), largePower⟩] := by
  rw [String.toList_ofList]
  decide +kernel

theorem parse_largePower : Filter.parse (String.ofList ("x = ".toList ++ largePower))
    = .ok (.compare (.field "x") .eq (.literal (.float (.infinite false)))) := by
  rw [Filter.parse_eq_ok_iff_ofTokens lex_largePower]
  decide +kernel

/-- A word with a sign as raw text, and the power in filter text. -/
theorem printed_as_null_iff_power :
    let text := String.ofList ("x = ".toList ++ largePower)
    let v : Value := .float (.infinite false)
    ∃ lexemes, Filter.lex text.toList = .ok lexemes ∧ ⟨.number v, largePower⟩ ∈ lexemes
      ∧ ((Value.infer "-Infinity").toJson.compact = "null" ↔ Text.lower "-Infinity" = "null"
        ∨ NamesUnbounded "-Infinity" ∨ TooLarge "-Infinity".toList)
      ∧ (v.toJson.compact = "null" ↔ '.' ∈ Filter.numeral largePower ∧ TooLarge (Filter.numeral largePower))
      ∧ Filter.parse text = .ok (.compare (.field "x") .eq (.literal v)) ∧ v.toJson.compact = "null"
      ∧ (v = .null ∨ ∃ l ∈ lexemes, l.token = .number v) := by
  intro text v
  have hnull : v.toJson.compact = "null" := by decide
  have hlast : (⟨.number v, largePower⟩ : Filter.Lexeme) ∈ [⟨.word "x", "x = ".toList ++ largePower⟩,
      ⟨.op .eq, "= ".toList ++ largePower⟩, ⟨.number v, largePower⟩] := by simp
  obtain ⟨hraw, hnumbers, hliterals⟩ := printed_as_null_iff "-Infinity" lex_largePower
  exact ⟨_, lex_largePower, hlast, hraw, hnumbers _ hlast v rfl, parse_largePower, hnull,
    hliterals _ parse_largePower v (by decide) hnull⟩

/-- A text that is not the word for null but is printed like it, and a numeral of filter text. -/
theorem nan_printed_as_null :
    Text.lower "nan" ≠ "null" ∧ (Value.infer "nan").toJson.compact = "null"
      ∧ ∃ v, Filter.parse (String.ofList ("x = ".toList ++ largePower)) = .ok (.compare (.field "x") .eq (.literal v))
        ∧ v ≠ .null ∧ v.toJson.compact = "null" :=
  ⟨by decide, by decide +kernel, _, parse_largePower, by decide, by decide⟩

end QueryTemplate
