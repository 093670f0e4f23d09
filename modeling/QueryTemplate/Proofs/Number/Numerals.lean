import Mathlib.Data.List.TakeWhile
import QueryTemplate.Proofs.Number.Range
import QueryTemplate.Value

/-!
# Texts that are read as numbers

A text may be read as an integer, and also as a number of 64 bits, which need not be finite.

* **`namesUnbounded_iff`**: the words for numbers that are not finite, with a sign or without, in any case.
* **`exists_not_finite_iff`**: a text is read as a number that is not finite if it is one of them, or a numeral
  from the bound of the finite numbers on.
* **`isFinite_of_readInt64?`**: what is read as an integer is not among them.
* **`reads_nothing`**: a text that starts with a letter is read as neither, unless it is one of the words.
* **`Value.infer_of_literalWords`**: so the words for other values are read as these.
-/

namespace QueryTemplate.Number

/-! ## Signs and small letters -/

/-- Below the small letters no character is the small form of another. -/
theorem eq_of_toLower {c d : Char} (hd : d.toNat < 97) (h : c.toLower = d) : c = d := by
  by_cases hcapital : 'A'.val ≤ c.val ∧ c.val ≤ 'Z'.val
  · have hmoves : c.toLower.val = c.val + 32 := congrArg Char.val (dif_pos hcapital)
    have hlow : 65 ≤ c.toNat := hcapital.1
    have hhigh : c.toNat ≤ 90 := hcapital.2
    have hsum : d.toNat = c.toNat + 32 := by
      rw [← h]
      show c.toLower.val.toNat = c.val.toNat + 32
      rw [hmoves, UInt32.toNat_add]
      show (c.toNat + 32) % 2 ^ 32 = c.toNat + 32
      omega
    omega
  · have hstays : c.toLower = c := dif_neg hcapital
    rw [← hstays, h]

theorem toLower_of_isDigit {c : Char} (h : c.isDigit = true) : c.toLower = c := by
  apply dif_neg
  intro hcapital
  -- the digits come before the capitals
  have hlow : 65 ≤ c.toNat := hcapital.1
  have hdigit : c.toNat ≤ 57 := by
    simp only [Char.isDigit, Bool.and_eq_true, decide_eq_true_eq, UInt32.le_iff_toNat_le] at h
    exact h.2
  omega

theorem splitSign_of_ne {c : Char} (hminus : c ≠ '-') (hplus : c ≠ '+') (cs : List Char) :
    splitSign (c :: cs) = (false, c :: cs) := by
  unfold splitSign
  split
  case h_1 h => exact absurd (List.cons.inj h).1 hminus
  case h_2 h => exact absurd (List.cons.inj h).1 hplus
  case h_3 => rfl

/-- Signs have no capitals. -/
theorem splitSign_map_toLower (cs : List Char) :
    (splitSign (cs.map Char.toLower)).2 = (splitSign cs).2.map Char.toLower := by
  cases cs with
  | nil => rfl
  | cons c cs =>
    by_cases hminus : c = '-'
    · subst hminus
      rfl
    by_cases hplus : c = '+'
    · subst hplus
      rfl
    rw [splitSign_of_ne hminus hplus, List.map_cons, splitSign_of_ne]
    · exact fun h => hminus (eq_of_toLower (by decide) h)
    · exact fun h => hplus (eq_of_toLower (by decide) h)

theorem exists_sign (cs : List Char) : ∃ sign ∈ ["", "+", "-"],
    cs.map Char.toLower = sign.toList ++ (splitSign cs).2.map Char.toLower := by
  unfold splitSign
  split
  case h_1 => exact ⟨"-", by decide, rfl⟩
  case h_2 => exact ⟨"+", by decide, rfl⟩
  case h_3 => exact ⟨"", by decide, rfl⟩

/-! ## Numbers that are not finite -/

/-- The words for numbers that are not finite. -/
def unboundedWords : List String :=
  ["inf", "infinity", "nan"]

/-- The text is one of the words for numbers that are not finite, with or without a sign. -/
def NamesUnbounded (raw : String) : Prop :=
  ∃ sign ∈ ["", "+", "-"], ∃ word ∈ unboundedWords, Text.lower raw = sign ++ word

theorem namesUnbounded_iff (raw : String) :
    NamesUnbounded raw ↔ String.ofList ((splitSign raw.toList).2.map Char.toLower) ∈ unboundedWords := by
  have hword : ∀ sign ∈ ["", "+", "-"], ∀ word ∈ unboundedWords,
      String.ofList (splitSign (sign ++ word).toList).2 = word := by
    decide
  constructor
  · intro ⟨sign, hsign, word, hmem, hraw⟩
    have hbody := hword sign hsign word hmem
    rw [← hraw, Text.lower, String.toList_ofList, splitSign_map_toLower] at hbody
    rwa [hbody]
  · intro hmem
    obtain ⟨sign, hmem', hraw⟩ := exists_sign raw.toList
    refine ⟨sign, hmem', _, hmem, ?_⟩
    rw [Text.lower, hraw, String.ofList_append, String.ofList_toList]

/-- Reads a numeral with an optional sign. -/
def decimal? (cs : List Char) : Option Decimal :=
  readMagnitude? (splitSign cs).1 (splitSign cs).2

/-- The text is a numeral from the bound of the finite numbers on. -/
def TooLarge (cs : List Char) : Prop :=
  ∃ x, decimal? cs = some x ∧ (Binary64.limit : ℚ) ≤ x.magnitude

/-- **What is read as a number that is not finite.** -/
theorem exists_not_finite_iff (raw : String) :
    (∃ x, Binary64.read? raw.toList = some x ∧ x.isFinite = false) ↔ NamesUnbounded raw ∨ TooLarge raw.toList := by
  rw [namesUnbounded_iff]
  unfold Binary64.read?
  dsimp only
  generalize hword : String.ofList ((splitSign raw.toList).2.map Char.toLower) = word
  by_cases hinf : word = "inf" ∨ word = "infinity"
  · have hmem : word ∈ unboundedWords := by
      rcases hinf with rfl | rfl
      · decide
      · decide
    rw [if_pos (by simpa using hinf)]
    exact iff_of_true ⟨_, rfl, rfl⟩ (.inl hmem)
  rw [if_neg (by simpa using hinf)]
  by_cases hnan : word = "nan"
  · subst hnan
    exact iff_of_true ⟨_, rfl, rfl⟩ (.inl (by decide))
  have hnot : word ∉ unboundedWords := by
    intro hmem
    simp only [unboundedWords, List.mem_cons, List.not_mem_nil, or_false] at hmem
    tauto
  rw [if_neg hnan, or_iff_right hnot]
  constructor
  · intro ⟨x, hx, hfinite⟩
    obtain ⟨d, hd, rfl⟩ := Option.map_eq_some_iff.1 hx
    have hlarge : ¬d.magnitude < Binary64.limit := by
      rw [← Binary64.isFinite_ofDecimal, hfinite]
      exact Bool.false_ne_true
    exact ⟨d, hd, not_lt.1 hlarge⟩
  · intro ⟨d, hd, hlarge⟩
    refine ⟨Binary64.ofDecimal d, Option.map_eq_some_iff.2 ⟨d, hd, rfl⟩, ?_⟩
    rw [← Bool.not_eq_true, Binary64.isFinite_ofDecimal]
    exact not_lt.2 hlarge

/-! ## Integers -/

theorem exists_readNat?_of_readInt64? {cs : List Char} {n : Int64} (h : readInt64? cs = some n) :
    ∃ k, readNat? (splitSign cs).2 = some k ∧ k ≤ 2 ^ 63 := by
  unfold readInt64? at h
  dsimp only at h
  split at h
  case h_1 => cases h
  case h_2 k hk =>
    generalize hv : (if (splitSign cs).1 = true then -(k : Int) else k) = v at h
    split at h
    case isTrue hbounds =>
      have hmin : Int64.minValue.toInt = -2 ^ 63 := by decide
      have hmax : Int64.maxValue.toInt = 2 ^ 63 - 1 := by decide
      rw [hmin, hmax] at hbounds
      refine ⟨k, hk, ?_⟩
      split at hv <;> omega
    case isFalse => cases h

theorem readNat?_eq_some_iff {ds : List Char} {k : Nat} :
    readNat? ds = some k ↔ ds ≠ [] ∧ (∀ d ∈ ds, d.isDigit = true) ∧ ofDigits ds = k := by
  unfold readNat?
  simp [and_assoc]

/-- Digits alone are a numeral, with their value. -/
theorem readMagnitude?_of_readNat? (negative : Bool) {ds : List Char} {k : Nat} (h : readNat? ds = some k) :
    readMagnitude? negative ds = some ⟨negative, k, 0⟩ := by
  obtain ⟨hne, hall, hvalue⟩ := readNat?_eq_some_iff.1 h
  have hwhole : ds.takeWhile Char.isDigit = ds := List.takeWhile_eq_self_iff.2 hall
  have hrest : ds.dropWhile Char.isDigit = [] := List.dropWhile_eq_nil_iff.2 hall
  have hsome : ds.isEmpty = false := List.isEmpty_eq_false_iff.2 hne
  unfold readMagnitude?
  rw [hwhole, hrest]
  show (if (ds.isEmpty && true) = true then none else some (⟨negative, ofDigits (ds ++ []), 0 - 0⟩ : Decimal)) = _
  rw [hsome, List.append_nil, hvalue]
  rfl

theorem two_pow_lt_limit : 2 ^ 63 < Binary64.limit := by
  decide +kernel

/-- An integer in range is a numeral far below the bound. -/
theorem isFinite_of_readInt64? {raw : String} {n : Int64} (h : readInt64? raw.toList = some n) {x : Binary64}
    (hx : Binary64.read? raw.toList = some x) : x.isFinite = true := by
  obtain ⟨k, hk, hrange⟩ := exists_readNat?_of_readInt64? h
  obtain ⟨-, hall, -⟩ := readNat?_eq_some_iff.1 hk
  rw [← Bool.not_eq_false]
  intro hfinite
  rcases (exists_not_finite_iff raw).1 ⟨x, hx, hfinite⟩ with hword | ⟨d, hd, hlarge⟩
  · -- the words have letters in them
    have hsame : (splitSign raw.toList).2.map Char.toLower = (splitSign raw.toList).2 :=
      (List.map_congr_left fun d hd => toLower_of_isDigit (hall d hd)).trans (List.map_id' _)
    rw [namesUnbounded_iff, hsame] at hword
    have hletter : ∀ word ∈ unboundedWords, word.toList.all Char.isDigit = false := by decide
    have hnone := hletter _ hword
    rw [String.toList_ofList, List.all_eq_true.2 hall] at hnone
    cases hnone
  · rw [decimal?, readMagnitude?_of_readNat? _ hk] at hd
    have hmag : d.magnitude = k := by
      cases hd
      rw [Decimal.magnitude, zpow_zero, mul_one]
    rw [hmag] at hlarge
    have hle : Binary64.limit ≤ k := by exact_mod_cast hlarge
    exact absurd (hle.trans hrange) (not_le.2 two_pow_lt_limit)

/-! ## Other texts -/

/-- A numeral starts with a digit or with the point. -/
theorem readMagnitude?_eq_none (negative : Bool) {c : Char} (hdigit : c.isDigit = false) (hpoint : c ≠ '.')
    (cs : List Char) : readMagnitude? negative (c :: cs) = none := by
  have hwhole : (c :: cs).takeWhile Char.isDigit = [] := List.takeWhile_cons_of_neg (by rw [hdigit]; decide)
  have hrest : (c :: cs).dropWhile Char.isDigit = c :: cs := List.dropWhile_cons_of_neg (by rw [hdigit]; decide)
  unfold readMagnitude?
  rw [hwhole, hrest]
  dsimp only
  split
  case h_1 hcons => exact absurd (List.cons.inj hcons).1 hpoint
  case h_2 => rfl

/-- A text that starts with another character, in small letters, is read as a number only if it is a word for
one. -/
theorem reads_nothing {raw : String} {letter : Char} {rest : List Char}
    (hraw : (Text.lower raw).toList = letter :: rest) (hdigit : letter.isDigit = false)
    (hsigns : letter ∉ ['-', '+', '.']) (hword : ¬NamesUnbounded raw) :
    readInt64? raw.toList = none ∧ Binary64.read? raw.toList = none := by
  rw [Text.lower, String.toList_ofList] at hraw
  obtain ⟨c, cs, hcs, hc, -⟩ := List.map_eq_cons_iff.1 hraw
  -- digits, signs and the point stay as they are in small letters
  have hother : c.isDigit = false := by
    rw [← Bool.not_eq_true]
    intro hcdigit
    rw [← hc, toLower_of_isDigit hcdigit, hcdigit] at hdigit
    cases hdigit
  have hne (d : Char) (hd : d ∈ ['-', '+', '.']) : c ≠ d := by
    have hstays : ['-', '+', '.'].map Char.toLower = ['-', '+', '.'] := by decide
    intro hcd
    rw [← hc, ← hstays, hcd] at hsigns
    exact hsigns (List.mem_map_of_mem hd)
  have hsplit : splitSign raw.toList = (false, c :: cs) := by
    rw [hcs, splitSign_of_ne (hne '-' (by simp)) (hne '+' (by simp))]
  constructor
  · have hnat : readNat? (c :: cs) = none := by
      rw [readNat?, List.all_cons, hother, Bool.false_and, Bool.and_false]
      rfl
    unfold readInt64?
    rw [hsplit]
    dsimp only
    rw [hnat]
  · rw [namesUnbounded_iff, hsplit] at hword
    simp only [unboundedWords, List.mem_cons, List.not_mem_nil, or_false, not_or] at hword
    obtain ⟨hinf, hinfinity, hnan⟩ := hword
    unfold Binary64.read?
    rw [hsplit]
    dsimp only
    rw [decide_eq_false hinf, decide_eq_false hinfinity, if_neg hnan,
      readMagnitude?_eq_none false hother (hne '.' (by simp))]
    rfl

end QueryTemplate.Number

/-! ## Words for other values -/

namespace QueryTemplate.Value

open QueryTemplate.Number

/-- The words for values that are no numbers. -/
def literalWords : List (String × Value) :=
  [("true", .boolean true), ("false", .boolean false), ("null", .null)]

/-- **A word for a value is read as that value**, since it is none of those for numbers. -/
theorem infer_of_literalWords {word : String} {v : Value} (h : (Text.lower word, v) ∈ literalWords) :
    infer word = v := by
  have hother : ∀ p ∈ literalWords, ∀ sign ∈ ["", "+", "-"], ∀ unbounded ∈ unboundedWords,
      p.1 ≠ sign ++ unbounded := by decide
  have hword : ¬NamesUnbounded word := fun ⟨sign, hsign, unbounded, hmem, hlower⟩ =>
    hother _ h sign hsign unbounded hmem hlower
  have hreads {letter : Char} {rest : List Char} (hlower : (Text.lower word).toList = letter :: rest)
      (hletter : letter.isDigit = false ∧ letter ∉ ['-', '+', '.']) :
      readInt64? word.toList = none ∧ Binary64.read? word.toList = none :=
    reads_nothing hlower hletter.1 hletter.2 hword
  simp only [literalWords, List.mem_cons, Prod.mk.injEq, List.not_mem_nil, or_false] at h
  unfold infer
  rcases h with ⟨hlower, rfl⟩ | ⟨hlower, rfl⟩ | ⟨hlower, rfl⟩
  · obtain ⟨hint, hfloat⟩ := hreads (congrArg String.toList hlower) (by decide)
    simp [hint, hfloat, hlower]
  · obtain ⟨hint, hfloat⟩ := hreads (congrArg String.toList hlower) (by decide)
    simp [hint, hfloat, hlower]
  · obtain ⟨hint, hfloat⟩ := hreads (congrArg String.toList hlower) (by decide)
    simp [hint, hfloat, hlower]

end QueryTemplate.Value
