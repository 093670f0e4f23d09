import QueryTemplate.Proofs.Sql.Plain.Meaning

/-!
# Operands are read

Each rule for operands is right. An operand starts with a keyword that has a meaning of its own, with a
symbol, or with a name, and each of these three is read in its own way. What is left for a rule is how it
goes on.

* **`isOperand_form`**, **`isOperand_symbol`**, **`isOperand_name`**: the three ways.
* **`each_operand`**: the rules.
-/

namespace QueryTemplate.Sql

open Reader Running RulePiece

/-! ## Keywords -/

/-- Of the keywords only two are types as well. -/
theorem eq_of_type {w : String} {k : Keyword} {shape : TypeShape} (hk : Keyword.ofCapitals? w = some k)
    (hw : knownTypes.lookup w = some shape) : k = .TIME ∨ k = .INTERVAL := by
  obtain ⟨front, back, htypes, -⟩ := List.lookup_eq_some_iff.1 hw
  have hrows : knownTypes.all (fun p => (Keyword.ofCapitals? p.1).all fun k => k = .TIME || k = .INTERVAL) = true := by
    decide +kernel
  have hrow := List.all_eq_true.1 hrows _ (htypes ▸ List.mem_append_right front List.mem_cons_self)
  simpa [hk] using hrow

/-- One of the two starts no text of that type. -/
theorem typedText_keyword {s : String} {k : Keyword}
    (hs : Keyword.ofCapitals? (Keyword.inCapitals s) = some k) (hk : k ≠ .TIME) (ts : List Token) :
    typedText (.word ⟨s, none⟩ (some k) :: ts) = .error .malformed := by
  by_cases hinterval : k = .INTERVAL
  · simp [typedText, hinterval]
  have hno : knownTypes.lookup (Keyword.inCapitals s) = none := by
    cases hw : knownTypes.lookup (Keyword.inCapitals s) with
    | none => rfl
    | some shape => exact ((eq_of_type hs hw).elim hk hinterval).elim
  simp [typedText, hinterval, knownType, Token.knownType?, Token.capitals?, hno]

/-- A keyword with a special meaning in front of an operand. -/
theorem operandAtMost_special {b : Below} {N : Nat} {s x : String} {k : Keyword} {ts rest : List Token}
    {special : Reader String} (hs : Keyword.ofCapitals? (Keyword.inCapitals s) = some k) (hk : k ≠ .TIME)
    (hspecial : specialOperand? b (operandAtMost b N) ⟨s, none⟩ k = some special)
    (hread : special ts = .ok (x, rest)) :
    operandAtMost b (N + 1) (.word ⟨s, none⟩ (some k) :: ts) = .ok (x, rest) := by
  simp only [operandAtMost, run_bind, run_attempt, typedText_keyword hs hk, run_take, wordOperand,
    Option.bind_some, hspecial]
  split
  · exact hread
  · rw [run_orElse, hread]

/-! ## The front -/

theorem ne_from_append {p : String} (hp : ¬ (Text.lower p).toList <+: "from".toList) (y : String) :
    Text.lower (p ++ y) ≠ "from" := by
  intro h
  refine hp ⟨(Text.lower y).toList, ?_⟩
  rw [← h]
  simp [Text.lower]

theorem star_malformed {t : Token} {ts : List Token} (ht : t ≠ .symbol .star)
    (hts : startsWith .period ts = false) : star (t :: ts) = .error .malformed := by
  have hmore (N : Nat) : starAtMost N ts = .error .malformed := by
    cases N <;> simp [starAtMost, hts]
  cases t <;> simp_all [star, ident, Token.ident?]

/-- The front of something that starts with a keyword. -/
theorem fronts_keyword {st : Start} {name : Ident} {x : String} {k : Keyword} {ts : List Token}
    (hk : k ∉ Keyword.marks) (hst : st = .positive → k ≠ .EXISTS)
    (hts : ∀ rest, startsWith .period rest = false → startsWith .period (ts ++ rest) = false)
    (hx : Text.lower x ≠ "from") : Fronts st (.word name (some k) :: ts) x where
  heads := ⟨fun rest => by simp, fun rest => by simp, fun hk' rest h => hk (by cases h; exact hk')⟩
  starless rest hrest := star_malformed nofun (hts rest hrest)
  positive hpos rest h := hst hpos (by cases h; rfl)
  ne_from := hx

/-- The front of something that starts with no word. -/
theorem fronts_token {st : Start} {t : Token} {x : String} {ts : List Token}
    (ht : ∀ us, keyword? (t :: us) = none) (hclosing : t ≠ .symbol .closing) (hperiod : t ≠ .symbol .period)
    (hstar : t ≠ .symbol .star)
    (hts : ∀ rest, startsWith .period rest = false → startsWith .period (ts ++ rest) = false)
    (hx : Text.lower x ≠ "from") : Fronts st (t :: ts) x :=
  ⟨⟨fun rest => by simp [hclosing], fun rest => by simp [hperiod], fun _ rest => by simp [ht]⟩,
    fun rest hrest => star_malformed hstar (hts rest hrest), fun _ rest => by simp [ht], hx⟩

/-- Something that starts with a keyword of a special meaning is an operand if it is read as that. -/
theorem isOperand_special {n e : Nat} {st : Start} {s x : String} {k : Keyword} {us : List Token}
    {special : Nat → Reader String} (hs : Keyword.ofCapitals? (Keyword.inCapitals s) = some k)
    (hk : k ∉ Keyword.marks ∧ k ≠ .TIME) (hst : st = .positive → k ≠ .EXISTS)
    (hspecial : ∀ N, specialOperand? (level n) (operandAtMost (level n) N) ⟨s, none⟩ k = some (special N))
    (hus : ∀ rest, startsWith .period rest = false → startsWith .period (us ++ rest) = false)
    (hx : Text.lower x ≠ "from")
    (hread : ∀ rest, Follows e rest → ∀ N, us.length ≤ N → special N (us ++ rest) = .ok (x, rest)) :
    IsOperand n e st (.word ⟨s, none⟩ (some k) :: us) x where
  fronts := fronts_keyword hk.1 hst hus hx
  reads rest hrest N hN := by
    obtain ⟨N, rfl⟩ := Nat.exists_eq_add_one_of_ne_zero (Nat.ne_zero_of_lt hN)
    exact operandAtMost_special hs hk.2 (hspecial N) (hread rest hrest N (by simp at hN; omega))

/-- The keywords that forms with a syntax of their own start with. -/
def Keyword.forms : List Keyword :=
  [.CASE, .CAST, .CEIL, .EXTRACT, .FLOOR, .INTERVAL, .NOT, .POSITION, .SAFE_CAST, .SUBSTRING, .TRIM, .TRY_CAST]

theorem isOperand_form {n e : Nat} {st : Start} {s y : String} {k : Keyword} {us : List Token}
    {special : Nat → Reader String} (hs : Keyword.ofCapitals? (Keyword.inCapitals s) = some k)
    (hk : k ∈ Keyword.forms)
    (hspecial : ∀ N, specialOperand? (level n) (operandAtMost (level n) N) ⟨s, none⟩ k = some (special N))
    (hus : ∀ rest, startsWith .period rest = false → startsWith .period (us ++ rest) = false)
    (hread : ∀ rest, Follows e rest → ∀ N, us.length ≤ N → special N (us ++ rest) = .ok (k.spelling ++ y, rest)) :
    IsOperand n e st (.word ⟨s, none⟩ (some k) :: us) (k.spelling ++ y) := by
  have hforms : ∀ k ∈ Keyword.forms, (k ∉ Keyword.marks ∧ k ≠ .TIME) ∧ k ≠ .EXISTS
      ∧ ¬ (Text.lower k.spelling).toList <+: "from".toList := by decide +kernel
  obtain ⟨hmarks, hexists, hfrom⟩ := hforms k hk
  exact isOperand_special hs hmarks (fun _ => hexists) hspecial hus (ne_from_append hfrom y) hread

/-! ## Literals and names -/

theorem typedText_malformed {t : Token} (ht : t.knownType? = none) (ts : List Token) :
    typedText (t :: ts) = .error .malformed := by
  simp only [typedText, knownType, run_bind, run_get, run_ite, run_take, run_fail, ht]
  split <;> rfl

/-- Something that starts with a symbol is an operand if it is read as one. -/
theorem isOperand_symbol {n e : Nat} {st : Start} {s : Symbol} {y : String} {us : List Token}
    (hs : s ∈ [Symbol.colon, .minus, .plus, .opening])
    (hus : ∀ rest, startsWith .period rest = false → startsWith .period (us ++ rest) = false)
    (hread : ∀ rest, Follows e rest → ∀ N,
      operandAtMost (level n) (N + 1) (.symbol s :: (us ++ rest)) = .ok (s.sign ++ y, rest)) :
    IsOperand n e st (.symbol s :: us) (s.sign ++ y) := by
  have hall : ∀ s ∈ [Symbol.colon, .minus, .plus, .opening], (s ≠ .closing ∧ s ≠ .period ∧ s ≠ .star)
      ∧ ¬ (Text.lower s.sign).toList <+: "from".toList := by decide
  obtain ⟨⟨hclosing, hperiod, hstar⟩, hfrom⟩ := hall s hs
  refine ⟨fronts_token (fun _ => rfl) (by simpa) (by simpa) (by simpa) hus (ne_from_append hfrom y), ?_⟩
  intro rest hrest N hN
  obtain ⟨N, rfl⟩ := Nat.exists_eq_add_one_of_ne_zero (Nat.ne_zero_of_lt hN)
  exact hread rest hrest N

theorem operandAtMost_literal {b : Below} {a : Atom} (ha : a = .number ∨ a = .text ∨ a = .placeholder)
    {t : Token} {x : String} (h : a.Spells t x) (N : Nat) (rest : List Token) :
    operandAtMost b (N + 1) (t :: rest) = .ok (x, rest) := by
  have hno : typedText (t :: rest) = .error .malformed := by
    refine typedText_malformed ?_ rest
    rcases ha with rfl | rfl | rfl <;> cases t <;> first | rfl | simp [Atom.Spells, Token.number?] at h
  rcases ha with rfl | rfl | rfl
  · obtain ⟨hnumber, -⟩ := h
    cases t <;> simp [Token.number?] at hnumber
    simp [operandAtMost, hno, hnumber]
  · obtain ⟨s, rfl, rfl, -⟩ := h
    simp [operandAtMost, hno]
  · obtain ⟨rfl, -⟩ := h
    simp [operandAtMost, hno]

/-- Letters are what only letters are the small letters of. -/
theorem ne_from_cons {c : Char} {x : String} {cs : List Char} (hx : x.toList = c :: cs)
    (hc : c.toLower ≠ 'f') : Text.lower x ≠ "from" := by
  intro h
  have := congrArg String.toList h
  simp [Text.lower, hx] at this
  exact hc this.1

theorem toLower_of_isDigit {c : Char} (h : c.isDigit = true) : c.toLower ≠ 'f' := by
  intro hlower
  simp only [Char.isDigit, Bool.and_eq_true, decide_eq_true_eq] at h
  have hupper : ¬ ('A'.val ≤ c.val ∧ c.val ≤ 'Z'.val) :=
    fun hc => absurd (UInt32.le_trans hc.1 h.2) (by decide)
  have hstays : c.toLower = c := dif_neg hupper
  rw [← hstays, hlower] at h
  exact absurd h.2 (by decide)

theorem fronts_literal {st : Start} {a : Atom} (ha : a = .number ∨ a = .text ∨ a = .placeholder)
    {t : Token} {x : String} (h : a.Spells t x) : Fronts st [t] x := by
  rcases ha with rfl | rfl | rfl
  · obtain ⟨hnumber, -, c, cs, hx, hc⟩ := h
    have hlower : c.toLower ≠ 'f' := by
      rcases hc with hc | rfl
      · exact toLower_of_isDigit hc
      · decide
    cases t <;> simp [Token.number?] at hnumber
    exact fronts_token (fun _ => rfl) nofun nofun nofun (fun _ => id) (ne_from_cons hx hlower)
  · obtain ⟨s, rfl, rfl, -⟩ := h
    exact fronts_token (fun _ => rfl) nofun nofun nofun (fun _ => id)
      (ne_from_cons (String.toList_ofList ..) (by decide))
  · obtain ⟨rfl, cs, hx, -⟩ := h
    exact fronts_token (fun _ => rfl) nofun nofun nofun (fun _ => id) (ne_from_cons hx (by decide))

theorem typedText_name {t : Token} {types : List TypeShape} {ts : List Token}
    (htypes : ∀ w shape, t.knownType? = some (w, shape) → shape ∈ types)
    (hts : ∀ shape ∈ types, typeTail shape ts = .ok ("", ts))
    (htext : take Token.text? ts = .error .malformed) : typedText (t :: ts) = .error .malformed := by
  cases ht : t.knownType? with
  | none => exact typedText_malformed ht ts
  | some type =>
    simp only [typedText, knownType, run_bind, run_get, run_ite, run_take, run_fail, ht]
    split
    · rfl
    · simp [hts _ (htypes _ _ ht), htext]

theorem typeTail_eq_nothing {ts : List Token} (hopening : startsWith .opening ts = false)
    (hts : ∀ k ∈ [Keyword.PRECISION, .UNSIGNED, .VARYING, .WITH, .WITHOUT], keyword? ts ≠ some k)
    (shape : TypeShape) : typeTail shape ts = .ok ("", ts) := by
  simp only [List.forall_mem_cons] at hts
  cases shape <;> simp [typeTail, optionalParens, timeZone, hopening, hts]

theorem Follows.typeTail_eq {e : Nat} {ts : List Token} (h : Follows e ts) (shape : TypeShape) :
    typeTail shape ts = .ok ("", ts) := by
  refine typeTail_eq_nothing h.startsWith_opening ?_ shape
  simp only [List.forall_mem_cons]
  refine ⟨?_, ?_, ?_, ?_, ?_, nofun⟩ <;> exact h.keyword?_ne rfl (.inr (by decide))

/-! ## Paths -/

theorem furtherParts_eq (parts : List (Ident × Option Keyword)) (rest : List Token)
    (hrest : startsWith .period rest = false) :
    furtherParts (pathTokens parts ++ rest) = .ok (parts.map Prod.fst, rest) := by
  have hparts (N : Nat) (hN : parts.length ≤ N) :
      pathAtMost N (pathTokens parts ++ rest) = .ok (parts.map Prod.fst, rest) := by
    induction parts generalizing N with
    | nil => cases N <;> simp [pathAtMost, pathTokens, hrest]
    | cons p parts ih =>
      obtain ⟨N, rfl⟩ := Nat.exists_eq_add_one_of_ne_zero (Nat.ne_zero_of_lt hN)
      have hmore := ih N (by simp at hN; omega)
      simp only [pathTokens] at hmore
      simp [pathAtMost, pathTokens, ident, Token.ident?, hmore]
  have hlength : parts.length ≤ (pathTokens parts ++ rest).length := by
    induction parts with
    | nil => simp
    | cons p parts ih => simp [pathTokens] at ih ⊢; omega
  simp only [furtherParts, run_bind, run_get]
  exact hparts _ hlength

theorem starless_path {name : Ident} {k : Option Keyword} {parts : List (Ident × Option Keyword)}
    {ts : List Token}
    (hts : ∀ rest, startsWith .period rest = false → startsWith .period (ts ++ rest) = false) :
    Starless (.word name k :: (pathTokens parts ++ ts)) := by
  intro rest hrest
  have hstar (N : Nat) : starAtMost N (pathTokens parts ++ (ts ++ rest)) = .error .malformed := by
    induction parts generalizing N with
    | nil => cases N <;> simp [starAtMost, pathTokens, hts rest hrest]
    | cons p parts ih =>
      cases N with
      | zero => rfl
      | succ N =>
        have hmore := ih N
        simp only [pathTokens] at hmore
        simp [starAtMost, pathTokens, ident, Token.ident?, hmore]
  simp [star, ident, Token.ident?, hstar]

theorem specialOperand?_eq_none {b : Below} {operand : Reader String} {name : Ident} {k : Keyword}
    (hk : k ∉ Keyword.reserved) : specialOperand? b operand name k = none := by
  unfold specialOperand?
  split <;> first | rfl | exact absurd (by decide) hk

theorem wordOperand_name {b : Below} {operand : Reader String} {name : Ident} {k : Option Keyword}
    (hk : ∀ k' ∈ Keyword.reserved, k ≠ some k') : wordOperand b operand name k = plainOperand b name := by
  cases k with
  | none => rfl
  | some k =>
    have hno : k ∉ Keyword.reserved := fun hmem => hk k hmem rfl
    simp [wordOperand, specialOperand?_eq_none hno]

theorem plainOperand_eq {b : Below} {name : Ident} {ts rest : List Token} {x : String} {e : Nat}
    (hts : IsPath ts x) (hrest : Follows e rest) :
    plainOperand b name (ts ++ rest) = .ok (name.written ++ x, rest) := by
  obtain ⟨-, parts, rfl, hparts⟩ := hts
  have hpath := furtherParts_eq parts _ hrest.startsWith_period
  cases parts with
  | nil =>
    have hx : name.written ++ x = name.written := (hparts name).symm.trans (String.intercalate_singleton ..)
    simp only [pathTokens, List.flatMap_nil, List.nil_append, hx]
    have hperiod := hrest.startsWith_period
    have hopening := hrest.startsWith_opening
    -- no text follows that a name with a special mark would belong to
    obtain rfl | ⟨s, us, rfl⟩ | ⟨name, k, us, rfl⟩ := hrest.head_eq <;>
      simp [plainOperand, -startsWith_cons, hperiod, hopening]
  | cons p parts =>
    simp only [pathTokens, List.flatMap_cons, List.cons_append, List.nil_append, List.map_cons] at hpath hparts ⊢
    simp [plainOperand, hpath, hparts, hrest.startsWith_opening]

theorem plainOperand_call {b : Below} {name : Ident} {ts rest : List Token} {x : String} (hts : IsPath ts x) :
    plainOperand b name (ts ++ .symbol .opening :: rest)
      = call b (name.written ++ x) (.symbol .opening :: rest) := by
  obtain ⟨-, parts, rfl, hparts⟩ := hts
  have hpath := furtherParts_eq parts (.symbol .opening :: rest) rfl
  cases parts with
  | nil =>
    have hone := hparts name
    simp only [pathTokens, List.flatMap_nil, List.nil_append, List.map_nil] at hpath hone ⊢
    simp [plainOperand, hpath, hone]
  | cons p parts =>
    simp only [pathTokens, List.flatMap_cons, List.cons_append, List.nil_append, List.map_cons] at hpath hparts ⊢
    simp [plainOperand, hpath, hparts]

/-- A name that is read as no text of a type. -/
theorem operandAtMost_name {b : Below} {name : Ident} {k : Option Keyword} {N : Nat} {ts : List Token}
    (hk : ∀ k' ∈ Keyword.reserved, k ≠ some k')
    (htyped : typedText (.word name k :: ts) = .error .malformed) :
    operandAtMost b (N + 1) (.word name k :: ts) = plainOperand b name ts := by
  simp [operandAtMost, htyped, wordOperand_name hk]

/-- What follows the first word of a qualified name goes on with no type. -/
theorem typeTail_path {e : Nat} {us rest : List Token} {x : String} (hus : IsPath us x) (hrest : Follows e rest)
    (shape : TypeShape) : typeTail shape (us ++ rest) = .ok ("", us ++ rest) := by
  obtain ⟨-, parts, rfl, -⟩ := hus
  cases parts with
  | nil => exact hrest.typeTail_eq shape
  | cons p parts => exact typeTail_eq_nothing rfl (by simp [pathTokens]) shape

theorem take_text?_path {us ts : List Token} {x : String} (hus : IsPath us x)
    (hts : take Token.text? ts = .error .malformed) : take Token.text? (us ++ ts) = .error .malformed := by
  obtain ⟨-, parts, rfl, -⟩ := hus
  cases parts with
  | nil => exact hts
  | cons p parts => rfl

theorem ne_from_of_mem {x : String} {c : Char} (hmem : c ∈ x.toList) (hc : c.toLower ∉ "from".toList) :
    Text.lower x ≠ "from" := by
  intro h
  refine hc ?_
  rw [← h, Text.lower, String.toList_ofList]
  exact List.mem_map_of_mem hmem

theorem eq_or_of_toLower {c d : Char} (h : c.toLower = d) : c = d ∨ c.val = d.val - 32 := by
  subst h
  by_cases hupper : 'A'.val ≤ c.val ∧ c.val ≤ 'Z'.val
  · have hmoves : c.toLower.val = c.val + 32 := congrArg Char.val (dif_pos hupper)
    exact .inr (hmoves ▸ (UInt32.add_sub_cancel c.val 32).symm)
  · have hstays : c.toLower = c := dif_neg hupper
    exact .inl hstays.symm

/-- Only the word itself is written as it in small letters. -/
theorem keyword_of_lower {s : String} (h : Text.lower s = "from") :
    Keyword.ofCapitals? (Keyword.inCapitals s) = some .FROM := by
  have hlower : s.toList.map Char.toLower = ['f', 'r', 'o', 'm'] := by
    rw [← String.toList_ofList (l := s.toList.map Char.toLower)]
    exact congrArg String.toList h
  have hletter {c d : Char} (upper : Char) (hupper : upper.val = d.val - 32) (h : c.toLower = d) :
      c = d ∨ c = upper :=
    (eq_or_of_toLower h).imp_right fun hc => Char.ext (hc.trans hupper.symm)
  obtain ⟨s, rfl⟩ : ∃ cs, s = String.ofList cs := ⟨s.toList, (String.ofList_toList).symm⟩
  rw [String.toList_ofList] at hlower
  obtain ⟨a, s, rfl, ha, hlower⟩ := List.map_eq_cons_iff.1 hlower
  obtain ⟨b, s, rfl, hb, hlower⟩ := List.map_eq_cons_iff.1 hlower
  obtain ⟨c, s, rfl, hc, hlower⟩ := List.map_eq_cons_iff.1 hlower
  obtain ⟨d, s, rfl, hd, hlower⟩ := List.map_eq_cons_iff.1 hlower
  obtain rfl := List.map_eq_nil_iff.1 hlower
  rcases hletter 'F' rfl ha with rfl | rfl <;> rcases hletter 'R' rfl hb with rfl | rfl <;>
    rcases hletter 'O' rfl hc with rfl | rfl <;> rcases hletter 'M' rfl hd with rfl | rfl <;> rfl

theorem ne_from_name {name : Ident} {k : Option Keyword} {y : String} (hname : IsName name k)
    (hk : k ≠ some .FROM) (hy : y = "" ∨ ∃ c z, y = c ++ z ∧ (c = "." ∨ c = "(")) :
    Text.lower (name.written ++ y) ≠ "from" := by
  obtain rfl | ⟨_, z, rfl, hc⟩ := hy
  · rw [String.append_empty]
    cases hname with
    | word h => exact fun hlower => hk (keyword_of_lower hlower)
    | quoted hquote h =>
      refine ne_from_cons (String.toList_ofList ..) ?_
      obtain rfl | rfl := hquote <;> decide
  · obtain rfl | rfl := hc
    · exact ne_from_of_mem (c := '.') (by simp) (by decide)
    · exact ne_from_of_mem (c := '(') (by simp) (by decide)

theorem fronts_name (ts : List Token) {st : Start} {name : Ident} {k : Option Keyword} {x y : String} {us : List Token}
    (hname : IsName name k) (hk : ∀ k' ∈ Keyword.reserved, k ≠ some k') (hus : IsPath us x)
    (hts : ∀ rest, startsWith .period rest = false → startsWith .period (ts ++ rest) = false)
    (hy : y = "" ∨ ∃ z, y = "(" ++ z) : Fronts st (.word name k :: (us ++ ts)) (name.written ++ (x ++ y)) := by
  obtain ⟨htext, parts, rfl, -⟩ := hus
  have hmarks : ∀ k ∈ Keyword.marks, k ∈ Keyword.reserved := by decide
  refine ⟨⟨fun _ => by simp, fun _ => by simp, fun hmark _ => hk _ (hmarks _ hmark)⟩, starless_path hts,
    fun _ _ => hk _ (by decide), ?_⟩
  · refine ne_from_name hname (hk _ (by decide)) ?_
    obtain rfl | ⟨z, rfl⟩ := htext
    · rw [String.empty_append]
      exact hy.imp_right fun ⟨z, hz⟩ => ⟨"(", z, hz, .inr rfl⟩
    · exact .inr ⟨".", z ++ y, String.append_assoc, .inl rfl⟩

/-- A name with further parts, in front of which no text of a type stands. -/
theorem isOperand_name {n e : Nat} {st : Start} {name : Ident} {k : Option Keyword} {us : List Token} {x : String}
    (hname : IsName name k) (hk : ∀ k' ∈ Keyword.reserved, k ≠ some k') (hus : IsPath us x)
    (htyped : ∀ rest, Follows e rest → typedText (.word name k :: (us ++ rest)) = .error .malformed) :
    IsOperand n e st (.word name k :: us) (name.written ++ x) := by
  refine ⟨by simpa using fronts_name [] hname hk hus (fun _ => id) (.inl rfl), fun rest hrest N hN => ?_⟩
  obtain ⟨N, rfl⟩ := Nat.exists_eq_add_one_of_ne_zero (Nat.ne_zero_of_lt hN)
  rw [List.cons_append, operandAtMost_name hk (htyped rest hrest), plainOperand_eq hus hrest]

/-- The first word of a type is no keyword of another meaning. -/
theorem exists_word_of_type {t : Token} {x : String} {shape : TypeShape} (hx : x ≠ "INTERVAL")
    (hword : ∃ w, t = .ofWord w) (htype : t.knownType? = some (x, shape)) :
    ∃ name k, t = .word name k ∧ (k = none ∨ k = some .TIME) := by
  obtain ⟨w, rfl⟩ := hword
  refine ⟨_, _, rfl, ?_⟩
  obtain ⟨hw, hw'⟩ : knownTypes.lookup (Keyword.inCapitals (String.ofList w)) = some shape
      ∧ Keyword.inCapitals (String.ofList w) = x := by
    simpa [Token.knownType?, Token.ofWord, Token.capitals?, Option.bind_eq_some_iff, and_comm] using htype
  subst hw'
  cases hk : Keyword.ofCapitals? (Keyword.inCapitals (String.ofList w)) with
  | none => exact .inl rfl
  | some k =>
    obtain rfl | rfl := eq_of_type hk hw
    · exact .inr rfl
    · exact absurd (Keyword.spelling_eq hk).symm hx

/-- A point in time without arguments is written as it is. -/
theorem isOperand_moment {n e : Nat} {st : Start} {s : String} {k : Keyword} (hk : k ∈ Keyword.moments)
    (hs : Keyword.ofCapitals? (Keyword.inCapitals s) = some k) :
    IsOperand n e st [.word ⟨s, none⟩ (some k)] s := by
  have hfrom : k ≠ .FROM → Text.lower s ≠ "from" := fun hne hlower =>
    hne (Option.some.inj (hs.symm.trans (keyword_of_lower hlower)))
  simp only [Keyword.moments, List.mem_cons, List.not_mem_nil, or_false] at hk
  rcases hk with rfl | rfl | rfl | rfl | rfl | rfl | rfl | rfl | rfl <;>
    exact isOperand_special hs (by decide) (by simp) (fun _ => rfl) (fun _ => id) (hfrom (by decide))
      fun rest hrest _ _ => by simp [Ident.written, hrest.startsWith_opening]

theorem isOperand_typedText {n e : Nat} {st : Start} {t : Token} {x : String} {shape : TypeShape}
    (hx : x ≠ "INTERVAL") (hword : ∃ w, t = .ofWord w) (htype : t.knownType? = some (x, shape)) (s : String) :
    IsOperand n e st [t, .text s] (x ++ (" " ++ quoted '\'' s)) := by
  obtain ⟨name, k, rfl, hk⟩ := exists_word_of_type hx hword htype
  have hmark {k' : Keyword} (hk' : k' ∈ .EXISTS :: .INTERVAL :: Keyword.marks) : k ≠ some k' := by
    rintro rfl
    obtain h | h := hk
    · cases h
    · cases h
      exact absurd hk' (by decide)
  refine ⟨⟨⟨fun _ => by simp, fun _ => by simp, fun h _ => hmark (by simp [h])⟩,
    fun _ _ => star_malformed (by simp) rfl, fun _ _ => hmark (by simp),
    ne_from_of_mem (c := ' ') (by simp) (by decide)⟩, ?_⟩
  intro rest hrest N hN
  obtain ⟨N, rfl⟩ := Nat.exists_eq_add_one_of_ne_zero (Nat.ne_zero_of_lt hN)
  have hinterval : k ≠ some .INTERVAL := hmark (by simp)
  -- a text is no part of the type in front of it
  have htail : typeTail shape (.text s :: rest) = .ok ("", .text s :: rest) :=
    typeTail_eq_nothing rfl (by simp) shape
  simp [operandAtMost, typedText, hinterval, knownType, htype, htail, Token.text?]

theorem arguments_list {b : Below} {us rest : List Token} {vs : List String} (hheads : Heads us)
    (hread : list (argument b) (us ++ .symbol .closing :: rest) = .ok (vs, .symbol .closing :: rest)) :
    arguments b (.symbol .opening :: (us ++ .symbol .closing :: rest)) = .ok ("(" ++ (listed vs ++ ")"), rest) := by
  simp [arguments, hheads.closing, hheads.keyword_ne (k := .ALL) (by decide),
    hheads.keyword_ne (k := .DISTINCT) (by decide), hread, -run_list]

theorem arguments_over {b : Below} {us rest : List Token} {vs : List String} {k : Keyword} {name : Ident}
    (hk : k = .ALL ∨ k = .DISTINCT) (hheads : Heads us)
    (hread : list (argument b) (us ++ .symbol .closing :: rest) = .ok (vs, .symbol .closing :: rest)) :
    arguments b (.symbol .opening :: .word name (some k) :: (us ++ .symbol .closing :: rest))
      = .ok ("(" ++ (k.spelling ++ (" " ++ (listed vs ++ ")"))), rest) := by
  rcases hk with rfl | rfl <;>
    simp [arguments, hheads.keyword_ne (k := .DISTINCT) (by decide), hread, -run_list, Keyword.spelling,
      Keyword.table, String.append_assoc]

/-- The window and the arguments of a call. -/
theorem isOperand_call (st : Start) (vs : List Token) {n e : Nat} {name : Ident} {k : Option Keyword}
    {us ws : List Token} {x y z : String} {parts : List String} (hname : IsName name k)
    (hk : ∀ k' ∈ Keyword.reserved, k ≠ some k')
    (htypes : ∀ w shape, (Token.word name k).knownType? = some (w, shape) → shape ∈ [TypeShape.plain])
    (hus : IsPath us x) (hy : y = "(" ++ z)
    (hvs : ∀ rest, startsWith .opening rest = false →
      arguments (level n) (.symbol .opening :: (vs ++ rest)) = .ok (y, rest))
    (hends : ∀ rest, Follows e rest → EndsArguments (ws ++ rest))
    (hws : ∀ rest, Follows e rest → window (level n) (ws ++ rest) = .ok (parts, rest)) :
    IsOperand n e st (.word name k :: (us ++ .symbol .opening :: (vs ++ ws)))
      (name.written ++ (x ++ (y ++ trailing parts))) := by
  constructor
  · exact fronts_name _ hname hk hus (by simp) (.inr ⟨_, by rw [hy, String.append_assoc]⟩)
  intro rest hrest N hN
  obtain ⟨N, rfl⟩ := Nat.exists_eq_add_one_of_ne_zero (Nat.ne_zero_of_lt hN)
  obtain ⟨hopening, htail⟩ := hends rest hrest
  have hargs := hvs (ws ++ rest) hopening
  rw [List.cons_append, operandAtMost_name hk, List.append_assoc, List.cons_append, List.append_assoc,
    plainOperand_call hus]
  · simp [call, hargs, hopening, htail, hws rest hrest, String.append_assoc]
  · refine typedText_name htypes (by simp [typeTail]) ?_
    rw [List.append_assoc]
    exact take_text?_path hus rfl

/-! ## Lists -/

theorem AreListed.reads {α : Type} {r : Reader α} {stop : List Token → Prop} {ts rest : List Token} {vs : List α}
    (h : AreListed r stop ts vs) (hrest : stop rest) (hcomma : startsWith .comma rest = false) :
    list r (ts ++ rest) = .ok (vs, rest) := by
  rw [run_list]
  exact h _ (by simp only [List.length_append]; omega) rest hrest hcomma

theorem IsList.reads {α : Type} {r : Reader α} {write : α → String} {stop : List Token → Prop}
    {ts : List Token} {x : String} (h : IsList r write stop ts x) :
    ∃ vs, vs ≠ [] ∧ listed (vs.map write) = x
      ∧ ∀ rest, stop rest → startsWith .comma rest = false → list r (ts ++ rest) = .ok (vs, rest) := by
  obtain ⟨vs, hne, hvs, hread⟩ := h
  exact ⟨vs, hne, hvs, fun rest => hread.reads⟩

/-! ## Rules -/

/-- The branches of a case and what it gives otherwise, up to its end. -/
theorem branches_end {n : Nat} {us vs : List Token} {s y : String} {branches : List String}
    (hus : ∀ N, us.length < N → ∀ rest, Follows soft rest ∧ keyword? rest ≠ some .WHEN →
      branchesAtMost (level n) N (us ++ rest) = .ok (branches, rest))
    (hvs : IsClause n .ELSE vs y) (hs : Keyword.ofCapitals? (Keyword.inCapitals s) = some .END) :
    ∃ other, trailing (clause "ELSE" other) = y ∧ ∀ rest,
      let last := .word ⟨s, none⟩ (some .END) :: rest
      branchesAtMost (level n) ((us ++ (vs ++ last)).length + 1) (us ++ (vs ++ last)) = .ok (branches, vs ++ last)
        ∧ after [.ELSE] ((level n).expr 0) (vs ++ last) = .ok (other, last) := by
  obtain ⟨other, hother, helse⟩ := hvs.reads
  refine ⟨other, hother, fun rest => ?_⟩
  have hend := follows_keyword (e := soft) hs rfl rest
  refine ⟨hus _ (by simp only [List.length_append]; omega) _ ⟨?_, ?_⟩, helse _ ⟨hend, by simp⟩⟩
  · exact hvs.lets rfl _ _ (by decide) hend
  · exact hvs.keyword?_ne (by simp) (by decide)

theorem each_operand {n e : Nat} {st : Start} {qs : List RulePiece} (r : Rule (.operand n e st) qs) :
    Each Means qs (IsOperand n e st) := by
  cases r with
  | literal ha =>
    intro t x h
    change IsOperand n e st [t] (x ++ "")
    rw [String.append_empty]
    refine ⟨fronts_literal ha h, fun rest _ N hN => ?_⟩
    obtain ⟨N, rfl⟩ := Nat.exists_eq_add_one_of_ne_zero (Nat.ne_zero_of_lt hN)
    exact operandAtMost_literal ha h N rest
  | constant =>
    rintro _ _ (⟨⟨s, rfl, hs⟩, rfl⟩ | ⟨⟨s, rfl, hs⟩, rfl⟩ | ⟨⟨s, rfl, hs⟩, rfl⟩) <;>
      exact isOperand_special hs (by decide) (by simp) (fun _ => rfl) (fun _ => id) (by decide)
        fun rest _ _ _ => rfl
  | moment =>
    rintro _ x ⟨-, rfl, k, hk, _, hword, hs⟩
    obtain ⟨hword, hs⟩ : Token.ofWord x.toList = .word ⟨x, none⟩ (some k)
        ∧ Keyword.ofCapitals? (Keyword.inCapitals x) = some k := by
      rw [Token.ofWord, String.ofList_toList] at hword ⊢
      obtain ⟨⟨rfl, -⟩, hkey⟩ := by simpa using hword
      exact ⟨by rw [hkey], hs⟩
    rw [hword, Each, String.append_empty]
    exact isOperand_moment hk hs
  | parameter =>
    rintro _ _ ⟨rfl, rfl⟩ _ x ⟨-, rfl⟩
    refine isOperand_symbol (by decide) (by simp [Token.ofWord]) fun rest _ N => ?_
    simp [operandAtMost, typedText_malformed (t := .symbol .colon) rfl, Token.ofWord, Token.placeholderName?]
  | column he =>
    rintro _ _ ⟨name, k, hname, rfl, rfl, hk, htypes⟩ us x hus
    rw [Each, String.append_empty, List.append_nil]
    refine isOperand_name hname hk hus fun rest hrest => ?_
    exact typedText_name htypes (fun shape _ => typeTail_path hus hrest shape)
      (take_text?_path hus (hrest.take_text? he))
  | untyped =>
    rintro _ _ ⟨name, k, hname, rfl, rfl, hk, htypes⟩ us x hus
    rw [Each, String.append_empty, List.append_nil]
    have hno : Token.knownType? (.word name k) = none :=
      Option.eq_none_iff_forall_not_mem.2 fun type h => absurd (htypes _ _ h) List.not_mem_nil
    exact isOperand_name hname (fun l hl => hk l (List.mem_append_left _ hl)) hus fun rest _ => typedText_malformed hno _
  | typedText =>
    rintro t x ⟨hx, hword, shape, -, htype⟩ _ _ ⟨s, rfl, rfl, -⟩
    rw [Each, String.append_empty]
    exact isOperand_typedText hx hword htype s
  | interval ha =>
    rintro _ _ ⟨⟨s, rfl, hs⟩, rfl⟩ t x h t' _ ⟨hunit, hcapitals⟩
    refine isOperand_form hs (by decide) (fun _ => rfl) (fun _ _ => ?_) ?_
    · have hfronts : Fronts st [t] x := fronts_literal (ha.imp_right .inl) h
      exact hfronts.heads.period _
    intro rest hrest N hN
    obtain ⟨N, rfl⟩ := Nat.exists_eq_add_one_of_ne_zero (Nat.ne_zero_of_lt hN)
    -- the unit is the last one: what follows an operand is no `TO`
    have hto := hrest.keyword?_ne (k := .TO) rfl (.inr (by decide))
    have hvalue := operandAtMost_literal (b := level n) (ha.imp_right .inl) h N
    simp [intervalForm, hvalue, hcapitals, hunit, Option.filter, hto, clause, Keyword.spelling, Keyword.table]
  | intervalText he =>
    rintro _ _ ⟨⟨s, rfl, hs⟩, rfl⟩ _ _ ⟨x, rfl, rfl, hx⟩
    refine isOperand_form hs (by decide) (fun _ => rfl) (by simp) ?_
    intro rest hrest N hN
    obtain ⟨N, rfl⟩ := Nat.exists_eq_add_one_of_ne_zero (Nat.ne_zero_of_lt hN)
    have hvalue := operandAtMost_literal (b := level n) (a := .text) (.inr (.inl rfl)) ⟨x, rfl, rfl, hx⟩ N rest
    -- without a unit, what follows must not be read as one
    have hunit : take (fun t => t.capitals?.filter intervalUnits.contains) rest = .error .malformed :=
      hrest.take_capitals he (by decide)
    simp [intervalForm, hvalue, hunit, Keyword.spelling, Keyword.table]
  | minus hs =>
    rintro _ _ ⟨rfl, rfl⟩ us x hus
    refine isOperand_symbol (by decide) (fun _ _ => by simp [hus.fronts.heads.period]) fun rest hrest N => ?_
    simp [operandAtMost, typedText_malformed (t := .symbol .minus) rfl, hus.reads, hrest]
  | plus =>
    rintro _ _ ⟨rfl, rfl⟩ us x hus
    refine isOperand_symbol (by decide) (fun _ _ => by simp [hus.fronts.heads.period]) fun rest hrest N => ?_
    simp [operandAtMost, typedText_malformed (t := .symbol .plus) rfl, hus.reads, hrest]
  | not =>
    rintro _ _ ⟨⟨s, rfl, hs⟩, rfl⟩ us x hus
    refine isOperand_form hs (by decide) (fun _ => rfl) ?_ ?_
    · exact fun _ _ => by simp [hus.fronts.heads.period]
    · intro rest hrest _ _
      have hexists := hus.fronts.positive rfl
      simp [notForm, hexists, hus.reads, hrest, Keyword.spelling, Keyword.table]
  | notExists =>
    rintro _ _ ⟨⟨s, rfl, hs⟩, rfl⟩ _ _ ⟨⟨s', rfl, hs'⟩, rfl⟩ _ _ ⟨rfl, rfl⟩ us _ ⟨hus, q, rfl, hq⟩ _ _ ⟨rfl, rfl⟩
    refine isOperand_form hs (by decide) (fun _ => rfl) (by simp) ?_
    intro rest hrest _ _
    simp [notForm, existsForm, Below.queryText, hq, Keyword.spelling, Keyword.table]
  | «exists» hst =>
    rintro _ _ ⟨⟨s, rfl, hs⟩, rfl⟩ _ _ ⟨rfl, rfl⟩ us _ ⟨hus, q, rfl, hq⟩ _ _ ⟨rfl, rfl⟩
    refine isOperand_special hs (by decide) (absurd · hst) (fun _ => rfl) (by simp)
      (ne_from_append (by decide) _) ?_
    intro rest hrest _ _
    simp [existsForm, Below.queryText, hq, Keyword.spelling, Keyword.table]
  | group =>
    rintro _ _ ⟨rfl, rfl⟩ us x ⟨hheads, hus⟩ _ _ ⟨rfl, rfl⟩
    obtain ⟨vs, -, rfl, hvs⟩ := (hus (by decide)).reads
    refine isOperand_symbol (by decide) (fun _ _ => by simp [hheads.period]) fun rest hrest N => ?_
    -- an expression starts as no query does, so the parentheses hold a list
    have hno (ts : List Token) : startsQuery (us ++ ts) = false := by
      simp [startsQuery, hheads.keyword_ne (k := .SELECT) (by decide), hheads.keyword_ne (k := .WITH) (by decide)]
    have hread := hvs (.symbol .closing :: rest) follows_closing rfl
    simp [operandAtMost, typedText_malformed (t := .symbol .opening) rfl, groupOperand, hno, Below.anyExpr,
      hread, hrest.startsWith_period, -run_list]
  | subquery =>
    rintro _ _ ⟨rfl, rfl⟩ us _ ⟨⟨s, us, rfl⟩, q, rfl, hq⟩ _ _ ⟨rfl, rfl⟩
    refine isOperand_symbol (by decide) (by simp) fun rest hrest N => ?_
    have hread := hq (.symbol .closing :: rest) follows_closing
    rw [List.cons_append] at hread
    simp [operandAtMost, typedText_malformed (t := .symbol .opening) rfl, groupOperand, startsQuery,
      Below.queryText, hread, hrest.startsWith_period]
  | call =>
    rintro _ _ ⟨name, k, hname, rfl, rfl, hk, htypes⟩ us x hus _ _ ⟨rfl, rfl⟩ vs y ⟨hheads, hvs⟩ _ _ ⟨rfl, rfl⟩
      ws z ⟨hends, -, hws⟩
    obtain ⟨items, -, rfl, hitems⟩ := hvs.reads
    obtain ⟨parts, rfl, hwindow⟩ := hws e
    have hcall := isOperand_call st (vs ++ [.symbol .closing]) hname (fun l hl => hk l (List.mem_append_left _ hl)) htypes hus rfl
      (fun rest _ => by simpa using arguments_list hheads (hitems (.symbol .closing :: rest) follows_closing rfl))
      (hends e) hwindow
    simpa [Each, String.append_assoc] using hcall
  | callOver hk =>
    rintro _ _ ⟨name, k, hname, rfl, rfl, hk, htypes⟩ us x hus _ _ ⟨rfl, rfl⟩ _ _ ⟨⟨s, rfl, -⟩, rfl⟩
      vs y ⟨hheads, hvs⟩ _ _ ⟨rfl, rfl⟩ ws z ⟨hends, -, hws⟩
    obtain ⟨items, -, rfl, hitems⟩ := hvs.reads
    obtain ⟨parts, rfl, hwindow⟩ := hws e
    have hcall := isOperand_call st (.word ⟨s, none⟩ (some _) :: (vs ++ [.symbol .closing]))
      hname (fun l hl => hk l (List.mem_append_left _ hl)) htypes hus rfl
      (fun rest _ => by
        simpa using arguments_over ‹_› hheads (hitems (.symbol .closing :: rest) follows_closing rfl))
      (hends e) hwindow
    simpa [Each, String.append_assoc] using hcall
  | callEmpty =>
    rintro _ _ ⟨name, k, hname, rfl, rfl, hk, htypes⟩ us x hus _ _ ⟨rfl, rfl⟩ _ _ ⟨rfl, rfl⟩ ws z ⟨hends, -, hws⟩
    obtain ⟨parts, rfl, hwindow⟩ := hws e
    have hcall := isOperand_call st [.symbol .closing] (y := "()") (z := ")") hname
      (fun l hl => hk l (List.mem_append_left _ hl)) htypes hus rfl
      (fun rest _ => by simp [arguments]) (hends e) hwindow
    simpa [Each, String.append_assoc] using hcall
  | case =>
    rintro _ _ ⟨⟨s, rfl, hs⟩, rfl⟩ _ _ ⟨s', us, rfl, hs', parts, rfl, hus⟩ vs y hvs _ _ ⟨⟨s'', rfl, hs''⟩, rfl⟩
    refine isOperand_form hs (by decide) (fun _ => rfl) (by simp) fun rest _ _ _ => ?_
    obtain ⟨other, rfl, hends⟩ := branches_end hus hvs hs''
    obtain ⟨hbranches, helse⟩ := hends rest
    simp [caseForm, Below.anyExpr, hbranches, helse, -run_after, Keyword.spelling, Keyword.table, String.append_assoc,
      -List.length_append, -List.length_cons]
  | caseOf =>
    rintro _ _ ⟨⟨s, rfl, hs⟩, rfl⟩ ts x hts _ _ ⟨s', us, rfl, hs', parts, rfl, hus⟩ vs y hvs
      _ _ ⟨⟨s'', rfl, hs''⟩, rfl⟩
    refine isOperand_form hs (by decide) (fun _ => rfl) (fun _ _ => by simp [hts.fronts.heads.period])
      fun rest _ _ _ => ?_
    obtain ⟨other, rfl, hends⟩ := branches_end hus hvs hs''
    obtain ⟨hbranches, helse⟩ := hends rest
    -- the operand of the case is told from a first branch by its front
    have hwhen := hts.fronts.heads.keyword_ne (k := .WHEN) (by decide)
    simp [caseForm, Below.anyExpr, hwhen, hts.reads, follows_keyword (e := soft) hs' rfl, hbranches, helse, -run_after,
      Keyword.spelling, Keyword.table, String.append_assoc, -List.length_append, -List.length_cons]
  | cast hk =>
    rintro _ _ ⟨⟨s, rfl, hs⟩, rfl⟩ _ _ ⟨rfl, rfl⟩ us x hus _ _ ⟨⟨s', rfl, hs'⟩, rfl⟩ vs y ⟨_, rfl, hvs⟩ _ _ ⟨rfl, rfl⟩
    rcases hk with rfl | rfl | rfl <;>
      exact isOperand_form hs (by decide) (fun _ => rfl) (by simp) fun rest hrest N hN => by
        simp [castForm, Below.anyExpr, hus.reads, hvs, follows_keyword (e := soft) hs' rfl, Keyword.spelling,
          Keyword.table, String.append_assoc]
  | extract =>
    rintro _ _ ⟨⟨s, rfl, hs⟩, rfl⟩ _ _ ⟨rfl, rfl⟩ t _ ⟨hfield, hcapitals⟩ _ _ ⟨⟨s', rfl, hs'⟩, rfl⟩ us x hus
      _ _ ⟨rfl, rfl⟩
    refine isOperand_form hs (by decide) (fun _ => rfl) (by simp) ?_
    intro rest _ _ _
    simp [extractForm, dateField, Token.dateField?, hcapitals, hfield, Option.filter, Below.anyExpr, hus.reads,
      Keyword.spelling, Keyword.table, String.append_assoc]
  | rounding hk =>
    rintro _ _ ⟨⟨s, rfl, hs⟩, rfl⟩ _ _ ⟨rfl, rfl⟩ us x hus _ _ ⟨rfl, rfl⟩
    rcases hk with rfl | rfl <;>
      exact isOperand_form hs (by decide) (fun _ => rfl) (by simp) fun rest hrest N hN => by
        simp [roundingForm, Below.anyExpr, hus.reads, Keyword.spelling, Keyword.table]
  | position =>
    rintro _ _ ⟨⟨s, rfl, hs⟩, rfl⟩ _ _ ⟨rfl, rfl⟩ us x hus _ _ ⟨⟨s', rfl, hs'⟩, rfl⟩ vs y hvs _ _ ⟨rfl, rfl⟩
    refine isOperand_form hs (by decide) (fun _ => rfl) (by simp) ?_
    intro rest _ _ _
    -- the part is read at a level that the `IN` behind it ends, and does not become a test
    have hin (ts : List Token) : Follows 140 (.word ⟨s', none⟩ (some .IN) :: ts) :=
      follows_of_nextLevel (l := 20) rfl (by decide) (by decide)
    simp [positionForm, Below.anyExpr, hus.reads, hin, hvs.reads, Keyword.spelling, Keyword.table, String.append_assoc]
  | substring =>
    rintro _ _ ⟨⟨s, rfl, hs⟩, rfl⟩ _ _ ⟨rfl, rfl⟩ us x hus vs y hvs ws z hws _ _ ⟨rfl, rfl⟩
    refine isOperand_form hs (by decide) (fun _ => rfl) (by simp) ?_
    intro rest _ _ _
    -- either of the two clauses may be missing
    obtain ⟨rfl, rfl⟩ | ⟨s', vs, y, rfl, hs', rfl, hvs⟩ := hvs <;>
      obtain ⟨rfl, rfl⟩ | ⟨s'', ws, z, rfl, hs'', rfl, hws⟩ := hws
    · simp [substringForm, Below.anyExpr, hus.reads, clause, Keyword.spelling, Keyword.table, String.append_assoc]
    · simp [substringForm, Below.anyExpr, hus.reads, hws.reads, follows_keyword (e := soft) hs'' rfl, clause,
        Keyword.spelling, Keyword.table, String.append_assoc]
    · simp [substringForm, Below.anyExpr, hus.reads, hvs.reads, follows_keyword (e := soft) hs' rfl, clause,
        Keyword.spelling, Keyword.table, String.append_assoc]
    · simp [substringForm, Below.anyExpr, hus.reads, hvs.reads, hws.reads, follows_keyword (e := soft) hs' rfl,
        follows_keyword (e := soft) hs'' rfl, clause, Keyword.spelling, Keyword.table, String.append_assoc]
  | substringList =>
    rintro _ _ ⟨⟨s, rfl, hs⟩, rfl⟩ _ _ ⟨rfl, rfl⟩ us x hus _ _ ⟨rfl, rfl⟩ vs y hvs _ _ ⟨rfl, rfl⟩ ws z hws
      _ _ ⟨rfl, rfl⟩
    refine isOperand_form hs (by decide) (fun _ => rfl) (by simp) ?_
    intro rest _ _ _
    simp [substringForm, Below.anyExpr, hus.reads, hvs.reads, hws.reads, listed, Keyword.spelling,
      Keyword.table, String.append_assoc]
  | trim =>
    rintro _ _ ⟨⟨s, rfl, hs⟩, rfl⟩ _ _ ⟨rfl, rfl⟩ us x hus _ _ ⟨rfl, rfl⟩
    refine isOperand_form hs (by decide) (fun _ => rfl) (by simp) ?_
    intro rest _ _ _
    have hno (k : Keyword) := hus.fronts.heads.keyword_ne (k := k)
    simp [trimForm, Below.anyExpr, hno .BOTH (by decide), hno .LEADING (by decide), hno .TRAILING (by decide),
      hus.reads, Keyword.spelling, Keyword.table]
  | trimFrom =>
    rintro _ _ ⟨⟨s, rfl, hs⟩, rfl⟩ _ _ ⟨rfl, rfl⟩ us x hus _ _ ⟨⟨s', rfl, hs'⟩, rfl⟩ vs y hvs _ _ ⟨rfl, rfl⟩
    refine isOperand_form hs (by decide) (fun _ => rfl) (by simp) ?_
    intro rest _ _ _
    have hno (k : Keyword) := hus.fronts.heads.keyword_ne (k := k)
    simp [trimForm, Below.anyExpr, hno .BOTH (by decide), hno .LEADING (by decide), hno .TRAILING (by decide),
      hus.reads, follows_keyword (e := soft) hs' rfl, hvs.reads, Keyword.spelling, Keyword.table, String.append_assoc]
  | trimSide hk =>
    rintro _ _ ⟨⟨s, rfl, hs⟩, rfl⟩ _ _ ⟨rfl, rfl⟩ _ _ ⟨⟨s'', rfl, hs''⟩, rfl⟩ us x hus
      _ _ ⟨⟨s', rfl, hs'⟩, rfl⟩ vs y hvs _ _ ⟨rfl, rfl⟩
    refine isOperand_form hs (by decide) (fun _ => rfl) (by simp) ?_
    intro rest _ _ _
    rcases hk with rfl | rfl | rfl <;>
      simp [trimForm, Below.anyExpr, hus.reads, follows_keyword (e := soft) hs' rfl, hvs.reads, Keyword.spelling,
        Keyword.table, String.append_assoc]

end QueryTemplate.Sql
