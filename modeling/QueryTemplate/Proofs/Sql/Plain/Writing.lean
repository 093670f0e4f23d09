import QueryTemplate.Proofs.Sql.Plain.Spelling

/-!
# Normal forms are read again

What a rule writes is cut into tokens from which the same rule writes the same. For this, what stands next
to each other in a rule has to stay apart where it is written: each rule is checked once (`fits_of_rule`),
and the derivations follow by induction.
-/

namespace QueryTemplate.Sql

open RulePiece

/-! ## The first and the last character -/

/-- The characters that something of the kind may start with when it is written. -/
def Kind.starts : Kind → Char → Prop
  | .expr _ _ _ s, c | .operand _ _ s, c => s = .unsigned → c ≠ '-' ∧ c ≠ '>'
  | .path, c => c = '.'
  | .operations .., c | .window _, c | .clause .., c | .branches _, c | .order _, c | .combinations .., c
  | .tables _, c | .groups _, c | .pages _, c | .joins _, c | .joinCondition _, c | .label, c => c = ' ' ∨ c = ':'
  | .join _, c => isWordStart c = true
  | _, _ => True

/-- The characters that the pieces may start with when they are written. -/
def heads : List RulePiece → Char → Prop
  | [], _ => False
  | .atom a :: _, c => a.starts c = true
  | .optional k :: ps, c => k.spelling.toList.head? = some c ∨ heads ps c
  | .ghost _ :: ps, c => heads ps c
  | .blank :: _, c => c = ' '
  | .sub k :: ps, c => k.starts c ∨ heads ps c

/-- The pieces are always written as something. -/
def Solid : List RulePiece → Prop
  | [] => False
  | .atom _ :: _ => True
  | .optional _ :: _ => True
  | .ghost _ :: ps => Solid ps
  | .blank :: _ => True
  | .sub k :: ps => k.solid = true ∨ Solid ps

/-- Each piece stays apart from what is written behind it, and no blank is the last that is written. -/
def Fits : List RulePiece → Prop
  | [] => True
  | .atom a :: ps => (∀ s, a = .symbol s → s.sign ≠ "")
      ∧ (∀ c, heads ps c ∨ ¬ Solid ps ∧ c ∈ stopping → a.admits c = true) ∧ Fits ps
  | .optional k :: ps => k = .AS ∧ (∀ c, heads ps c → c ∈ stopping) ∧ Fits ps
  | .ghost _ :: ps => Fits ps
  | .blank :: ps => Solid ps ∧ Fits ps
  | .sub _ :: ps => (∀ c, heads ps c → c ∈ stopping) ∧ Fits ps

/-! ## Rules fit -/

/-- Keywords fit in front of anything that starts as something does that is behind a word. -/
theorem fits_keys (ps : List RulePiece) {ks : List Keyword} (hps : Fits ps) (hheads : ∀ c, heads ps c → c ∈ stopping) :
    Fits (keys ks ++ ps) ∧ ∀ c, heads (keys ks ++ ps) c → c ∈ stopping := by
  induction ks with
  | nil => exact ⟨hps, hheads⟩
  | cons k ks ih =>
    refine ⟨⟨trivial, nofun, fun c hc => ?_, ih.1⟩, fun c hc => ?_⟩
    · exact List.contains_iff_mem.2 (hc.elim (ih.2 c) And.right)
    · obtain rfl : c = ' ' := hc
      decide

/-- Words start with no sign. -/
theorem not_sign_of_isWordStart {c : Char} (h : isWordStart c = true) : c ∉ ['-', '>', ':', '='] := by
  have hall : ∀ c ∈ ['-', '>', ':', '='], isWordStart c = false := by decide
  intro hmem
  rw [hall c hmem] at h
  cases h

/-- Names start with no digit. -/
theorem not_digit_of_starts {keywords : List Keyword} {types : List TypeShape} {c : Char}
    (h : (Atom.name keywords types).starts c = true) : c.isDigit = false := by
  have hname : (isWordStart c = true ∨ c = '"') ∨ c = '`' := by simpa [Atom.starts] using h
  rcases hname with (hstart | rfl) | rfl
  · exact Bool.eq_false_iff.2 fun hdigit => not_mem_otherStarts hstart (mem_otherStarts_of_isDigit hdigit)
  · rfl
  · rfl

theorem fits_of_rule {k : Kind} {qs : List RulePiece} (r : Rule k qs) : Fits qs := by
  cases r
  case parameter =>
    refine ⟨by simp, fun c hc => ?_, by simp, by simp [heads, Solid, Atom.admits], trivial⟩
    have hsign := not_sign_of_isWordStart (hc.resolve_right fun h => h.1 trivial)
    simp_all [Atom.admits]
  case pathPart =>
    refine ⟨by simp, fun c hc => ?_, by simp, ?_⟩
    · have hdigit := not_digit_of_starts (hc.resolve_right fun h => h.1 trivial)
      simp [Atom.admits, hdigit]
    · simp [Fits, Solid, heads, Kind.starts, Kind.solid, Atom.admits, stopping]
  case isTest | isDistinct | inList | inQuery | between | like | likeEscape | intersection | combination =>
    refine (fits_keys _ ?_ ?_).1 <;>
      simp [Fits, Solid, heads, Kind.starts, Kind.solid, Atom.starts, Atom.admits, stopping] <;> grind
  case orderTerm =>
    obtain ⟨hfits, hheads⟩ := fits_keys [] trivial (fun _ => False.elim)
    rw [List.append_nil] at hfits hheads
    exact ⟨hheads, hfits⟩
  case typeZone =>
    obtain ⟨hfits, hheads⟩ := fits_keys [] trivial (fun _ => False.elim)
    rw [List.append_nil] at hfits hheads
    exact ⟨by simp, fun c hc => List.contains_iff_mem.2 (hc.elim (hheads c) And.right), hfits⟩
  case literal ha =>
    rcases ha with rfl | rfl | rfl <;>
      simp [Fits, heads, Atom.admits]
  case interval ha =>
    rcases ha with rfl | rfl <;>
      simp [Fits, Solid, heads, Atom.admits, stopping]
  all_goals
    simp [Fits, Solid, heads, Kind.starts, Kind.solid, Atom.starts, Atom.admits, stopping] <;> grind

/-- Only the minus sign starts with one. -/
theorem not_sign_of_heads {a : Atom} {ps : List RulePiece} {c : Char} (hc : heads (atom a :: ps) c)
    (hoperator : ∀ l, a ≠ .operator l) (hminus : a ≠ .symbol .minus) : c ≠ '-' ∧ c ≠ '>' := by
  change a.starts c = true at hc
  have hword (h : isWordStart c = true) : c ≠ '-' ∧ c ≠ '>' := by
    have hsign := not_sign_of_isWordStart h
    exact ⟨fun h => hsign (by simp [h]), fun h => hsign (by simp [h])⟩
  have hdigit (h : c.isDigit = true) : c ≠ '-' ∧ c ≠ '>' := by
    constructor <;> rintro rfl <;> cases h
  cases a with
  | operator l => exact absurd rfl (hoperator l)
  | symbol s => cases s <;> simp_all [Atom.starts]
  | _ => simp_all [Atom.starts] <;> grind

theorem heads_keys {ks : List Keyword} (hks : ks ≠ []) {ps : List RulePiece} {c : Char} (h : heads (keys ks ++ ps) c) :
    c = ' ' := by
  obtain ⟨k, ks, rfl⟩ := List.exists_cons_of_ne_nil hks
  exact h

/-- An operand starts with a sign only if it may. -/
theorem heads_of_operand {n e : Nat} {s : Start} {qs : List RulePiece} (r : Rule (.operand n e s) qs)
    (hs : s = .unsigned) {c : Char} (hc : heads qs c) : c ≠ '-' ∧ c ≠ '>' := by
  cases r
  case minus hsign => exact absurd hs hsign
  case literal ha => rcases ha with rfl | rfl | rfl <;> exact not_sign_of_heads hc nofun nofun
  all_goals exact not_sign_of_heads hc nofun nofun

/-- What a kind may start with, its rules do. -/
theorem heads_of_rule {k : Kind} {qs : List RulePiece} (r : Rule k qs) : ∀ c, heads qs c → k.starts c := by
  cases k with
  | expr n l e s =>
    cases r
    rintro c (hc | (hc : c = ' ' ∨ c = ':') | hc) hs
    · exact hc hs
    · rcases hc with rfl | rfl <;> decide
    · cases hc
  | operand n e s => exact fun c hc hs => heads_of_operand r hs hc
  | operations n l m e =>
    intro c hc
    cases r
    case noOperation => cases hc
    case binary => exact .inl hc
    case typeCast => exact .inr (by simpa [heads, Atom.starts] using hc)
    all_goals exact .inl (heads_keys (by simp) hc)
  | combinations n inner =>
    intro c hc
    cases r
    case noCombination => cases hc
    all_goals exact .inl (heads_keys (by simp) hc)
  | path | window | clause | branches | order | tables | groups | pages | joins | join | joinCondition | label =>
    cases r <;> simp [heads, Kind.starts, Atom.starts]
  | _ => exact fun _ _ => trivial

theorem solid_of_rule {k : Kind} {qs : List RulePiece} (r : Rule k qs) (hk : k.solid = true) : Solid qs := by
  cases r <;> simp_all [Solid, Kind.solid]

/-! ## Derivations -/

/-- The tokens `us` are what is read of the pieces `ps` when they are written as `x`. -/
structure Respelled (ps : List RulePiece) (us : List Token) (x : String) : Prop where
  derives : Derives ps us x
  first : ∀ c, x.toList.head? = some c → heads ps c
  last : ∀ c, x.toList.getLast? = some c → Text.isBlank c = false
  solid : Solid ps → x ≠ ""
  cut : ∀ rest, (∀ d, rest.head? = some d → d ∈ stopping) → lex (x.toList ++ rest) = (lex rest).map (us ++ ·)

namespace Respelled

variable {ps : List RulePiece} {us : List Token} {y : String}

/-- What stands behind something that is written in front of the pieces. -/
theorem head (h : Respelled ps us y) {rest : List Char} (hrest : ∀ d, rest.head? = some d → d ∈ stopping) (c : Char)
    (hc : (y.toList ++ rest).head? = some c) : heads ps c ∨ ¬ Solid ps ∧ c ∈ stopping := by
  cases hy : y.toList with
  | nil =>
    rw [hy, List.nil_append] at hc
    exact .inr ⟨fun hps => h.solid hps (String.toList_eq_nil_iff.1 hy), hrest c hc⟩
  | cons d cs =>
    rw [hy] at hc
    exact .inl (h.first c (by rw [hy]; exact hc))

theorem last_append (h : Respelled ps us y) {x : String}
    (hx : ∀ c, x.toList.getLast? = some c → Text.isBlank c = false) :
    ∀ c, (x ++ y).toList.getLast? = some c → Text.isBlank c = false := by
  intro c hc
  rw [String.toList_append, List.getLast?_append] at hc
  cases hy : y.toList.getLast? with
  | none => exact hx c (by simpa [hy] using hc)
  | some d => exact h.last c (by simpa [hy] using hc)

end Respelled

/-- An atom in front of more pieces. -/
theorem Respelled.atom {a : Atom} {u : Token} {x : String} {ps : List RulePiece} {us : List Token} {y : String}
    (hu : a.Written u x) (hus : Respelled ps us y)
    (hfits : ∀ c, heads ps c ∨ ¬ Solid ps ∧ c ∈ stopping → a.admits c = true) :
    Respelled (.atom a :: ps) (u :: us) (x ++ y) := by
  obtain ⟨c, cs, hcs, hstarts⟩ := hu.starts
  refine ⟨.atom hu.spells hus.derives, fun d hd => ?_, hus.last_append hu.ends, fun _ h => ?_, fun rest hrest => ?_⟩
  · rw [String.toList_append, hcs] at hd
    cases hd
    exact hstarts
  · have hnil := congrArg String.toList h
    simp [hcs] at hnil
  · rw [String.toList_append, List.append_assoc, hu.cut _ fun d hd => hfits d (hus.head hrest d hd), hus.cut rest hrest,
      Option.map_map]
    rfl

/-- A keyword that is written, whether it was there or not. -/
theorem Respelled.optional {ps : List RulePiece} {us : List Token} {y : String} (hus : Respelled ps us y)
    (hheads : ∀ c, heads ps c → c ∈ stopping) :
    Respelled (.optional .AS :: ps) (.ofWord (Keyword.spelling .AS).toList :: us) (Keyword.spelling .AS ++ y) := by
  have hkeyword : (Token.ofWord (Keyword.spelling .AS).toList).IsKeyword .AS := ⟨"AS", rfl, rfl⟩
  have hatom := Respelled.atom (written_keyword hkeyword) hus
    fun c hc => List.contains_iff_mem.2 (hc.elim (hheads c) And.right)
  refine ⟨.present hkeyword hus.derives, fun c hc => ?_, hatom.last, fun _ => hatom.solid trivial, hatom.cut⟩
  rw [String.toList_append] at hc
  exact .inl hc

/-- A keyword that is not written adds nothing. -/
theorem Respelled.ghost {k : Keyword} {ps : List RulePiece} {us : List Token} {y : String} (hus : Respelled ps us y) :
    Respelled (.ghost k :: ps) us y :=
  ⟨.ghost hus.derives, hus.first, hus.last, hus.solid, hus.cut⟩

/-- A blank is written in front of something, so it is not the last that is written. -/
theorem Respelled.blank {ps : List RulePiece} {us : List Token} {y : String} (hus : Respelled ps us y)
    (hsolid : Solid ps) : Respelled (.blank :: ps) us (" " ++ y) := by
  refine ⟨.blank hus.derives, fun c hc => ?_, fun c hc => ?_, fun _ h => ?_, fun rest hrest => ?_⟩
  · rw [String.toList_append] at hc
    exact (Option.some.inj hc).symm
  · have hne : y.toList ≠ [] := fun h => hus.solid hsolid (String.toList_eq_nil_iff.1 h)
    obtain ⟨d, hd⟩ := Option.ne_none_iff_exists'.1 (mt List.getLast?_eq_none_iff.1 hne)
    rw [String.toList_append, List.getLast?_append, hd] at hc
    exact hus.last c (hd.trans hc)
  · simpa using congrArg String.toList h
  · rw [String.toList_append, List.append_assoc]
    change lex (' ' :: (y.toList ++ rest)) = _
    rw [lex_cons, lexRound, if_pos (by decide), hus.cut rest hrest]

/-- Something that has rules, in front of more pieces. -/
theorem Respelled.sub {k : Kind} {qs ps : List RulePiece} {vs ws : List Token} {x y : String} (r : Rule k qs)
    (hvs : Respelled qs vs x) (hws : Respelled ps ws y) (hheads : ∀ c, heads ps c → c ∈ stopping) :
    Respelled (.sub k :: ps) (vs ++ ws) (x ++ y) := by
  refine ⟨.sub r hvs.derives hws.derives, fun c hc => ?_, hws.last_append hvs.last, fun hsolid h => ?_,
    fun rest hrest => ?_⟩
  · rw [String.toList_append] at hc
    cases hx : x.toList with
    | nil =>
      rw [hx, List.nil_append] at hc
      exact .inr (hws.first c hc)
    | cons d cs =>
      rw [hx] at hc
      exact .inl (heads_of_rule r c (hvs.first c (by rw [hx]; exact hc)))
  · obtain ⟨hx, hy⟩ := String.append_eq_empty_iff.1 h
    exact hsolid.elim (fun hk => hvs.solid (solid_of_rule r hk) hx) fun hps => hws.solid hps hy
  · rw [String.toList_append, List.append_assoc, hvs.cut _ fun d hd => ?_, hws.cut rest hrest, Option.map_map]
    · exact congrArg (Option.map · _) (funext fun ts => (List.append_assoc vs ws ts).symm)
    -- what stands behind it is what the other pieces start with, or what follows them all
    · exact (hws.head hrest d hd).elim (hheads d) And.right

/-- **What the rules write is read as the same things again**, in front of text that is apart from it. Induction
on the derivation, with a lemma for each kind of piece. -/
theorem Derives.respelled {ps : List RulePiece} {ts : List Token} {x : String} (h : Derives ps ts x) (hfits : Fits ps) :
    ∃ us, Respelled ps us x := by
  induction h with
  | nil => exact ⟨[], .nil, nofun, nofun, nofun, fun rest _ => Option.map_id'.symm⟩
  | atom hatom _ ih =>
    obtain ⟨us, hus⟩ := ih hfits.2.2
    obtain ⟨u, hu⟩ := hatom.written hfits.1
    exact ⟨u :: us, .atom hu hus hfits.2.1⟩
  | present _ _ ih =>
    obtain ⟨us, hus⟩ := ih hfits.2.2
    obtain rfl := hfits.1
    exact ⟨_, hus.optional hfits.2.1⟩
  | absent _ ih =>
    obtain ⟨us, hus⟩ := ih hfits.2.2
    obtain rfl := hfits.1
    exact ⟨_, hus.optional hfits.2.1⟩
  | dropped _ _ ih =>
    obtain ⟨us, hus⟩ := ih hfits
    exact ⟨us, hus.ghost⟩
  | ghost _ ih =>
    obtain ⟨us, hus⟩ := ih hfits
    exact ⟨us, hus.ghost⟩
  | blank _ ih =>
    obtain ⟨us, hus⟩ := ih hfits.2
    exact ⟨us, hus.blank hfits.1⟩
  | sub r _ _ ihInner ihRest =>
    obtain ⟨vs, hvs⟩ := ihInner (fits_of_rule r)
    obtain ⟨ws, hws⟩ := ihRest hfits.2
    exact ⟨vs ++ ws, hvs.sub r hws hfits.1⟩

end QueryTemplate.Sql
