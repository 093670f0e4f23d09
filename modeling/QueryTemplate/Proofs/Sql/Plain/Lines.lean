import QueryTemplate.Proofs.Sql.Plain.Template
import QueryTemplate.Proofs.Sql.Plain.Writing

/-!
# Templates in lines

An outline can be written as a template again, with a line for each clause and each table. The text is put
together from the normal forms of the parts, and each part is cut into tokens in front of what stands
behind it. So the whole is cut into the tokens of the parts, which make up the same outline.

* **`Cut`**: the text is cut into the tokens, in front of anything that stays apart from it.
* **`Outline.text`**: the template of an outline.
* **`IsPlain.lex_text`**: it is cut into the tokens of a plain template with the same outline.
-/

namespace QueryTemplate.Sql

open Running RulePiece

/-! ## Texts that are cut into tokens -/

/-- The text is cut into the tokens, in front of anything that stays apart from it. -/
def Cut (x : String) (us : List Token) : Prop :=
  ∀ rest, (∀ d, rest.head? = some d → d ∈ stopping) → lex (x.toList ++ rest) = (lex rest).map (us ++ ·)

namespace Cut

variable {x y : String} {us vs : List Token}

theorem nil : Cut "" [] :=
  fun _ _ => Option.map_id'.symm

/-- A text with another one behind it, which stays apart from it. -/
theorem append (hx : Cut x us) (hy : Cut y vs) (hhead : ∀ d, y.toList.head? = some d → d ∈ stopping) :
    Cut (x ++ y) (us ++ vs) := by
  intro rest hrest
  have hstop : ∀ d, (y.toList ++ rest).head? = some d → d ∈ stopping := by
    intro d hd
    cases hcs : y.toList with
    | nil => exact hrest d (by rwa [hcs] at hd)
    | cons c cs => exact hhead d (by rw [hcs] at hd ⊢; exact hd)
  rw [String.toList_append, List.append_assoc, hx _ hstop, hy rest hrest, Option.map_map]
  exact congrArg (Option.map · _) (funext fun ts => (List.append_assoc us vs ts).symm)

/-- A blank or a line break between two texts is no token. -/
theorem append_blank (hx : Cut x us) (hy : Cut y vs) {sep : String} (hsep : sep = " " ∨ sep = "\n") :
    Cut (x ++ (sep ++ y)) (us ++ vs) := by
  have hblank : Cut (sep ++ y) vs := by
    intro rest hrest
    rw [String.toList_append, List.append_assoc]
    rcases hsep with rfl | rfl
    · change lex (' ' :: (y.toList ++ rest)) = _
      rw [lex_cons, lexRound, if_pos (by decide), hy rest hrest]
    · change lex ('\n' :: (y.toList ++ rest)) = _
      rw [lex_cons, lexRound, if_pos (by decide), hy rest hrest]
  refine hx.append hblank fun d hd => ?_
  rw [String.toList_append] at hd
  rcases hsep with rfl | rfl <;> cases hd <;> decide

/-- A comma between two texts, with a blank or a line break behind it. -/
theorem append_comma (hx : Cut x us) (hy : Cut y vs) {sep : String} (hsep : sep = " " ∨ sep = "\n") :
    Cut (x ++ ("," ++ (sep ++ y))) (us ++ .symbol .comma :: vs) := by
  have hcomma : Cut "," [.symbol .comma] := fun rest _ => lex_alone (by decide) rfl rest
  refine hx.append (hcomma.append_blank hy hsep) fun d hd => ?_
  rw [String.toList_append] at hd
  cases hd
  decide

/-- A whole text. -/
theorem lex_eq (hx : Cut x us) : lex x.toList = some us := by
  have hread := hx [] nofun
  rw [List.append_nil] at hread
  rw [hread]
  exact congrArg some (List.append_nil us)

end Cut

theorem IsPlainWord.cut {x : String} (h : IsPlainWord x.toList) : Cut x [.ofWord x.toList] := by
  intro rest hrest
  exact (isBare_of_word h).lex_append (ends_of_stopping fun d hd => List.mem_cons_of_mem _ (hrest d hd))

/-- Something of a kind is read again. -/
theorem Derives.cut {k : Kind} {ts : List Token} {x : String} (h : Derives [.sub k] ts x) :
    ∃ us, Derives [.sub k] us x ∧ Cut x us := by
  obtain ⟨us, hus⟩ := h.respelled ⟨nofun, trivial⟩
  exact ⟨us, hus.derives, hus.cut⟩

/-! ## Keywords -/

/-- Keywords in front of a text. -/
def keyed : List Keyword → String → String
  | [], x => x
  | k :: ks, x => k.spelling ++ (" " ++ keyed ks x)

theorem cut_keyed {ks : List Keyword} {ts us : List Token} {x : String} (hts : AreKeywords ts ks) (hx : Cut x us) :
    ∃ ws, AreKeywords ws ks ∧ Cut (keyed ks x) (ws ++ us) := by
  induction hts with
  | nil => exact ⟨[], .nil, hx⟩
  | @cons t k ts ks ht _ ih =>
    obtain ⟨ws, hws, hcut⟩ := ih
    exact ⟨_ :: ws, .cons ht.spelled.2 hws, ht.spelled.1.cut.append_blank hcut (.inl rfl)⟩

/-! ## Lists -/

/-- Things with commas between them are cut into tokens as each of them is. Where the second list comes from
the first one, it may say something else. -/
theorem Commas.cut {α β : Type} {P : List Token → α → Prop} {Q : List Token → β → Prop} {R : α → β → Prop}
    {write : β → String} (hone : ∀ {ts a b}, P ts a → R a b → ∃ us, Q us b ∧ Cut (write b) us) {sep : String}
    (hsep : sep = " " ∨ sep = "\n") {ts : List Token} {as : List α} {bs : List β} (h : Commas P ts as)
    (hbs : List.Forall₂ R as bs) :
    ∃ us, Commas Q us bs ∧ Cut (("," ++ sep).intercalate (bs.map write)) us := by
  induction h generalizing bs with
  | one h =>
    obtain _ | ⟨hb, hbs⟩ := hbs
    cases hbs
    obtain ⟨us, hus, hcut⟩ := hone h hb
    exact ⟨us, .one hus, by rwa [List.map_singleton, String.intercalate_singleton]⟩
  | cons h hmore ih =>
    obtain _ | @⟨_, b, _, bs, hb, hbs⟩ := hbs
    obtain ⟨us, hus, hcut⟩ := hone h hb
    obtain ⟨vs, hvs, hcuts⟩ := ih hbs
    refine ⟨us ++ .symbol .comma :: vs, .cons hus hvs, ?_⟩
    have hne : bs.map write ≠ [] := by
      cases hvs <;> exact List.cons_ne_nil _ _
    rw [List.map_cons, intercalate_cons _ _ hne, String.append_assoc]
    exact hcut.append_comma hcuts hsep

/-! ## Parts of a template -/

/-- The item shows the same as another one, with a plain word for a label. -/
structure SelectItem.Renames (item other : SelectItem) : Prop where
  expression : item.expression = other.expression
  label : ∃ word, item.label = some ⟨word, none⟩ ∧ IsPlainWord word.toList

theorem PlainItem.cut {ts : List Token} {item other : SelectItem} (h : PlainItem ts other)
    (hitem : item.Renames other) : ∃ us, PlainItem us item ∧ Cut item.written us := by
  obtain ⟨x, label⟩ := item
  obtain ⟨hx, word, hlabel, hword⟩ := hitem
  obtain rfl : x = other.expression := hx
  obtain rfl : label = some ⟨word, none⟩ := hlabel
  -- whether there was an `AS` or not, now there is one
  obtain ⟨e, vs, he, hderives⟩ :
      ∃ e vs, soft ≤ e ∧ Derives [sub (.expr innerLevels 0 e .free)] vs other.expression := by
    cases h with
    | bare h => exact ⟨aliased, _, by decide, h⟩
    | named he h => exact ⟨_, _, he, h⟩
  obtain ⟨us, hus, hcut⟩ := hderives.cut
  have has : (Token.ofWord "AS".toList).IsKeyword .AS := ⟨"AS", rfl, rfl⟩
  refine ⟨_, .named (t := .ofWord word.toList) he hus has (by simp [Token.ofWord, Token.ident?]), ?_⟩
  have htext : SelectItem.written ⟨other.expression, some ⟨word, none⟩⟩
      = other.expression ++ (" " ++ ("AS" ++ (" " ++ word))) := by
    simp [SelectItem.written, Ident.written]
  rw [htext]
  exact hcut.append_blank (has.spelled.1.cut.append_blank hword.cut (.inl rfl)) (.inl rfl)

/-- A table with a line for each join. -/
def Source.lines (s : Source) : String :=
  "\n".intercalate (s.table :: s.joins)

theorem PlainJoins.cut {ts : List Token} {js : List String} (h : PlainJoins ts js) {x : String} {us : List Token}
    (hx : Cut x us) : ∃ vs, PlainJoins vs js ∧ Cut ("\n".intercalate (x :: js)) (us ++ vs) := by
  induction h generalizing x us with
  | nil => exact ⟨[], .nil, by rwa [String.intercalate_singleton, List.append_nil]⟩
  | cons h _ ih =>
    obtain ⟨ws, hws, hcut⟩ := h.cut
    obtain ⟨vs, hvs, hcuts⟩ := ih hcut
    refine ⟨ws ++ vs, .cons hws hvs, ?_⟩
    rw [intercalate_cons _ _ (List.cons_ne_nil _ _)]
    exact hx.append_blank hcuts (.inr rfl)

theorem PlainSource.cut {ts : List Token} {s : Source} (h : PlainSource ts s) :
    ∃ us, PlainSource us s ∧ Cut s.lines us := by
  obtain ⟨htable, hjoins⟩ := h
  obtain ⟨us, hus, hcut⟩ := htable.cut
  obtain ⟨vs, hvs, hcuts⟩ := hjoins.cut hcut
  exact ⟨us ++ vs, .mk hus hvs, hcuts⟩

/-- What neither starts nor ends with a blank stays as it is. -/
theorem trim_eq_self {x : String} (hfirst : ∀ c, x.toList.head? = some c → Text.isBlank c = false)
    (hlast : ∀ c, x.toList.getLast? = some c → Text.isBlank c = false) : Text.trim x = x := by
  have hdrop {cs : List Char} (h : ∀ c, cs.head? = some c → Text.isBlank c = false) :
      cs.dropWhile Text.isBlank = cs := by
    cases cs with
    | nil => rfl
    | cons c cs => exact List.dropWhile_cons_of_neg (by simp [h c rfl])
  rw [Text.trim, Text.trimBoth, hdrop hfirst, Text.trimRight, hdrop (by simpa using hlast), List.reverse_reverse,
    String.ofList_toList]

/-- There are no blanks around a join. -/
theorem PlainJoins.map_trim {ts : List Token} {js : List String} (h : PlainJoins ts js) : js.map Text.trim = js := by
  induction h with
  | nil => rfl
  | cons h _ ih =>
    obtain ⟨us, hus⟩ := h.respelled ⟨nofun, trivial⟩
    have htrim := trim_eq_self (fun c hc => isBlank_of_isWordStart ((hus.first c hc).resolve_right id)) hus.last
    rw [List.map_cons, ih, htrim]

/-- A clause on a line of its own, or nothing. -/
def clauseLine (ks : List Keyword) (x : Option String) : String :=
  (x.map fun y => "\n" ++ keyed ks y).getD ""

theorem PlainClause.cut {ks : List Keyword} {k : Kind} {ts : List Token} {x : Option String}
    (h : PlainClause ks k ts x) : ∃ us, PlainClause ks k us x
      ∧ ∀ {front : String} {vs : List Token}, Cut front vs → Cut (front ++ clauseLine ks x) (vs ++ us) := by
  cases h with
  | absent => exact ⟨[], .absent, fun hfront => by rwa [clauseLine, Option.map_none, Option.getD_none,
      String.append_empty, List.append_nil]⟩
  | present hws h =>
    obtain ⟨us, hus, hcut⟩ := h.cut
    obtain ⟨ws, hws, hkeyed⟩ := cut_keyed hws hcut
    exact ⟨ws ++ us, .present hws hus, fun hfront => hfront.append_blank hkeyed (.inr rfl)⟩

/-! ## Whole templates -/

/-- The template of an outline. -/
def Outline.text (o : Outline) : String :=
  keyed [.SELECT] (listed (o.items.map SelectItem.written))
    ++ ("\n" ++ keyed [.FROM] (",\n".intercalate (o.sources.map Source.lines)))
    ++ clauseLine [.WHERE] o.condition ++ clauseLine [.ORDER, .BY] o.order

/-- **The template of an outline has the outline**, also if its items have other labels. -/
theorem IsPlain.lex_text {ts : List Token} {o : Outline} (h : IsPlain ts o) {items : List SelectItem}
    (hitems : List.Forall₂ (fun other item => item.Renames other) o.items items) :
    ∃ us, lex ({ o with items } : Outline).text.toList = some us ∧ IsPlain us { o with items } := by
  obtain ⟨hselect, -, his, hfrom, hsources, hcondition, horder, -, -⟩ := h
  obtain ⟨is, his, hcutItems⟩ := his.cut (fun h hitem => h.cut hitem) (.inl rfl) hitems
  have hsource {us : List Token} {s t : Source} (h : PlainSource us s) (heq : s = t) :
      ∃ vs, PlainSource vs t ∧ Cut t.lines vs := heq ▸ h.cut
  obtain ⟨ss, hss, hcutSources⟩ := hsources.cut (P := PlainSource) (R := Eq) hsource (.inr rfl) (List.forall₂_refl _)
  obtain ⟨ws, hws, hcutCondition⟩ := hcondition.cut
  obtain ⟨os, hos, hcutOrder⟩ := horder.cut
  obtain ⟨_, _ | ⟨hselect, hnone⟩, hcutSelect⟩ := cut_keyed (.cons hselect .nil) hcutItems
  cases hnone
  obtain ⟨_, _ | ⟨hfrom, hnone⟩, hcutFrom⟩ := cut_keyed (.cons hfrom .nil) hcutSources
  cases hnone
  have hcut := hcutOrder (hcutCondition (hcutSelect.append_blank hcutFrom (.inr rfl)))
  have hpages : Derives [sub (.pages innerLevels)] [] ("" ++ "") := .sub .noPages .nil .nil
  refine ⟨_, hcut.lex_eq, ?_⟩
  have hends : ∀ t ∈ ([] : List Token), t = .symbol .semicolon := nofun
  simpa using IsPlain.mk (o := { o with items }) hselect (.inl rfl) his hfrom hss hws hos hpages hends

end QueryTemplate.Sql
