import QueryTemplate.Proofs.Sql.Plain.Queries

/-!
# Plain templates

A plain template is a selection of items with labels from tables, with a condition and an order if it has them.
Its parts are made up by the rules of the grammar. Where the text of a template goes into lines, the tables and
their joins are told apart, so these are kept as lists.

* **`IsPlain`**: the tokens of a plain template, and its outline.
* **`IsPlain.reads`**: it is read as the query of its outline.
* **`ReadsPlain`**: what is relied on of any reader of templates, and `statements?` does.
-/

namespace QueryTemplate.Sql

open Reader Running RulePiece

/-! ## Parts -/

/-- The levels that may nest in the parts of a template. -/
def innerLevels : Nat := maxNesting - 2

/-- Things with commas between them, each of which is made up as `P` says. -/
inductive Commas {α : Type} (P : List Token → α → Prop) : List Token → List α → Prop where
  | one {ts : List Token} {a : α} (h : P ts a) : Commas P ts [a]
  | cons {ts us : List Token} {a : α} {as : List α} (h : P ts a) (rest : Commas P us as) :
      Commas P (ts ++ .symbol .comma :: us) (a :: as)

/-- An item with a label, which has `AS` in front if the word would go on with the expression. -/
inductive PlainItem : List Token → SelectItem → Prop where
  | bare {us : List Token} {x : String} {name : Ident} {k : Option Keyword}
      (h : Derives [.sub (.expr innerLevels 0 aliased .free)] us x)
      (hword : k = none ∨ Token.word name k = .ofWord name.text.toList)
      (hk : ∀ l ∈ .AS :: Keyword.columnReserved ++ Keyword.binding, k ≠ some l) :
      PlainItem (us ++ [.word name k]) ⟨x, some name⟩
  | named {us : List Token} {x : String} {e : Nat} {t as : Token} {label : Ident} (he : soft ≤ e)
      (h : Derives [.sub (.expr innerLevels 0 e .free)] us x) (has : as.IsKeyword .AS)
      (ht : t.ident? = some label) : PlainItem (us ++ [as, t]) ⟨x, some label⟩

inductive PlainJoins : List Token → List String → Prop where
  | nil : PlainJoins [] []
  | cons {us vs : List Token} {x : String} {xs : List String} (h : Derives [.sub (.join innerLevels)] us x)
      (rest : PlainJoins vs xs) : PlainJoins (us ++ vs) (x :: xs)

/-- A table and the tables joined to it. -/
inductive PlainSource : List Token → Source → Prop where
  | mk {us vs : List Token} {x : String} {xs : List String} (h : Derives [.sub (.table innerLevels false)] us x)
      (hjoins : PlainJoins vs xs) : PlainSource (us ++ vs) ⟨x, xs⟩

/-- Keywords and something of a kind, or nothing. -/
inductive PlainClause (ks : List Keyword) (k : Kind) : List Token → Option String → Prop where
  | absent : PlainClause ks k [] none
  | present {ws us : List Token} {x : String} (hws : AreKeywords ws ks) (h : Derives [.sub k] us x) :
      PlainClause ks k (ws ++ us) (some x)

/-! ## Templates -/

/-- What a template says, apart from how many rows it gives. -/
structure Outline where
  items : List SelectItem
  sources : List Source
  condition : Option String
  order : Option String

/-- The tokens are those of a plain template with the outline. -/
inductive IsPlain : List Token → Outline → Prop where
  | mk {o : Outline} {select from_ : Token} {all is ss ws os ps ends : List Token} {pages : String}
      (hselect : select.IsKeyword .SELECT) (hall : all = [] ∨ AreKeywords all [.ALL])
      (hitems : Commas PlainItem is o.items) (hfrom : from_.IsKeyword .FROM)
      (hsources : Commas PlainSource ss o.sources)
      (hcondition : PlainClause [.WHERE] (.expr innerLevels 0 soft .free) ws o.condition)
      (horder : PlainClause [.ORDER, .BY] (.list (.orderTerm innerLevels)) os o.order)
      (hpages : Derives [.sub (.pages innerLevels)] ps pages) (hends : ∀ t ∈ ends, t = .symbol .semicolon) :
      IsPlain (select :: (all ++ (is ++ from_ :: (ss ++ (ws ++ (os ++ (ps ++ ends))))))) o

/-! ## Reading -/

theorem Commas.areListed {α : Type} {P : List Token → α → Prop} {r : Reader α} {stop : List Token → Prop}
    (hone : ∀ {ts a}, P ts a → ∀ rest, stop rest → r (ts ++ rest) = .ok (a, rest))
    (hcomma : ∀ us, stop (.symbol .comma :: us)) {ts : List Token} {as : List α} (h : Commas P ts as) :
    AreListed r stop ts as := by
  induction h with
  | one h => exact areListed_one (hone h)
  | cons h _ ih => exact .cons (hone h) hcomma ih

theorem Derives.isExpr {n l e : Nat} {s : Start} {ts : List Token} {x : String}
    (h : Derives [.sub (.expr n l e s)] ts x) : IsExpr n l e s ts x :=
  h.means

namespace PlainItem

theorem heads {ts : List Token} {item : SelectItem} (h : PlainItem ts item) : Heads ts := by
  cases h with
  | bare h => exact h.isExpr.fronts.heads.append _
  | named he h => exact h.isExpr.fronts.heads.append _

theorem reads {ts : List Token} {item : SelectItem} (h : PlainItem ts item) (rest : List Token) :
    selectItem (level innerLevels) (ts ++ rest) = .ok (item, rest) := by
  cases h with
  | bare h hword hk =>
    rw [List.append_assoc]
    exact selectItem_eq h.isExpr (follows_label hword hk rest)
      (optionalAlias_word fun l hl => hk l (List.mem_append_left _ hl))
  | named he h has ht =>
    obtain ⟨s, rfl, hs⟩ := has
    rw [List.append_assoc]
    exact selectItem_eq h.isExpr ((follows_keyword hs rfl _).mono he) (optionalAlias_as ht)

end PlainItem

theorem Commas.heads {ts : List Token} {items : List SelectItem} (h : Commas PlainItem ts items) : Heads ts := by
  cases h with
  | one h => exact h.heads
  | cons h => exact h.heads.append _

theorem PlainJoins.areJoins {ts : List Token} {js : List String} (h : PlainJoins ts js) :
    AreJoins innerLevels ts js := by
  induction h with
  | nil => exact areJoins_nil _
  | cons h _ ih => exact .cons h.means ih

theorem PlainSource.reads {ts : List Token} {s : Source} (h : PlainSource ts s) (rest : List Token)
    (hrest : FollowsTable 9 rest) : source (level innerLevels) (ts ++ rest) = .ok (s, rest) := by
  obtain ⟨h, hjoins⟩ := h
  rw [List.append_assoc]
  exact source_reads h.means hjoins.areJoins hrest

theorem PlainClause.condition_reads {ts : List Token} {x : Option String}
    (h : PlainClause [.WHERE] (.expr innerLevels 0 soft .free) ts x) :
    Lets 7 ts ∧ ∀ rest, Follows 6 rest → after [.WHERE] ((level innerLevels).expr 0) (ts ++ rest) = .ok (x, rest) := by
  cases h with
  | absent =>
    refine ⟨fun _ _ _ => id, fun rest hrest => ?_⟩
    simp [hrest.keyword?_ne (k := .WHERE) rfl (.inl (by decide))]
  | present hws h =>
    obtain _ | ⟨⟨s, rfl, hs⟩, hws⟩ := hws
    cases hws
    refine ⟨fun f rest hf _ => (follows_keyword hs rfl _).mono hf, fun rest hrest => ?_⟩
    simp [h.isExpr.reads rest (hrest.mono (by decide))]

theorem PlainClause.order_reads {ts : List Token} {x : Option String}
    (h : PlainClause [.ORDER, .BY] (.list (.orderTerm innerLevels)) ts x) :
    Lets 2 ts ∧ ∃ terms : List String, (if terms.isEmpty then none else some (listed terms)) = x
      ∧ ∀ rest, Follows 1 rest → orderTerms (level innerLevels) (ts ++ rest) = .ok (terms, rest) := by
  cases h with
  | absent =>
    refine ⟨fun _ _ _ => id, [], rfl, fun rest hrest => ?_⟩
    simp [orderTerms, hrest.keyword?_ne (k := .ORDER) rfl (.inl (by decide))]
  | present hws h =>
    obtain _ | ⟨⟨s, rfl, hs⟩, _ | ⟨⟨s', rfl, -⟩, hws⟩⟩ := hws
    cases hws
    obtain ⟨terms, hne, rfl, hterms⟩ := IsList.reads h.means
    refine ⟨fun f rest hf _ => (follows_keyword hs rfl _).mono hf, terms, by simp [hne], fun rest hrest => ?_⟩
    simp [orderTerms, hterms rest (hrest.mono (by decide)) (hrest.startsWith_comma (by decide)), -run_list]

/-! ## Whole templates -/

/-- The query of an outline. -/
def Outline.query (o : Outline) (order pages : List String) : Query where
  tables := none
  body := .select { distinct := none, top := none, items := o.items, sources := o.sources, condition := o.condition,
                    grouping := none, having := none }
  order
  pages

theorem body_select {n : Nat} {s : String} {ts rest : List Token} {sel : Select}
    (h : select (level n) (.word ⟨s, none⟩ (some .SELECT) :: ts) = .ok (sel, rest)) (hrest : Follows 2 rest) :
    body (level n) (.word ⟨s, none⟩ (some .SELECT) :: ts) = .ok (.select sel, rest) := by
  have hsimple : simpleBody (level n) (.word ⟨s, none⟩ (some .SELECT) :: ts) = .ok (.select sel, rest) := by
    simp [simpleBody, h]
  have hinner : combinations (setOperators true) (simpleBody (level n)) (.word ⟨s, none⟩ (some .SELECT) :: ts)
      = .ok (.select sel, rest) := by
    simp only [combinations, run_bind, run_get, hsimple]
    exact combinationsAtMost_stop true (hrest.mono (by decide)) _ _
  show combinations (setOperators false) (combinations (setOperators true) (simpleBody (level n))) _ = _
  simp only [combinations, run_bind, run_get] at hinner ⊢
  rw [hinner]
  exact combinationsAtMost_stop false hrest _ _

theorem follows_semicolons {ends : List Token} (h : ∀ t ∈ ends, t = .symbol .semicolon) : Follows 0 ends := by
  cases ends with
  | nil => exact follows_nil
  | cons t ts =>
    rw [h t List.mem_cons_self]
    exact follows_semicolon

theorem IsPlain.query_reads {ts : List Token} {o : Outline} (h : IsPlain ts o) :
    ∃ front ends order pages, ts = front ++ ends ∧ (∀ t ∈ ends, t = .symbol .semicolon) ∧ StartsSelect front
      ∧ (if order.isEmpty then none else some (listed order)) = o.order
      ∧ query (level innerLevels) ts = .ok (o.query order pages, ends) := by
  obtain ⟨⟨s, rfl, hs⟩, hall, hitems, ⟨s', rfl, hs'⟩, hsources, hcondition, horder, hpages, hends⟩ := h
  rename_i all is ss ws os ps ends pages
  obtain ⟨hletsPages, page, -, hpage⟩ := hpages.means
  obtain ⟨hletsOrder, terms, hterms, horder⟩ := horder.order_reads
  obtain ⟨hletsWhere, hwhere⟩ := hcondition.condition_reads
  -- what follows each clause, from the last one to the first
  have hend : Follows 0 ends := follows_semicolons hends
  have hpagesFollow : Follows 1 (ps ++ ends) := hletsPages 1 _ (Nat.le_refl _) (hend.mono (by decide))
  have horderFollow : Follows 2 (os ++ (ps ++ ends)) :=
    hletsOrder 2 _ (Nat.le_refl _) (hpagesFollow.mono (by decide))
  have hwhereFollow : Follows 7 (ws ++ (os ++ (ps ++ ends))) :=
    hletsWhere 7 _ (Nat.le_refl _) (horderFollow.mono (by decide))
  have hreadSources : list (source (level innerLevels)) (ss ++ (ws ++ (os ++ (ps ++ ends))))
      = .ok (o.sources, ws ++ (os ++ (ps ++ ends))) := by
    have hlisted : AreListed (source (level innerLevels)) (FollowsTable 9) ss o.sources :=
      hsources.areListed PlainSource.reads fun us => ⟨follows_comma_iff.2 (Nat.le_refl _), nofun⟩
    refine hlisted.reads ?_ (hwhereFollow.startsWith_comma (by decide))
    exact (followsTable_of_le hwhereFollow (by decide)).mono (by decide)
  have hreadItems (rest : List Token) (hrest : startsWith .comma rest = false) :
      list (selectItem (level innerLevels)) (is ++ rest) = .ok (o.items, rest) := by
    have hlisted : AreListed (selectItem (level innerLevels)) (fun _ => True) is o.items :=
      hitems.areListed (fun h rest _ => h.reads rest) fun _ => trivial
    exact hlisted.reads trivial hrest
  have hreadTables : after [.FROM] (list (source (level innerLevels)))
      (.word ⟨s', none⟩ (some .FROM) :: (ss ++ (ws ++ (os ++ (ps ++ ends)))))
      = .ok (some o.sources, ws ++ (os ++ (ps ++ ends))) := by
    simp [hreadSources, -run_list]
  -- neither groups nor a condition on them
  have hgroups : groupClause (level innerLevels) (os ++ (ps ++ ends)) = .ok (none, os ++ (ps ++ ends)) := by
    simp [groupClause, horderFollow.keyword?_ne (k := .GROUP) rfl (.inl (by decide))]
  have hhaving : after [.HAVING] ((level innerLevels).expr 0) (os ++ (ps ++ ends))
      = .ok (none, os ++ (ps ++ ends)) := by
    simp [horderFollow.keyword?_ne (k := .HAVING) rfl (.inl (by decide))]
  have hselect := select_eq ⟨s, none⟩ (distinctClause_none hall hitems.heads _)
    (hitems.heads.keyword_ne (k := .TOP) (by decide) _) (hreadItems _ rfl) hreadTables
    (hwhere _ (horderFollow.mono (by decide))) hgroups hhaving
  have hbody := body_select hselect horderFollow
  refine ⟨.word ⟨s, none⟩ (some .SELECT)
      :: (all ++ (is ++ .word ⟨s', none⟩ (some .FROM) :: (ss ++ (ws ++ (os ++ ps))))), ends, terms, page.parts, by simp,
    hends, ⟨s, _, rfl⟩, hterms, ?_⟩
  simp [query_eq, hbody, horder _ hpagesFollow, hpage _ hend, Outline.query]

theorem semicolons_read {one : Reader Statement} {ends : List Token} (h : ∀ t ∈ ends, t = .symbol .semicolon) {N : Nat}
    (hN : ends.length ≤ N) : statementsAtMost one N ends = .ok ([], []) := by
  induction N generalizing ends with
  | zero =>
    rw [List.length_eq_zero_iff.1 (Nat.le_zero.1 hN)]
    rfl
  | succ N ih =>
    cases ends with
    | nil => simp [statementsAtMost]
    | cons t ts =>
      rw [h t List.mem_cons_self]
      simp [statementsAtMost, ih (fun u hu => h u (List.mem_cons_of_mem _ hu)) (Nat.le_of_succ_le_succ hN)]

theorem statement_select {b : Below} {s : String} {ts rest : List Token} {q : Query}
    (h : b.query (.word ⟨s, none⟩ (some .SELECT) :: ts) = .ok (q, rest)) :
    statement b (.word ⟨s, none⟩ (some .SELECT) :: ts) = .ok (.query q, rest) := by
  simp [statement, startsQuery, h]

/-- A statement with semicolons behind it. -/
theorem statementsAtMost_semicolons {one : Reader Statement} {s : String} {ts ends : List Token} {first : Statement}
    (h : one (.word ⟨s, none⟩ (some .SELECT) :: (ts ++ ends)) = .ok (first, ends))
    (hends : ∀ t ∈ ends, t = .symbol .semicolon) {N : Nat} (hN : ends.length ≤ N) :
    statementsAtMost one (N + 1) (.word ⟨s, none⟩ (some .SELECT) :: (ts ++ ends)) = .ok ([first], []) := by
  cases ends with
  | nil =>
    rw [List.append_nil] at h ⊢
    simp [statementsAtMost, h]
  | cons t us =>
    obtain rfl := hends t List.mem_cons_self
    have hmore : statementsAtMost one N us = .ok ([], []) :=
      semicolons_read (fun u hu => hends u (List.mem_cons_of_mem _ hu)) (Nat.le_of_succ_le hN)
    simp [statementsAtMost, h, hmore]

/-- **A plain template is read as its outline says.** -/
theorem IsPlain.reads {ts : List Token} {o : Outline} (h : IsPlain ts o) :
    ∃ order pages, (if order.isEmpty then none else some (listed order)) = o.order
      ∧ statementsOf ts = .ok [.query (o.query order pages)] := by
  obtain ⟨front, ends, order, pages, rfl, hends, ⟨s, us, rfl⟩, horder, hquery⟩ := h.query_reads
  refine ⟨order, pages, horder, ?_⟩
  have hone := statement_select (b := level (maxNesting - 1)) hquery
  exact congrArg (Except.map Prod.fst) (statementsAtMost_semicolons hone hends (by simp))

/-- Whatever reads templates so reads a plain one as one query, with the parts of its outline in their normal
form. Of other templates nothing is said. -/
def ReadsPlain (read : String → Option (List Statement)) : Prop :=
  ∀ {template : String} {ts : List Token} {o : Outline}, lex template.toList = some ts → IsPlain ts o →
    ∃ order pages, (if order.isEmpty then none else some (listed order)) = o.order
      ∧ read template = some [.query (o.query order pages)]

theorem readsPlain_statements : ReadsPlain statements? := by
  intro template ts o hts h
  obtain ⟨order, pages, horder, hread⟩ := h.reads
  refine ⟨order, pages, horder, ?_⟩
  rw [statements?, hts]
  show (statementsOf ts).toOption = _
  rw [hread]
  rfl

end QueryTemplate.Sql
