import QueryTemplate.Proofs.Sql.Plain.Parts

/-!
# Tables and queries are read

The rules for tables, joins, selections and queries are right, and with them all rules are.

* **`select_means`**: a selection, clause by clause.
* **`isCombinations_cons`**: a set operation in front of more of them.
* **`Derives.means`**: whatever the rules make up is read as they say.
-/

namespace QueryTemplate.Sql

open Reader Running RulePiece

/-! ## Aliases -/

theorem optionalAlias_none {e : Nat} {ts : List Token} {reserved : List Keyword} (h : Follows e ts)
    (he : e < Keyword.grip .AS)
    (hreserved : ∀ s k, Keyword.ofCapitals? s = some k → keyword? ts = some k → k.grip ≤ e → k ∈ reserved) :
    optionalAlias reserved ts = .ok (none, ts) := by
  have has := h.keyword?_ne (k := .AS) rfl (.inl he)
  obtain rfl | ⟨s, us, rfl⟩ | ⟨s, k, us, rfl, hs, hle⟩ := h.head_eq_of_lt (Nat.lt_succ_of_lt he)
  · rfl
  · simp [optionalAlias]
  · have hk : k ≠ .AS := fun hk => has (by rw [hk]; rfl)
    simp [optionalAlias, hk, hreserved _ k hs rfl hle]

theorem Follows.no_columnAlias {ts : List Token} (h : Follows 9 ts) :
    optionalAlias Keyword.columnReserved ts = .ok (none, ts) := by
  refine optionalAlias_none h (by decide) fun s k hs _ hle => ?_
  have hrow := Keyword.of_table
    (P := fun _ k => decide (9 < k.grip) || Keyword.columnReserved.contains k) (by decide +kernel) hs
  simpa [Nat.not_lt.2 hle] using hrow

theorem FollowsTable.no_tableAlias {ts : List Token} (h : FollowsTable 11 ts) :
    optionalAlias Keyword.tableReserved ts = .ok (none, ts) := by
  refine optionalAlias_none h.follows (by decide) fun s k hs hkey hle => ?_
  have hrow := Keyword.of_table
    (P := fun _ k => decide (11 < k.grip) || k = .FROM || Keyword.tableReserved.contains k) (by decide +kernel) hs
  have hfrom : k ≠ .FROM := fun hk => h.ne_from (hk ▸ hkey)
  simpa [Nat.not_lt.2 hle, hfrom] using hrow

theorem FollowsTable.mono {e f : Nat} {ts : List Token} (h : FollowsTable e ts) (hef : e ≤ f) :
    FollowsTable f ts :=
  ⟨h.follows.mono hef, h.ne_from⟩

theorem followsTable_of_le {e : Nat} {ts : List Token} (h : Follows e ts) (he : e < 8) : FollowsTable e ts :=
  ⟨h, h.keyword?_ne rfl (.inl he)⟩

theorem followsTable_closing {e : Nat} {ts : List Token} : FollowsTable e (.symbol .closing :: ts) :=
  ⟨follows_closing, nofun⟩

theorem followsTable_keyword {k : Keyword} {e : Nat} {s : String}
    (hs : Keyword.ofCapitals? (Keyword.inCapitals s) = some k) (hk : k.ends e = true) (hfrom : k ≠ .FROM)
    (ts : List Token) : FollowsTable e (.word ⟨s, none⟩ (some k) :: ts) :=
  ⟨follows_keyword hs hk ts, by simpa using hfrom⟩

theorem optionalAlias_word {name : Ident} {k : Option Keyword} {reserved : List Keyword} {ts : List Token}
    (hk : ∀ l ∈ .AS :: reserved, k ≠ some l) : optionalAlias reserved (.word name k :: ts) = .ok (some name, ts) := by
  have has : k ≠ some .AS := hk _ List.mem_cons_self
  cases k with
  | none => simp [optionalAlias]
  | some k =>
    have hreserved : k ∉ reserved := fun hmem => hk k (List.mem_cons_of_mem _ hmem) rfl
    have hne : k ≠ .AS := fun h => has (by rw [h])
    simp [optionalAlias, hne, hreserved]

theorem optionalAlias_as {name label : Ident} {t : Token} {reserved : List Keyword} {ts : List Token}
    (ht : t.ident? = some label) :
    optionalAlias reserved (.word name (some .AS) :: t :: ts) = .ok (some label, ts) := by
  simp [optionalAlias, ident, ht]

theorem each_label {qs : List RulePiece} (r : Rule .label qs) : Each Means qs (Means .label) := by
  cases r with
  | noLabel =>
    refine ⟨fun rest hrest => ⟨hrest.startsWith_period, hrest.startsWith_opening⟩, none, rfl, fun rest hrest => ?_⟩
    simp [tableAlias, hrest.no_tableAlias]
  | label =>
    refine ⟨?_, ?_⟩
    · rintro _ _ ⟨name, k, -, rfl, rfl, hk, -⟩
      refine ⟨fun _ _ => ⟨rfl, rfl⟩, some name.written, ?_, fun rest hrest => ?_⟩
      · simp [clause, Keyword.spelling, Keyword.table]
      · simp [tableAlias, optionalAlias_word hk, aliasColumns, hrest.follows.startsWith_opening]
    · rintro _ ⟨s, rfl, hs⟩ _ _ ⟨name, k, -, rfl, rfl, hk, -⟩
      refine ⟨fun _ _ => ⟨rfl, rfl⟩, some name.written, ?_, fun rest hrest => ?_⟩
      · simp [clause, Keyword.spelling, Keyword.table]
      · simp [tableAlias, optionalAlias_as (t := .word name k) rfl, aliasColumns, hrest.follows.startsWith_opening]
  | labelAs =>
    rintro _ _ ⟨⟨s, rfl, hs⟩, rfl⟩ _ _ ⟨name, k, -, rfl, rfl, hk, -⟩
    refine ⟨fun _ _ => ⟨rfl, rfl⟩, some name.written, ?_, fun rest hrest => ?_⟩
    · simp [clause, Keyword.spelling, Keyword.table]
    · simp [tableAlias, optionalAlias_as (t := .word name k) rfl, aliasColumns, hrest.follows.startsWith_opening]

/-! ## Tables -/

theorem ReadsTables.mono {n l m : Nat} {r : Reader Table} (h : ReadsTables n r m) (hl : l ≤ m) :
    ReadsTables n r l :=
  fun ts rest t hts => h ts rest t (Nat.le_trans hts hl)

theorem readsTables_table {n : Nat} (l : Nat) : ReadsTables n (table (level n)) l :=
  fun ts rest t _ hread => hread ((ts ++ rest).length + 1) (by simp only [List.length_append]; omega)

theorem readsTables_tableAtMost {n l N : Nat} (h : l < N) : ReadsTables n (tableAtMost (level n) N) l :=
  fun _ _ _ hts hread => hread N (by omega)

theorem namedTable_eq {b : Below} {name : Ident} {k : Option Keyword} {us vs rest : List Token} {x : String}
    {label : Option String} (hk : ∀ l ∈ Keyword.noTables, k ≠ some l) (hus : IsPath us x)
    (hvs : startsWith .period (vs ++ rest) = false ∧ startsWith .opening (vs ++ rest) = false)
    (hlabel : tableAlias (vs ++ rest) = .ok (label, rest)) :
    namedTable b (.word name k :: (us ++ (vs ++ rest))) = .ok (⟨name.written ++ x, label, false⟩, rest) := by
  obtain ⟨-, parts, rfl, hparts⟩ := hus
  have hpath := furtherParts_eq parts _ hvs.1
  have hno {l : Keyword} (hl : l ∈ Keyword.noTables) : k ≠ some l := hk l hl
  simp [namedTable, hno (l := .TABLE) (by decide), hno (l := .LATERAL) (by decide),
    hno (l := .JSON_TABLE) (by decide), hno (l := .OPENJSON) (by decide), path, ident, Token.ident?, hpath, hparts, hvs.2, hlabel]

theorem IsJoin.length_pos {n : Nat} {ts : List Token} {x : String} (h : IsJoin n ts x) : 0 < ts.length := by
  refine List.length_pos_iff.2 ?_
  rintro rfl
  exact nomatch (h.starts 10 [.symbol .opening] (Nat.le_refl _)).follows.startsWith_opening

/-- A join and more joins. -/
theorem AreJoins.cons {n : Nat} {us vs : List Token} {x : String} {js : List String} (hus : IsJoin n us x)
    (hvs : AreJoins n vs js) : AreJoins n (us ++ vs) (x :: js) where
  lets e rest he _ := List.append_assoc .. ▸ hus.starts e _ he
  reads r hr N hN rest hrest := by
    have hpos := hus.length_pos
    rw [List.length_append] at hr hN
    obtain ⟨N, rfl⟩ := Nat.exists_eq_add_one_of_ne_zero (n := N) (by omega)
    have hfirst := hus.reads r (hr.mono (by omega)) (vs ++ rest)
      (hvs.lets 10 rest (Nat.le_refl _) (hrest.mono (by decide)))
    have hmore := hvs.reads r (hr.mono (by omega)) N (by omega) rest hrest
    simp [joinsAtMost, hfirst, hmore]

theorem areJoins_nil (n : Nat) : AreJoins n [] [] where
  lets _ _ _ := id
  reads r _ N _ rest hrest := by
    have hno (k : Keyword) (hk : k.quiet = true) (hlate : 9 < k.grip) := hrest.follows.keyword?_ne hk (.inl hlate)
    cases N with
    | zero => rfl
    | succ N =>
      simp [joinsAtMost, join, joinWords, hno .CROSS rfl (by decide), hno .NATURAL rfl (by decide),
        hno .JOIN rfl (by decide), hno .INNER rfl (by decide), hno .LEFT rfl (by decide), hno .RIGHT rfl (by decide), hno .SEMI rfl (by decide),
        hno .ANTI rfl (by decide), hno .FULL rfl (by decide)]

theorem each_joins {n : Nat} {qs : List RulePiece} (r : Rule (.joins n) qs) : Each Means qs (IsJoins n) := by
  cases r with
  | noJoins => exact ⟨[], rfl, areJoins_nil n⟩
  | joins =>
    rintro us x hus vs _ ⟨js, rfl, hjs⟩
    rw [Each, List.append_nil, String.append_empty]
    exact ⟨x :: js, rfl, .cons hus hjs⟩

/-- A name is no query in parentheses. -/
theorem derivedTable_named {n : Nat} {us : List Token}
    (hus : ∃ name k vs, us = .word name k :: vs ∧ ∀ k' ∈ Keyword.noTables, k ≠ some k') (rest : List Token) :
    derivedTable (level (n + 1)) (us ++ rest) = .error .malformed := by
  obtain ⟨name, k, vs, rfl, hk⟩ := hus
  have hwith : k ≠ some .WITH := hk _ (by decide)
  have hvalues : k ≠ some .VALUES := hk _ (by decide)
  have hselect : k ≠ some .SELECT := hk _ (by decide)
  simp [derivedTable, Below.queryText, level, query, body, combinations, simpleBody, select, hwith, hvalues, hselect]

theorem each_table {n : Nat} {named : Bool} {qs : List RulePiece} (r : Rule (.table n named) qs) :
    Each Means qs (IsTable n named) := by
  cases r with
  | table =>
    rintro _ _ ⟨name, k, -, rfl, rfl, hk, -⟩ us x hus vs _ ⟨hends, label, rfl, hlabel⟩
    refine ⟨fun _ => ⟨name, k, _, rfl, hk⟩, ⟨name.written ++ x, label, false⟩, ?_, fun N hN rest hrest => ?_⟩
    · simp [Table.written, String.append_assoc]
    obtain ⟨N, rfl⟩ := Nat.exists_eq_add_one_of_ne_zero (Nat.ne_zero_of_lt hN)
    have hread : namedTable (level n) (.word name k :: (us ++ (vs ++ rest)))
        = .ok (⟨name.written ++ x, label, false⟩, rest) :=
      namedTable_eq hk hus (hends rest hrest.follows) (hlabel rest hrest)
    have hunnest : k ≠ some .UNNEST := hk _ (by decide)
    simp [tableAtMost, hunnest, hread]
  | tableCall =>
    rintro _ _ ⟨name, k, -, rfl, rfl, hk, -⟩ us x ⟨-, parts, rfl, hparts⟩ _ _ ⟨rfl, rfl⟩ vs _ ⟨hheads, hvs⟩
      _ _ ⟨rfl, rfl⟩
      ws _ ⟨hends, label, rfl, hlabel⟩
    obtain ⟨items, -, rfl, hitems⟩ := hvs.reads
    refine ⟨fun _ => ⟨name, k, _, rfl, hk⟩,
      ⟨name.written ++ (x ++ ("(" ++ (listed (items.map id) ++ ")"))), label, false⟩,
      ?_, fun N hN rest hrest => ?_⟩
    · simp [Table.written, String.append_assoc]
    obtain ⟨N, rfl⟩ := Nat.exists_eq_add_one_of_ne_zero (Nat.ne_zero_of_lt hN)
    have hpath := furtherParts_eq parts (.symbol .opening :: (vs ++ .symbol .closing :: (ws ++ rest))) rfl
    have hread := hitems (.symbol .closing :: (ws ++ rest)) follows_closing rfl
    have hno {l : Keyword} (hl : l ∈ Keyword.noTables) : k ≠ some l := hk l hl
    simp [tableAtMost, namedTable, hno (l := .TABLE) (by decide), hno (l := .LATERAL) (by decide),
      hno (l := .JSON_TABLE) (by decide), hno (l := .OPENJSON) (by decide), hno (l := .UNNEST) (by decide), path, ident, Token.ident?, hpath, hparts, hheads.closing, hread,
      hlabel rest hrest, String.append_assoc, -run_list]
  | tableQuery =>
    rintro _ _ ⟨rfl, rfl⟩ us _ ⟨-, q, rfl, hq⟩ _ _ ⟨rfl, rfl⟩ vs _ ⟨-, label, rfl, hlabel⟩
    refine ⟨by simp, ⟨"(" ++ (q.written ++ ")"), label, false⟩, ?_, fun N hN rest hrest => ?_⟩
    · simp [Table.written, String.append_assoc]
    obtain ⟨N, rfl⟩ := Nat.exists_eq_add_one_of_ne_zero (Nat.ne_zero_of_lt hN)
    have hread := hq (.symbol .closing :: (vs ++ rest)) follows_closing
    simp [tableAtMost, derivedTable, Below.queryText, hread, hlabel rest hrest]
  | @tableJoins n =>
    rintro _ _ ⟨rfl, rfl⟩ us _ ⟨hnamed, t, rfl, ht⟩ vs x hvs ws _ ⟨js, rfl, hws⟩ _ _ ⟨rfl, rfl⟩
      zs _ ⟨-, label, rfl, hlabel⟩
    refine ⟨by simp, ⟨"(" ++ (t.written ++ (trailing (x :: js) ++ ")")), label, true⟩, ?_, fun N hN rest hrest => ?_⟩
    · simp [Table.written, String.append_assoc]
    obtain ⟨N, rfl⟩ := Nat.exists_eq_add_one_of_ne_zero (Nat.ne_zero_of_lt hN)
    simp only [List.length_cons, List.length_append, List.length_nil] at hN
    have hend : FollowsTable 9 (.symbol .closing :: (zs ++ rest)) := followsTable_closing
    -- a name behind the parenthesis rules a query out, so the table in it is read with its joins
    have hquery := derivedTable_named (n := n) (hnamed rfl) (vs ++ (ws ++ .symbol .closing :: (zs ++ rest)))
    have htable := ht N (by omega) (vs ++ (ws ++ .symbol .closing :: (zs ++ rest))) (hvs.starts 11 _ (by decide))
    have hjoins : joins (level (n + 1)) (tableAtMost (level (n + 1)) N) (vs ++ (ws ++ .symbol .closing :: (zs ++ rest)))
        = .ok (x :: js, .symbol .closing :: (zs ++ rest)) := by
      have hbound : (vs ++ ws).length < N := by simp only [List.length_append]; omega
      have hread := (AreJoins.cons hvs hws).reads _ (readsTables_tableAtMost hbound)
        (vs ++ (ws ++ .symbol .closing :: (zs ++ rest))).length (by simp) _ hend
      simpa [joins] using hread
    simp [tableAtMost, hquery, htable, hjoins, hlabel rest hrest, String.append_assoc]

theorem each_joinCondition {n : Nat} {qs : List RulePiece} (r : Rule (.joinCondition n) qs) :
    Each Means qs (Means (.joinCondition n)) := by
  cases r with
  | noCondition =>
    refine ⟨fun _ _ _ => id, "", rfl, fun rest hrest => ?_⟩
    simp [joinCondition, hrest.follows.keyword?_ne (k := .ON) rfl (.inl (by decide)),
      hrest.follows.keyword?_ne (k := .USING) rfl (.inl (by decide))]
  | joinOn =>
    rintro _ _ ⟨⟨s, rfl, hs⟩, rfl⟩ us x hus
    refine ⟨fun e _ he _ => (followsTable_keyword (e := 11) hs rfl (by simp) _).mono he, " ON " ++ x, ?_,
      fun rest hrest => ?_⟩
    · have hon : " ON " = " " ++ ("ON" ++ " ") := rfl
      simp [hon, Keyword.spelling, Keyword.table, String.append_assoc, -String.reduceAppend]
    · simp [joinCondition, Below.anyExpr, hus.reads, hrest.follows.mono (f := soft) (by decide)]
  | joinUsing =>
    rintro _ _ ⟨⟨s, rfl, hs⟩, rfl⟩ _ _ ⟨rfl, rfl⟩ us _ hus _ _ ⟨rfl, rfl⟩
    obtain ⟨names, -, rfl, hnames⟩ := IsList.reads hus
    refine ⟨fun e _ he _ => (followsTable_keyword (e := 11) hs rfl (by simp) _).mono he,
      " USING" ++ ("(" ++ (listed (names.map Ident.written) ++ ")")), ?_, fun rest hrest => ?_⟩
    · have husing : " USING" = " " ++ "USING" := rfl
      simp [husing, Keyword.spelling, Keyword.table, String.append_assoc, -String.reduceAppend]
    · have hread := hnames (.symbol .closing :: rest) trivial rfl
      simp [joinCondition, identList, hread, -run_list]

/-- The words in front of a joined table. -/
structure AreJoinWords (ws : List Token) (w : String) : Prop where
  starts : ∀ rest, FollowsTable 10 (ws ++ rest)
  ne_cross : ∀ rest, keyword? (ws ++ rest) ≠ some .CROSS
  ne_natural : ∀ rest, keyword? (ws ++ rest) ≠ some .NATURAL
  reads : ∀ rest, joinWords (ws ++ rest) = .ok (some w, rest)

section Joins

variable {s s' z : String}

theorem areJoinWords_join (hs' : Keyword.ofCapitals? (Keyword.inCapitals s') = some .JOIN) :
    AreJoinWords [.word ⟨s', none⟩ (some .JOIN)] (Keyword.spelling .JOIN) where
  starts rest := followsTable_keyword hs' rfl nofun rest
  ne_cross _ := nofun
  ne_natural _ := nofun
  reads rest := by simp [joinWords, Keyword.spelling, Keyword.table]

theorem areJoinWords_inner (hs : Keyword.ofCapitals? (Keyword.inCapitals s) = some .INNER) :
    AreJoinWords [.word ⟨s, none⟩ (some .INNER), .word ⟨s', none⟩ (some .JOIN)] (Keyword.spelling .JOIN) where
  starts rest := followsTable_keyword hs rfl nofun _
  ne_cross _ := nofun
  ne_natural _ := nofun
  reads rest := by simp [joinWords, Keyword.spelling, Keyword.table]

theorem sideJoin_eq (side : String) {outer : List Token}
    (houter : outer = [] ∨ outer = [.word ⟨z, none⟩ (some .OUTER)]) (rest : List Token) :
    sideJoin side (outer ++ .word ⟨s', none⟩ (some .JOIN) :: rest) = .ok (side ++ " JOIN", rest) := by
  rcases houter with rfl | rfl <;> simp [sideJoin]

theorem joinWords_side {k : Keyword} (hk : k = .LEFT ∨ k = .RIGHT ∨ k = .FULL) {outer : List Token}
    (houter : outer = [] ∨ outer = [.word ⟨z, none⟩ (some .OUTER)]) (rest : List Token) :
    joinWords (.word ⟨s, none⟩ (some k) :: (outer ++ .word ⟨s', none⟩ (some .JOIN) :: rest))
      = .ok (some (k.spelling ++ (" " ++ Keyword.spelling .JOIN)), rest) := by
  rcases hk with rfl | rfl | rfl
  · simp [joinWords, sideJoin_eq "LEFT" houter rest, Keyword.spelling, Keyword.table]
  · simp [joinWords, sideJoin_eq "RIGHT" houter rest, Keyword.spelling, Keyword.table]
  · rcases houter with rfl | rfl
    · simp [joinWords, Keyword.spelling, Keyword.table]
    · simp [joinWords, Keyword.spelling, Keyword.table]

theorem areJoinWords_side {k : Keyword} (hk : k = .LEFT ∨ k = .RIGHT ∨ k = .FULL)
    (hs : Keyword.ofCapitals? (Keyword.inCapitals s) = some k) {outer : List Token}
    (houter : outer = [] ∨ outer = [.word ⟨z, none⟩ (some .OUTER)]) :
    AreJoinWords (.word ⟨s, none⟩ (some k) :: (outer ++ [.word ⟨s', none⟩ (some .JOIN)]))
      (k.spelling ++ (" " ++ Keyword.spelling .JOIN)) where
  starts rest := by
    have hends : k.ends 10 = true ∧ k ≠ .FROM := by rcases hk with rfl | rfl | rfl <;> decide
    exact followsTable_keyword hs hends.1 hends.2 _
  ne_cross _ h := by rcases hk with rfl | rfl | rfl <;> cases h
  ne_natural _ h := by rcases hk with rfl | rfl | rfl <;> cases h
  reads rest := by simpa using joinWords_side hk houter rest

variable {n : Nat} {ws us vs : List Token} {w x y : String}

theorem isJoin_words (hws : AreJoinWords ws w) (hus : IsTable n false us x) (hvs : Means (.joinCondition n) vs y) :
    IsJoin n (ws ++ (us ++ vs)) (w ++ (" " ++ (x ++ y))) := by
  obtain ⟨-, t, rfl, ht⟩ := hus
  obtain ⟨hlets, _, rfl, hvs⟩ := hvs
  refine ⟨fun e rest he => ?_, fun r hr rest hrest => ?_⟩
  · rw [List.append_assoc]
    exact (hws.starts _).mono he
  · have hrest' := hlets 11 rest (Nat.le_refl _) (hrest.mono (by decide))
    have hread := hr us (vs ++ rest) t (by simp only [List.length_append]; omega) fun N hN => ht N hN _ hrest'
    simp [join, hws.ne_cross, hws.ne_natural, hws.reads, hread, hvs rest hrest, String.append_assoc]

theorem isJoin_natural (hws : AreJoinWords ws w) (hus : IsTable n false us x)
    (hs : Keyword.ofCapitals? (Keyword.inCapitals s) = some .NATURAL) :
    IsJoin n (.word ⟨s, none⟩ (some .NATURAL) :: (ws ++ us))
      (Keyword.spelling .NATURAL ++ (" " ++ (w ++ (" " ++ x)))) := by
  obtain ⟨-, t, rfl, ht⟩ := hus
  refine ⟨fun e rest he => (followsTable_keyword (e := 10) hs rfl nofun _).mono he, fun r hr rest hrest => ?_⟩
  have hbound : us.length ≤ (Token.word ⟨s, none⟩ (some .NATURAL) :: (ws ++ us)).length := by
    simp only [List.length_cons, List.length_append]
    omega
  have hread := hr us rest t hbound fun N hN => ht N hN _ (hrest.mono (by decide))
  simp [join, hws.reads, hread, Keyword.spelling, Keyword.table]

end Joins

theorem each_join {n : Nat} {qs : List RulePiece} (r : Rule (.join n) qs) : Each Means qs (IsJoin n) := by
  cases r with
  | join =>
    refine ⟨?_, ?_⟩
    · rintro _ _ ⟨⟨s', rfl, hs'⟩, rfl⟩ us x hus vs y hvs
      simpa [Each] using isJoin_words (areJoinWords_join hs') hus hvs
    · rintro _ ⟨s, rfl, hs⟩ _ _ ⟨⟨s', rfl, -⟩, rfl⟩ us x hus vs y hvs
      simpa [Each] using isJoin_words (areJoinWords_inner hs) hus hvs
  | sideJoin hk =>
    rintro _ _ ⟨⟨s, rfl, hs⟩, rfl⟩
    refine ⟨?_, ?_⟩
    · rintro _ _ ⟨⟨s', rfl, -⟩, rfl⟩ us x hus vs y hvs
      simpa [Each, String.append_assoc] using isJoin_words (areJoinWords_side (z := "") hk hs (.inl rfl)) hus hvs
    · rintro _ ⟨s'', rfl, -⟩ _ _ ⟨⟨s', rfl, -⟩, rfl⟩ us x hus vs y hvs
      simpa [Each, String.append_assoc] using isJoin_words (areJoinWords_side hk hs (.inr rfl)) hus hvs
  | naturalJoin =>
    rintro _ _ ⟨⟨s, rfl, hs⟩, rfl⟩
    refine ⟨?_, ?_⟩
    · rintro _ _ ⟨⟨s', rfl, hs'⟩, rfl⟩ us x hus
      simpa [Each] using isJoin_natural (areJoinWords_join hs') hus hs
    · rintro _ ⟨s'', rfl, hs''⟩ _ _ ⟨⟨s', rfl, -⟩, rfl⟩ us x hus
      simpa [Each] using isJoin_natural (areJoinWords_inner hs'') hus hs
  | naturalSideJoin hk =>
    rintro _ _ ⟨⟨s, rfl, hs⟩, rfl⟩ _ _ ⟨⟨z, rfl, hz⟩, rfl⟩
    refine ⟨?_, ?_⟩
    · rintro _ _ ⟨⟨s', rfl, -⟩, rfl⟩ us x hus
      simpa [Each, String.append_assoc] using isJoin_natural (areJoinWords_side (z := "") hk hz (.inl rfl)) hus hs
    · rintro _ ⟨s'', rfl, -⟩ _ _ ⟨⟨s', rfl, -⟩, rfl⟩ us x hus
      simpa [Each, String.append_assoc] using isJoin_natural (areJoinWords_side hk hz (.inr rfl)) hus hs
  | crossJoin =>
    rintro _ _ ⟨⟨s, rfl, hs⟩, rfl⟩ _ _ ⟨⟨s', rfl, hs'⟩, rfl⟩ us _ ⟨-, t, rfl, ht⟩
    refine ⟨fun e rest he => (followsTable_keyword (e := 10) hs rfl (by simp) _).mono he, fun r hr rest hrest => ?_⟩
    have hread := hr us rest t (by simp only [List.length_cons, List.append_nil]; omega)
      fun N hN => ht N hN _ (hrest.mono (by decide))
    have hcross : "CROSS JOIN" = "CROSS" ++ (" " ++ "JOIN") := rfl
    simp [join, hread, hcross, Keyword.spelling, Keyword.table, String.append_assoc, -String.reduceAppend]

theorem source_reads {n : Nat} {us vs rest : List Token} {x : String} {js : List String} (hus : IsTable n false us x)
    (hvs : AreJoins n vs js) (hrest : FollowsTable 9 rest) :
    source (level n) (us ++ (vs ++ rest)) = .ok (⟨x, js⟩, rest) := by
  obtain ⟨-, t, rfl, ht⟩ := hus
  have htable : table (level n) (us ++ (vs ++ rest)) = .ok (t, vs ++ rest) :=
    ht _ (by simp only [List.length_append]; omega) _ (hvs.lets 11 rest (by decide) (hrest.mono (by decide)))
  have hjoins : joins (level n) (table (level n)) (vs ++ rest) = .ok (js, rest) :=
    hvs.reads _ (readsTables_table _) _ (by simp) rest hrest
  simp [source, htable, hjoins]

theorem each_source {n : Nat} {qs : List RulePiece} (r : Rule (.source n) qs) :
    Each Means qs (Means (.source n)) := by
  cases r
  rintro us x hus vs _ ⟨js, rfl, hvs⟩
  refine ⟨⟨x, js⟩, by simp [Source.written], fun rest hrest => ?_⟩
  simpa using source_reads hus hvs hrest

/-! ## Selections -/

theorem IsName.keyword_eq {name : Ident} {k : Option Keyword} (h : IsName name k) :
    k = none ∨ Token.word name k = .ofWord name.text.toList := by
  cases h with
  | word => exact .inr (by rw [Token.ofWord, String.ofList_toList])
  | quoted => exact .inl rfl

/-- A word that may be a label without `AS` in front. -/
theorem follows_label {name : Ident} {k : Option Keyword}
    (hword : k = none ∨ Token.word name k = .ofWord name.text.toList)
    (hk : ∀ l ∈ .AS :: Keyword.columnReserved ++ Keyword.binding, k ≠ some l) (ts : List Token) :
    Follows aliased (.word name k :: ts) := by
  obtain ⟨s, quote⟩ := name
  rcases hword with rfl | hword
  · cases quote <;> exact ⟨Nat.le_refl aliased, (by decide : aliased < 1000)⟩
  · rw [Token.ofWord, String.ofList_toList] at hword
    cases hword
    cases hs : Keyword.ofCapitals? (Keyword.inCapitals s) with
    | none => exact ⟨Nat.le_refl aliased, (by decide : aliased < 1000)⟩
    | some k =>
      have hrow := Keyword.of_table
        (P := fun _ k => (Keyword.AS :: Keyword.columnReserved ++ Keyword.binding).contains k || k.ends aliased)
        (by decide +kernel) hs
      rw [Bool.or_eq_true, List.contains_iff_mem] at hrow
      exact follows_keyword hs (hrow.resolve_left fun hmem => hk k hmem hs) ts

theorem selectItem_eq {n e : Nat} {us vs rest : List Token} {x : String} {label : Option Ident}
    (hus : IsExpr n 0 e .free us x) (hfollows : Follows e (vs ++ rest))
    (hlabel : optionalAlias Keyword.columnReserved (vs ++ rest) = .ok (label, rest)) :
    selectItem (level n) (us ++ (vs ++ rest)) = .ok (⟨x, label⟩, rest) := by
  have hstar := hus.fronts.starless _ hfollows.startsWith_period
  simp [selectItem, hstar, Below.anyExpr, hus.reads _ hfollows, hus.fronts.ne_from, hlabel]

/-- An item with a label, with or without `AS` in front of it. -/
theorem item_labelled {n e : Nat} {us vs : List Token} {x : String} {name : Ident}
    (hus : IsExpr n 0 e .free us x) (hfollows : ∀ rest, Follows e (vs ++ rest))
    (hlabel : ∀ rest, optionalAlias Keyword.columnReserved (vs ++ rest) = .ok (some name, rest)) :
    Means (.item n) (us ++ vs) (x ++ (" " ++ (Keyword.spelling .AS ++ (" " ++ name.written)))) := by
  refine ⟨hus.fronts.heads.append _, ⟨x, some name⟩, ?_, fun rest _ => ?_⟩
  · simp [SelectItem.written, Keyword.spelling, Keyword.table]
  · rw [List.append_assoc]
    exact selectItem_eq hus (hfollows rest) (hlabel rest)

theorem each_item {n : Nat} {qs : List RulePiece} (r : Rule (.item n) qs) : Each Means qs (Means (.item n)) := by
  cases r with
  | item =>
    intro us x hus
    rw [Each, List.append_nil, String.append_empty]
    refine ⟨hus.fronts.heads, ⟨x, none⟩, rfl, fun rest hrest => ?_⟩
    show selectItem (level n) (us ++ ([] ++ rest)) = _
    exact selectItem_eq hus (hrest.mono (by decide)) hrest.no_columnAlias
  | itemStar =>
    rintro _ _ ⟨rfl, rfl⟩
    exact ⟨⟨by simp, by simp, by simp⟩, ⟨"*", none⟩, rfl, fun rest _ => by simp [selectItem, star]⟩
  | itemTable =>
    rintro _ _ ⟨name, k, -, rfl, rfl, hk, -⟩ _ _ ⟨rfl, rfl⟩ _ _ ⟨rfl, rfl⟩
    have hmarks : ∀ k ∈ Keyword.marks, k ∈ Keyword.reserved := by decide
    refine ⟨⟨by simp, by simp, fun hmark _ => hk _ (hmarks _ hmark)⟩, ⟨name.written ++ ".*", none⟩,
      by simp [SelectItem.written], fun rest _ => ?_⟩
    simp [selectItem, star, ident, Token.ident?, starAtMost]
  | itemLabel =>
    intro us x hus
    refine ⟨?_, ?_⟩
    · rintro _ _ ⟨name, k, hname, rfl, rfl, hk, -⟩
      rw [Each, String.append_empty]
      exact item_labelled hus (follows_label hname.keyword_eq hk)
        fun rest => optionalAlias_word fun l hl => hk l (List.mem_append_left _ hl)
    · rintro _ ⟨s, rfl, hs⟩ _ _ ⟨name, k, -, rfl, rfl, -⟩
      rw [Each, String.append_empty]
      exact item_labelled hus (fun rest => follows_keyword hs rfl _) fun rest => optionalAlias_as rfl
  | itemAs =>
    rintro us x hus _ _ ⟨⟨s, rfl, hs⟩, rfl⟩ _ _ ⟨name, k, -, rfl, rfl, -⟩
    rw [Each, String.append_empty]
    exact item_labelled hus (fun rest => follows_keyword hs rfl _) fun rest => optionalAlias_as rfl

theorem each_tables {n : Nat} {qs : List RulePiece} (r : Rule (.tables n) qs) :
    Each Means qs (Means (.tables n)) := by
  cases r
  rintro _ _ ⟨⟨s, rfl, hs⟩, rfl⟩ us _ hus
  obtain ⟨vs, hne, rfl, hvs⟩ := IsList.reads hus
  refine ⟨fun f _ hf _ => (follows_keyword hs rfl _).mono hf, some vs, ?_, fun rest hrest => ?_⟩
  · simp [sourcesText, clause, hne, Keyword.spelling, Keyword.table]
  · have hread := hvs rest ((followsTable_of_le hrest (by decide)).mono (by decide))
      (hrest.startsWith_comma (by decide))
    simp [hread, -run_list]

/-- Nothing in parentheses is no expression. -/
theorem expr_ne_nothing {n l : Nat} {us rest : List Token} {x : String} :
    (level n).expr l (.symbol .opening :: .symbol .closing :: us) ≠ .ok (x, rest) := by
  intro h
  have hclosing (n : Nat) : ∃ failure, (level n).expr 0 (.symbol .closing :: us) = .error failure := by
    cases n with
    | zero => exact ⟨_, rfl⟩
    | succ n => exact ⟨.malformed, by simp [level, expression, operandAtMost, typedText_malformed (t := .symbol _) rfl]⟩
  cases n with
  | zero => cases h
  | succ n =>
    obtain ⟨failure, hfailure⟩ := hclosing n
    simp [level, expression, operandAtMost, typedText_malformed (t := .symbol _) rfl, groupOperand, startsQuery,
      Below.anyExpr, listAtMost, hfailure] at h

/-- So an expression is not taken for it. -/
theorem IsExpr.attempt_nothing {n l e : Nat} {st : Start} {ts rest : List Token} {x : String}
    (h : IsExpr n l e st ts x) (hrest : Follows e rest) :
    attempt (parens (pure ())) (ts ++ rest) = .ok (none, ts ++ rest) := by
  have hread := h.reads rest hrest
  rcases hts : ts ++ rest with _ | ⟨t, us⟩
  · rfl
  rw [hts] at hread
  by_cases ht : t = .symbol .opening
  · subst ht
    rcases us with _ | ⟨u, us⟩
    · rfl
    have hu : u ≠ .symbol .closing := by
      rintro rfl
      exact expr_ne_nothing hread
    simp [hu]
  · simp [parens, ht]

theorem each_groupItem {n : Nat} {qs : List RulePiece} (r : Rule (.groupItem n) qs) : Each Means qs (Means (.groupItem n)) := by
  cases r
  intro us x hus
  rw [Each, List.append_nil, String.append_empty]
  refine ⟨hus.fronts.heads, x, rfl, fun rest hrest => ?_⟩
  have hno {k : Keyword} (hk : k ∈ Keyword.marks) := hus.fronts.heads.keyword_ne hk rest
  simp [groupItem, hno (k := .CUBE) (by decide), hno (k := .ROLLUP) (by decide), hno (k := .GROUPING) (by decide),
    hus.attempt_nothing hrest, Below.anyExpr, hus.reads, hrest, -run_attempt]

theorem each_groups {n : Nat} {qs : List RulePiece} (r : Rule (.groups n) qs) :
    Each Means qs (Means (.groups n)) := by
  cases r with
  | noGroups =>
    refine ⟨fun _ _ _ => id, none, rfl, fun rest hrest => ?_⟩
    simp [groupClause, hrest.keyword?_ne (k := .GROUP) rfl (.inl (by decide))]
  | groups =>
    rintro _ _ ⟨⟨s, rfl, hs⟩, rfl⟩ _ _ ⟨⟨s', rfl, hs'⟩, rfl⟩ us _ ⟨hheads, hus⟩
    obtain ⟨vs, hne, rfl, hvs⟩ := hus.reads
    refine ⟨fun f _ hf _ => (follows_keyword hs rfl _).mono hf, some (listed vs), ?_, fun rest hrest => ?_⟩
    · have hby : "GROUP BY" = "GROUP" ++ (" " ++ "BY") := rfl
      simp [clause, hby, Keyword.spelling, Keyword.table, String.append_assoc, -String.reduceAppend]
    · have hread := hvs rest (hrest.mono (by decide)) (hrest.startsWith_comma (by decide))
      simp [groupClause, hheads.keyword_ne (k := .ALL) (by decide), hread, -run_list]

/-- A selection is read part by part. -/
theorem select_eq (name : Ident) {b : Below} {ts ts₁ ts₂ ts₃ ts₄ ts₅ rest : List Token} {items : List SelectItem}
    {sources : Option (List Source)} {distinct condition grouping having : Option String}
    (hdistinct : distinctClause b ts = .ok (distinct, ts₁)) (htop : keyword? ts₁ ≠ some .TOP)
    (hitems : list (selectItem b) ts₁ = .ok (items, ts₂))
    (hsources : after [.FROM] (list (source b)) ts₂ = .ok (sources, ts₃))
    (hcondition : after [.WHERE] (b.expr 0) ts₃ = .ok (condition, ts₄))
    (hgrouping : groupClause b ts₄ = .ok (grouping, ts₅))
    (hhaving : after [.HAVING] (b.expr 0) ts₅ = .ok (having, rest)) :
    select b (.word name (some .SELECT) :: ts)
      = .ok ({ distinct, top := none, items, sources := sources.getD [], condition, grouping, having }, rest) := by
  simp only [select, run_bind, run_expectWord, keyword?_word, if_true, List.tail_cons, hdistinct, topClause,
    run_acceptWord, htop, if_false, Bool.false_eq_true, run_pure, hitems, hsources, Below.anyExpr, hcondition,
    hgrouping, hhaving]

theorem distinctClause_none {b : Below} {all ts : List Token} (hall : all = [] ∨ AreKeywords all [.ALL])
    (hts : Heads ts) (rest : List Token) : distinctClause b (all ++ (ts ++ rest)) = .ok (none, ts ++ rest) := by
  have hno {k : Keyword} (hk : k ∈ Keyword.marks) := hts.keyword_ne hk rest
  rcases hall with rfl | hall
  · simp [distinctClause, hno (k := .ALL) (by decide), hno (k := .DISTINCT) (by decide)]
  · obtain _ | ⟨⟨s, rfl, -⟩, hall⟩ := hall
    cases hall
    simp [distinctClause, hno (k := .DISTINCT) (by decide)]

/-- A selection is read as one, whatever words stand between its first word and its items. -/
theorem select_means (words : List Token) {n : Nat} {us vs ws zs qs : List Token} {x y z u v s : String}
    {distinct : Option String}
    (hwords : ∀ rest, distinctClause (level n) (words ++ (us ++ rest)) = .ok (distinct, us ++ rest))
    (hus : Means (.list (.item n)) us x) (hvs : Means (.tables n) vs y) (hws : IsClause n .WHERE ws z)
    (hzs : Means (.groups n) zs u) (hqs : IsClause n .HAVING qs v) :
    Means (.select n) (.word ⟨s, none⟩ (some .SELECT) :: (words ++ (us ++ (vs ++ (ws ++ (zs ++ qs))))))
      (Keyword.spelling .SELECT ++ (trailing distinct.toList ++ (" " ++ (x ++ (y ++ (z ++ (u ++ v))))))) := by
  obtain ⟨hheads, hus⟩ := hus
  obtain ⟨items, -, rfl, hitems⟩ := hus.reads
  obtain ⟨hletsTables, sources, rfl, hsources⟩ := hvs
  obtain ⟨condition, rfl, hcondition⟩ := hws.reads
  obtain ⟨hletsGroups, grouping, rfl, hgrouping⟩ := hzs
  obtain ⟨having, rfl, hhaving⟩ := hqs.reads
  refine ⟨⟨s, _, rfl⟩, .select { distinct, top := none, items, sources := sources.getD [], condition, grouping, having },
    ?_, fun rest hrest => ?_⟩
  · simp [Body.written, Select.written, sourcesText, Keyword.spelling, Keyword.table]
  · have hend := hqs.lets rfl 5 rest (Nat.le_refl _) (hrest.mono (by decide))
    have hgroups := hletsGroups 6 _ (Nat.le_refl _) (hend.mono (by decide))
    have hwhere := hws.lets rfl 7 _ (Nat.le_refl _) (hgroups.mono (by decide))
    have htables := hletsTables 8 _ (Nat.le_refl _) (hwhere.mono (by decide))
    have hselect := select_eq ⟨s, none⟩ (hwords _) (hheads.keyword_ne (k := .TOP) (by decide) _)
      (hitems _ (htables.mono (by decide)) (htables.startsWith_comma (by decide))) (hsources _ hwhere)
      (hcondition _ ⟨hgroups.mono (by decide), hgroups.keyword?_ne rfl (.inl (by decide))⟩) (hgrouping _ hend)
      (hhaving _ ⟨hrest.mono (by decide), hrest.keyword?_ne rfl (.inl (by decide))⟩)
    simp [operandBody, simpleBody, hselect]

theorem each_select {n : Nat} {qs : List RulePiece} (r : Rule (.select n) qs) :
    Each Means qs (Means (.select n)) := by
  cases r with
  | select =>
    rintro _ _ ⟨⟨s, rfl, hs⟩, rfl⟩
    refine ⟨?_, ?_⟩
    · intro us x hus vs y hvs ws z hws zs u hzs qs v hqs
      have hselect := select_means (s := s) [] (distinctClause_none (.inl rfl) hus.1) hus hvs hws hzs hqs
      simpa [Each] using hselect
    · intro t hall us x hus vs y hvs ws z hws zs u hzs qs v hqs
      have hselect := select_means (s := s) [t] (distinctClause_none (.inr (.cons hall .nil)) hus.1) hus hvs hws hzs hqs
      simpa [Each] using hselect
  | selectDistinct =>
    rintro _ _ ⟨⟨s, rfl, hs⟩, rfl⟩ t _ ⟨⟨s', rfl, hs'⟩, rfl⟩ us x hus vs y hvs ws z hws zs u hzs qs v hqs
    have hdistinct (rest : List Token) : distinctClause (level n)
        ([.word ⟨s', none⟩ (some .DISTINCT)] ++ (us ++ rest)) = .ok (some "DISTINCT", us ++ rest) := by
      simp [distinctClause, hus.1.keyword_ne (k := .ON) (by decide)]
    have hselect := select_means (s := s) _ hdistinct hus hvs hws hzs hqs
    have hspelling : Keyword.spelling .DISTINCT = "DISTINCT" := rfl
    simpa [Each, hspelling, String.append_assoc, -String.reduceAppend] using hselect

/-! ## Queries -/

theorem startsSelect_append {us : List Token} (h : StartsSelect us) (ts : List Token) : StartsSelect (us ++ ts) := by
  obtain ⟨s, us, rfl⟩ := h
  exact ⟨s, us ++ ts, rfl⟩

theorem reads_multiplicity {ks : List Keyword} {ts : List Token} (hks : ks = [] ∨ ks = [.ALL] ∨ ks = [.DISTINCT])
    (hts : AreKeywords ts ks) :
    Yields (acceptOneOf [(.ALL, "ALL"), (.DISTINCT, "DISTINCT")]) (fun m : Option String => trailing m.toList)
      StartsSelect ts (trailing (ks.map Keyword.spelling)) := by
  rcases hks with rfl | rfl | rfl
  · cases hts
    refine ⟨none, rfl, ?_⟩
    rintro _ ⟨s, us, rfl⟩
    rfl
  · obtain _ | ⟨⟨s, rfl, -⟩, hts⟩ := hts
    cases hts
    exact ⟨some "ALL", rfl, fun rest _ => by simp⟩
  · obtain _ | ⟨⟨s, rfl, -⟩, hts⟩ := hts
    cases hts
    exact ⟨some "DISTINCT", rfl, fun rest _ => by simp⟩

theorem reads_operator {inner : Bool} {k : Keyword} {op : SetOperator} (hk : (k, op) ∈ setOperators inner) :
    k.ends (combinationLevel inner + 1) = true ∧ op.sql = k.spelling
      ∧ ∀ (s : String) (ts : List Token),
        acceptOneOf (setOperators inner) (.word ⟨s, none⟩ (some k) :: ts) = .ok (some op, ts) := by
  cases inner with
  | true =>
    obtain ⟨rfl, rfl⟩ : k = .INTERSECT ∧ op = .intersect := by simpa [setOperators] using hk
    exact ⟨by decide, by decide, fun s ts => by simp [setOperators]⟩
  | false =>
    obtain ⟨rfl, rfl⟩ | ⟨rfl, rfl⟩ : k = .UNION ∧ op = .union ∨ k = .EXCEPT ∧ op = .except := by
      simpa [setOperators] using hk
    · exact ⟨by decide, by decide, fun s ts => by simp [setOperators]⟩
    · exact ⟨by decide, by decide, fun s ts => by simp [setOperators]⟩

/-- A set operation with a body after it, in front of more of them. -/
theorem isCombinations_cons {n : Nat} {inner : Bool} {k : Keyword} {ks : List Keyword} {op : SetOperator}
    {ts us vs : List Token} {x y : String} (hk : (k, op) ∈ setOperators inner)
    (hks : ks = [] ∨ ks = [.ALL] ∨ ks = [.DISTINCT]) (hts : AreKeywords ts (k :: ks)) (hstarts : StartsSelect us)
    (hus : Yields (operandBody (level n) inner) Body.written (Follows (combinationLevel inner + 1)) us x)
    (hvs : IsCombinations n inner vs y) :
    IsCombinations n inner (ts ++ (us ++ vs)) (trailing ((k :: ks).map Keyword.spelling) ++ (" " ++ (x ++ y))) := by
  obtain _ | ⟨⟨s, rfl, hs⟩, hts⟩ := hts
  obtain ⟨right, rfl, hright⟩ := hus
  obtain ⟨multiplicity, hmultiplicity, hreadMultiplicity⟩ := reads_multiplicity hks hts
  obtain ⟨hends, hsql, hop⟩ := reads_operator hk
  refine ⟨fun f rest hf _ => (follows_keyword hs hends _).mono hf, fun left => ?_⟩
  obtain ⟨b, hb, hmore⟩ := hvs.reads (.combine op multiplicity left right)
  refine ⟨b, ?_, fun N hN rest hrest => ?_⟩
  · simp [hb, Body.written, ← hmultiplicity, hsql, String.append_assoc]
  · simp only [List.length_append, List.length_cons] at hN
    obtain ⟨N, rfl⟩ := Nat.exists_eq_add_one_of_ne_zero (n := N) (by omega)
    have hfollows := hvs.lets _ rest (Nat.le_refl _) (hrest.mono (Nat.le_succ _))
    have hfirst := hreadMultiplicity _ (startsSelect_append hstarts (vs ++ rest))
    simp [combinationsAtMost, hop, hfirst, hright _ hfollows, hmore N (by omega) rest hrest]

theorem combinationsAtMost_stop (inner : Bool) {n : Nat} {rest : List Token}
    (hrest : Follows (combinationLevel inner) rest) (N : Nat) (left : Body) :
    combinationsAtMost (setOperators inner) (operandBody (level n) inner) N left rest = .ok (left, rest) := by
  cases N with
  | zero => rfl
  | succ N =>
    have hno (k : Keyword) (hk : k.quiet = true) (hlate : combinationLevel inner < k.grip) :=
      hrest.keyword?_ne hk (.inl hlate)
    cases inner with
    | true => simp [combinationsAtMost, setOperators, hno .INTERSECT rfl (by decide)]
    | false => simp [combinationsAtMost, setOperators, hno .UNION rfl (by decide), hno .EXCEPT rfl (by decide)]

theorem each_combinations {n : Nat} {inner : Bool} {qs : List RulePiece} (r : Rule (.combinations n inner) qs) :
    Each Means qs (IsCombinations n inner) := by
  cases r with
  | noCombination =>
    exact ⟨fun _ _ _ => id, fun left => ⟨left, by rw [String.append_empty],
      fun N _ rest hrest => combinationsAtMost_stop inner hrest N left⟩⟩
  | intersection hks =>
    refine each_keys fun ts hts us x hbody vs y hvs => ?_
    obtain ⟨hstarts, hus⟩ := hbody
    rw [Each, List.append_nil, String.append_empty]
    exact isCombinations_cons List.mem_cons_self hks hts hstarts hus hvs
  | combination hk hks =>
    refine each_keys fun ts hts us x hbody vs y hvs => ?_
    obtain ⟨hstarts, hus⟩ := hbody
    rw [Each, List.append_nil, String.append_empty]
    rcases hk with rfl | rfl
    · exact isCombinations_cons List.mem_cons_self hks hts hstarts hus hvs
    · exact isCombinations_cons (List.mem_cons_of_mem _ List.mem_cons_self) hks hts hstarts hus hvs

/-- A body with the set operations after it. -/
theorem combinations_reads (inner : Bool) {n : Nat} {us vs : List Token} {x y : String}
    (hus : Yields (operandBody (level n) inner) Body.written (Follows (combinationLevel inner + 1)) us x)
    (hvs : IsCombinations n inner vs y) :
    Yields (combinations (setOperators inner) (operandBody (level n) inner)) Body.written
      (Follows (combinationLevel inner)) (us ++ vs) (x ++ y) := by
  obtain ⟨left, rfl, hleft⟩ := hus
  obtain ⟨b, hb, hread⟩ := hvs.reads left
  refine ⟨b, hb, fun rest hrest => ?_⟩
  have hfirst := hleft (vs ++ rest) (hvs.lets _ rest (Nat.le_refl _) (hrest.mono (Nat.le_succ _)))
  have hmore := hread (us ++ (vs ++ rest)).length (by simp only [List.length_append]; omega) rest hrest
  rw [List.append_assoc]
  simp only [combinations, run_bind, run_get, hfirst, hmore]

theorem each_intersections {n : Nat} {qs : List RulePiece} (r : Rule (.intersections n) qs) :
    Each Means qs (Means (.intersections n)) := by
  cases r
  rintro us x ⟨⟨s, us, rfl⟩, hus⟩ vs y hvs
  rw [Each, List.append_nil, String.append_empty]
  exact ⟨⟨s, us ++ vs, rfl⟩, combinations_reads true hus hvs⟩

theorem each_body {n : Nat} {qs : List RulePiece} (r : Rule (.body n) qs) : Each Means qs (Means (.body n)) := by
  cases r
  rintro us x ⟨⟨s, us, rfl⟩, hus⟩ vs y hvs
  rw [Each, List.append_nil, String.append_empty]
  exact ⟨⟨s, us ++ vs, rfl⟩, combinations_reads false hus hvs⟩

theorem each_pages {n : Nat} {qs : List RulePiece} (r : Rule (.pages n) qs) : Each Means qs (Means (.pages n)) := by
  cases r with
  | noPages =>
    refine ⟨fun _ _ _ => id, ⟨none, none⟩, rfl, fun rest hrest => ?_⟩
    have hlimit := hrest.keyword?_ne (k := .LIMIT) rfl (.inl (by decide))
    have hoffset := hrest.keyword?_ne (k := .OFFSET) rfl (.inl (by decide))
    simp [pages, pageStep, unlessKnown, limitClause, offsetClause, secondLimit, hlimit, hoffset]
  | limit =>
    rintro _ _ ⟨⟨s, rfl, hs⟩, rfl⟩ us x hus
    refine ⟨fun f _ hf _ => (follows_keyword hs rfl _).mono hf, ⟨some x, none⟩,
      by simp [Page.parts, clause, Keyword.spelling, Keyword.table], fun rest hrest => ?_⟩
    have hall := hus.fronts.heads.keyword_ne (k := .ALL) (by decide)
    have hoffset := hrest.keyword?_ne (k := .OFFSET) rfl (.inl (by decide))
    simp [pages, pageStep, unlessKnown, limitClause, offsetClause, secondLimit, hall, Below.anyExpr,
      hus.reads _ (hrest.mono (Nat.zero_le soft)), hoffset, hrest.startsWith_comma]
  | offset =>
    rintro _ _ ⟨⟨s, rfl, hs⟩, rfl⟩ us x hus
    refine ⟨fun f _ hf _ => (follows_keyword hs rfl _).mono hf, ⟨none, some x⟩,
      by simp [Page.parts, clause, Keyword.spelling, Keyword.table], fun rest hrest => ?_⟩
    have hlimit := hrest.keyword?_ne (k := .LIMIT) rfl (.inl (by decide))
    have hrow := hrest.keyword?_ne (k := .ROW) rfl (.inr (by decide))
    have hrows := hrest.keyword?_ne (k := .ROWS) rfl (.inr (by decide))
    simp [pages, pageStep, unlessKnown, limitClause, offsetClause, secondLimit, Below.anyExpr,
      hus.reads _ (hrest.mono (Nat.zero_le soft)), hlimit, hrow, hrows]
  | limitOffset =>
    rintro _ _ ⟨⟨s, rfl, hs⟩, rfl⟩ us x hus _ _ ⟨⟨s', rfl, hs'⟩, rfl⟩ vs y hvs
    refine ⟨fun f _ hf _ => (follows_keyword hs rfl _).mono hf, ⟨some x, some y⟩,
      by simp [Page.parts, clause, Keyword.spelling, Keyword.table], fun rest hrest => ?_⟩
    have hall := hus.fronts.heads.keyword_ne (k := .ALL) (by decide)
    have hrow := hrest.keyword?_ne (k := .ROW) rfl (.inr (by decide))
    have hrows := hrest.keyword?_ne (k := .ROWS) rfl (.inr (by decide))
    simp [pages, pageStep, unlessKnown, limitClause, offsetClause, secondLimit, hall, Below.anyExpr,
      hus.reads _ (follows_keyword (e := soft) hs' rfl _), hvs.reads _ (hrest.mono (Nat.zero_le soft)), hrow, hrows]

theorem query_eq (b : Below) : query b = do
    let tables ← after [.WITH] (commonTables b)
    let rows ← body b
    let order ← orderTerms b
    let page ← pages b
    return { tables, body := rows, order, pages := page.parts } := by
  simp only [query, pages, Page.parts, bind_assoc]

theorem each_query {n : Nat} {qs : List RulePiece} (r : Rule (.query n) qs) : Each Means qs (Means (.query n)) := by
  cases r
  rintro us _ ⟨⟨s, us, rfl⟩, rows, rfl, hrows⟩ vs _ ⟨hlets, terms, rfl, hterms⟩ ws _ ⟨hlets', page, rfl, hpages⟩
  refine ⟨⟨s, _, rfl⟩, { tables := none, body := rows, order := terms, pages := page.parts }, ?_, fun rest hrest => ?_⟩
  · simp [Query.written, orderText]
  · have hends := hlets' 1 rest (Nat.le_refl _) (hrest.mono (Nat.zero_le _))
    have hbody := hrows _ (hlets 2 _ (Nat.le_refl _) (hends.mono (by decide)))
    rw [List.cons_append] at hbody
    simp [level, query_eq, hbody, hterms _ hends, hpages rest hrest]

/-! ## The whole grammar -/

theorem means_of_rule {k : Kind} {qs : List RulePiece} (r : Rule k qs) : Each Means qs (Means k) := by
  cases k with
  | expr n l e s => exact each_expr r
  | operand n e s => exact each_operand r
  | operations n l m e => exact each_operations r
  | path => exact each_path r
  | name => exact each_name r
  | dataType => exact each_dataType r
  | list k => exact each_list r
  | argument n => exact each_argument r
  | window n => exact each_window r
  | partition n => exact each_partition r
  | clause n k => exact each_clause r
  | branches n => exact each_branches r
  | orderTerm n => exact each_orderTerm r
  | order n => exact each_order r
  | query n => exact each_query r
  | body n => exact each_body r
  | intersections n => exact each_intersections r
  | combinations n inner => exact each_combinations r
  | select n => exact each_select r
  | item n => exact each_item r
  | tables n => exact each_tables r
  | groups n => exact each_groups r
  | groupItem n => exact each_groupItem r
  | pages n => exact each_pages r
  | source n => exact each_source r
  | joins n => exact each_joins r
  | join n => exact each_join r
  | joinCondition n => exact each_joinCondition r
  | table n named => exact each_table r
  | label => exact each_label r

/-- **What the rules make up is read as they say.** -/
theorem Derives.means {k : Kind} {ts : List Token} {x : String} (h : Derives [.sub k] ts x) : Means k ts x := by
  refine h.each means_of_rule fun us y hus => ?_
  rwa [Each, List.append_nil, String.append_empty]

end QueryTemplate.Sql
