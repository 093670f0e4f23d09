import QueryTemplate.Proofs.Sql.Texts.Expression

/-!
# Queries and statements invent no placeholders

The rules of the grammar from tables to statements. `keepsClean_level` discharges the assumption about
what nests, by induction on the level, and `clean_of_statementsOf` says of a whole text that its statements
hold no question mark that its tokens do not hold.
-/

namespace QueryTemplate.Sql

open Reader

/-! ## Queries -/

theorem clean_operators (operators : List (Keyword × SetOperator)) : Clean operators :=
  clean_list.2 fun _ _ => nofun

theorem keepsClean_aliasColumns : KeepsClean aliasColumns := by
  have hcolumn : KeepsClean aliasColumn :=
    keepsClean_ident.bind fun name hname => keepsClean_dataType.attempt.bind fun type htype =>
      .pure (by simp_all [hname.written])
  exact keepsClean_get.bind fun _ _ =>
    .ite (hcolumn.list.parens.bind fun columns hcolumns => .pure (by simp_all)) (.pure clean_nil)

theorem keepsClean_tableAlias : KeepsClean tableAlias := by
  refine (keepsClean_optionalAlias _).bind fun name hname => ?_
  cases name with
  | none => exact .pure clean_none
  | some name =>
    exact keepsClean_aliasColumns.bind fun columns hcolumns =>
      .pure (by simp_all [(clean_some.1 hname).written])

section

variable {b : Below} (hb : b.KeepsClean)
include hb

theorem keepsClean_derivedTable : KeepsClean (derivedTable b) :=
  hb.queryText.bind fun q hq => (keepsClean_expect .closing).bind fun _ _ =>
    keepsClean_tableAlias.bind fun label hlabel => .pure (clean_table.2 ⟨by simp_all, hlabel⟩)

theorem keepsClean_namedTable : KeepsClean (namedTable b) := by
  refine keepsClean_get.bind fun _ _ => .when keepsClean_fail (.when keepsClean_fail ?_)
  refine keepsClean_path.bind fun name hname => ?_
  have hname := hname.writtenPath
  have hlast (called : String) (hcalled : Clean called) :
      KeepsClean do return (⟨writtenPath name ++ called, ← tableAlias, false⟩ : Table) :=
    keepsClean_tableAlias.bind fun label hlabel => .pure (clean_table.2 ⟨by simp_all, hlabel⟩)
  refine (keepsClean_accept .opening).bind fun _ _ =>
    .ite ?_ (Ensures.bind (.pure (by decide)) hlast)
  refine (keepsClean_accept .closing).bind fun _ _ =>
    .ite (Ensures.bind (.pure (by decide)) hlast) ?_
  exact (keepsClean_argument hb).list.bind fun items hitems =>
    (keepsClean_expect .closing).bind fun _ _ => Ensures.bind (.pure (by simp_all)) hlast

theorem keepsClean_nestedTable : KeepsClean (nestedTable b) :=
  hb.anyExpr.list.parens.bind fun arrays harrays => keepsClean_tableAlias.bind fun label hlabel =>
    .pure (clean_table.2 ⟨by simp_all +decide, hlabel⟩)

/-! ### Joins -/

theorem keepsClean_joinCondition : KeepsClean (joinCondition b) := by
  refine (keepsClean_acceptWord .ON).bind fun _ _ =>
    .ite (hb.anyExpr.bind fun e he => .pure (by simp_all +decide)) ?_
  refine (keepsClean_acceptWord .USING).bind fun _ _ => .ite ?_ (.pure (by decide))
  refine keepsClean_identList.bind fun names hnames => .pure ?_
  have hwritten : Clean (names.map Ident.written) :=
    hnames.map fun _ h => clean_string.2 h.written
  simp +decide [hwritten]

omit hb in
theorem keepsClean_sideJoin {side : String} (hside : Plain side) : KeepsClean (sideJoin side) := by
  have hwritten (words : String) (h : Plain words) : KeepsClean (pure (side ++ words)) :=
    .pure (by simp_all)
  refine (keepsClean_acceptWord .JOIN).bind fun _ _ => .ite (hwritten _ (by decide)) ?_
  refine (keepsClean_acceptWords _).bind fun _ _ => .ite (hwritten _ (by decide)) ?_
  refine (keepsClean_acceptWords _).bind fun _ _ => .ite (hwritten _ (by decide)) ?_
  exact (keepsClean_acceptWords _).bind fun _ _ => .ite (hwritten _ (by decide)) keepsClean_fail

omit hb in
theorem keepsClean_joinWords : KeepsClean joinWords := by
  have hjoin (words : Option String) (h : Clean words) :
      KeepsClean (do expectWord .JOIN; return words) :=
    (keepsClean_expectWord .JOIN).bind fun _ _ => .pure h
  have hside (side : String) (h : Plain side) : KeepsClean (some <$> sideJoin side) :=
    (keepsClean_sideJoin h).map fun _ => clean_some.2
  refine (keepsClean_acceptWord .JOIN).bind fun _ _ => .ite (.pure (by decide)) ?_
  refine (keepsClean_acceptWord .INNER).bind fun _ _ => .ite (hjoin _ (by decide)) ?_
  refine (keepsClean_acceptWord .LEFT).bind fun _ _ => .ite (hside _ (by decide)) ?_
  refine (keepsClean_acceptWord .RIGHT).bind fun _ _ => .ite (hside _ (by decide)) ?_
  refine (keepsClean_acceptWord .SEMI).bind fun _ _ => .ite (hjoin _ (by decide)) ?_
  refine (keepsClean_acceptWord .ANTI).bind fun _ _ => .ite (hjoin _ (by decide)) ?_
  exact (keepsClean_acceptWord .FULL).bind fun _ _ =>
    .ite ((keepsClean_acceptWord .OUTER).bind fun _ _ => hjoin _ (by decide)) (.pure clean_none)

theorem keepsClean_join {table : Reader Table} (htable : KeepsClean table) :
    KeepsClean (join b table) := by
  refine (keepsClean_acceptWord .CROSS).bind fun _ _ => .ite ?_ ?_
  · exact (keepsClean_expectWord .JOIN).bind fun _ _ => htable.bind fun t ht =>
      .pure (by simp +decide [ht.tableWritten])
  · refine (keepsClean_acceptWord .NATURAL).bind fun natural _ =>
      keepsClean_joinWords.bind fun words hwords => ?_
    cases words with
    | none => exact .ite keepsClean_fail (.pure clean_none)
    | some words =>
      have hwords : Plain words := clean_string.1 (clean_some.1 hwords)
      exact htable.bind fun t ht => .ite (.pure (by simp +decide [hwords, ht.tableWritten]))
        ((keepsClean_joinCondition hb).bind fun condition hcondition =>
          .pure (by simp_all [ht.tableWritten]))

theorem keepsClean_joinsAtMost {table : Reader Table} (htable : KeepsClean table) (n : Nat) :
    KeepsClean (joinsAtMost b table n) := by
  induction n with
  | zero => exact .pure clean_nil
  | succ n ih =>
    refine (keepsClean_join hb htable).bind fun j hj => ?_
    cases j with
    | none => exact .pure clean_nil
    | some j => exact ih.bind fun js hjs => .pure (clean_cons.2 ⟨clean_some.1 hj, hjs⟩)

theorem keepsClean_joins {table : Reader Table} (htable : KeepsClean table) :
    KeepsClean (joins b table) :=
  keepsClean_get.bind fun _ _ => keepsClean_joinsAtMost hb htable _

omit hb in
theorem keepsClean_outerAlias {t : Table} (ht : Clean t) : KeepsClean (outerAlias t) := by
  refine keepsClean_tableAlias.bind fun label hlabel => ?_
  split
  · exact .pure ht
  · exact .pure (clean_table.2 ⟨(clean_table.1 ht).1, hlabel⟩)
  · exact keepsClean_fail

theorem keepsClean_tableAtMost (n : Nat) : KeepsClean (tableAtMost b n) := by
  induction n with
  | zero => exact keepsClean_fail
  | succ n ih =>
    -- in parentheses stands a query or, where none can be read, a table with joins
    refine (keepsClean_accept .opening).bind fun _ _ => .ite ?_ <|
      (keepsClean_acceptWord .UNNEST).bind fun _ _ => .ite (keepsClean_nestedTable hb) (keepsClean_namedTable hb)
    refine (keepsClean_derivedTable hb).attempt.bind fun t ht => ?_
    cases t with
    | some t => exact .pure (clean_some.1 ht)
    | none =>
      refine ih.bind fun t ht => (keepsClean_joins hb ih).bind fun js hjs =>
        (keepsClean_expect .closing).bind fun _ _ => .ite ?_ (keepsClean_outerAlias ht)
      exact keepsClean_tableAlias.bind fun label hlabel =>
        .pure (clean_table.2 ⟨by simp_all [ht.tableWritten], hlabel⟩)

theorem keepsClean_table : KeepsClean (table b) :=
  keepsClean_get.bind fun _ _ => keepsClean_tableAtMost hb _

theorem keepsClean_source : KeepsClean (source b) :=
  (keepsClean_table hb).bind fun _ ht => (keepsClean_joins hb (keepsClean_table hb)).bind fun _ hjs =>
    .pure (clean_source.2 ⟨ht.tableWritten, clean_strings.1 hjs⟩)

/-! ### Selections -/

theorem keepsClean_selectItem : KeepsClean (selectItem b) := by
  refine keepsClean_star.attempt.bind fun x hx => ?_
  cases x with
  | some s => exact .pure (clean_item.2 ⟨clean_string.1 (clean_some.1 hx), clean_none⟩)
  | none =>
    exact hb.anyExpr.bind fun e he => .when keepsClean_fail <|
      (keepsClean_optionalAlias _).bind fun label hlabel =>
        .pure (clean_item.2 ⟨clean_string.1 he, hlabel⟩)

theorem keepsClean_distinctClause : KeepsClean (distinctClause b) := by
  refine (keepsClean_acceptWord .ALL).bind fun all _ => (keepsClean_acceptWord .DISTINCT).bind fun _ _ =>
    .ite (.when keepsClean_fail ?_) (.pure clean_none)
  refine (keepsClean_acceptWord .ON).bind fun _ _ => .ite ?_ (.pure (by decide))
  refine Ensures.bind (KeepsClean.parens ?_) fun keys hkeys => .pure (by simp_all +decide)
  exact keepsClean_get.bind fun _ _ => .ite (.pure clean_nil) hb.anyExpr.list

theorem keepsClean_topClause : KeepsClean (topClause b) := by
  refine (keepsClean_acceptWord .TOP).bind fun _ _ => .ite ?_ (.pure clean_none)
  have hexpr : KeepsClean (parenthesized <$> parens b.anyExpr) :=
    hb.anyExpr.parens.map fun _ h => clean_string.2 (plain_parenthesized.2 (clean_string.1 h))
  refine keepsClean_get.bind fun _ _ => .branch hexpr keepsClean_count fun quantity hquantity => ?_
  refine (keepsClean_acceptWord .PERCENT).bind fun percent _ =>
    (keepsClean_acceptWords _).bind fun ties _ => .pure ?_
  cases percent <;> cases ties <;> simp_all +decide

theorem keepsClean_groupKeys : KeepsClean (groupKeys b) := by
  refine (keepsClean_accept .opening).bind fun _ _ => .ite ?_ hb.anyExpr
  refine (keepsClean_accept .closing).bind fun _ _ => .ite (.pure (by decide)) ?_
  exact hb.anyExpr.list.bind fun keys hkeys => (keepsClean_expect .closing).bind fun _ _ =>
    .pure (.ite (by simp_all) (by simp_all))

theorem keepsClean_groupItem : KeepsClean (groupItem b) := by
  have hsets {word : String} (hword : Plain word) :
      KeepsClean do return spaced [word, parenthesized (listed (← parens (list (groupKeys b))))] :=
    (keepsClean_groupKeys hb).list.parens.bind fun sets hsets => .pure (by simp_all)
  refine (keepsClean_acceptWord .CUBE).bind fun _ _ => .ite (hsets (by decide)) ?_
  refine (keepsClean_acceptWord .ROLLUP).bind fun _ _ => .ite (hsets (by decide)) ?_
  refine (keepsClean_acceptWords _).bind fun _ _ => .ite keepsClean_fail ?_
  have hnothing : KeepsClean (parens (pure ())) := KeepsClean.parens (.pure nofun)
  exact hnothing.attempt.bind fun _ _ => .ite (.pure (by decide)) hb.anyExpr

theorem keepsClean_groupClause : KeepsClean (groupClause b) :=
  .after ((keepsClean_acceptWord .ALL).bind fun _ _ => .ite (.pure (by decide))
    ((keepsClean_groupItem hb).list.map fun _ h => clean_string.2 (plain_listed.2 h))) _

theorem keepsClean_select : KeepsClean (select b) := by
  refine (keepsClean_expectWord .SELECT).bind fun _ _ =>
    (keepsClean_distinctClause hb).bind fun distinct hdistinct =>
    (keepsClean_topClause hb).bind fun top htop =>
    (keepsClean_selectItem hb).list.bind fun items hitems =>
    ((keepsClean_source hb).list.after _).bind fun sources hsources =>
    (hb.anyExpr.after _).bind fun condition hcondition =>
    (keepsClean_groupClause hb).bind fun grouping hgrouping =>
    (hb.anyExpr.after _).bind fun having hhaving => .pure ?_
  have hsources : Clean (sources.getD []) := by
    cases sources with
    | none => exact clean_nil
    | some sources => exact clean_some.1 hsources
  exact clean_select.2
    ⟨hdistinct, htop, hitems, hsources, hcondition, hgrouping, hhaving⟩

/-! ### Whole queries -/

theorem keepsClean_valuesForm : KeepsClean (valuesForm b) := by
  have hrow : KeepsClean (valuesRow b) :=
    (keepsClean_acceptWord .ROW).bind fun called _ => hb.anyExpr.list.parens.bind fun row hrow =>
      .pure (by simp_all +decide)
  refine hrow.list.bind fun rows hrows => .pure ?_
  have hcalled : Plain (if rows.any (·.1) then "ROW" else "") := by split <;> decide
  have hwritten : Clean (rows.map fun r => (if rows.any (·.1) then "ROW" else "") ++ r.2) :=
    hrows.map fun r hr => by simpa [hcalled] using (clean_pair.1 hr).2
  simp only [clean_string, plain_spaced, clean_cons, plain_listed, hwritten, clean_nil, and_true]
  decide

theorem keepsClean_simpleBody : KeepsClean (simpleBody b) := by
  refine (keepsClean_accept .opening).bind fun _ _ => .ite ?_ ?_
  · exact hb.queryText.bind fun q hq => (keepsClean_expect .closing).bind fun _ _ => .pure hq
  · exact (keepsClean_acceptWord .VALUES).bind fun _ _ =>
      .ite ((keepsClean_valuesForm hb).map fun _ => id) ((keepsClean_select hb).map fun _ => id)

omit hb in
theorem keepsClean_combinations (operators : List (Keyword × SetOperator)) {one : Reader Body}
    (hone : KeepsClean one) : KeepsClean (combinations operators one) := by
  have hmore (n : Nat) : ∀ left : Body, Clean left →
      KeepsClean (combinationsAtMost operators one n left) := by
    induction n with
    | zero => exact fun left hleft => .pure hleft
    | succ n ih =>
      intro left hleft
      refine (keepsClean_acceptOneOf (clean_operators operators)).bind fun op _ => ?_
      cases op with
      | none => exact .pure hleft
      | some op =>
        exact (keepsClean_acceptOneOf (by decide)).bind fun multiplicity hmultiplicity =>
          hone.bind fun right hright => ih _ (clean_combine.2 ⟨hmultiplicity, hleft, hright⟩)
  exact keepsClean_get.bind fun _ _ => hone.bind fun first hfirst => hmore _ first hfirst

theorem keepsClean_body : KeepsClean (body b) :=
  keepsClean_combinations _ (keepsClean_combinations _ (keepsClean_simpleBody hb))

theorem keepsClean_limitClause : KeepsClean (limitClause b) :=
  (keepsClean_acceptWord .LIMIT).bind fun _ _ =>
    .ite ((keepsClean_acceptWord .ALL).bind fun _ _ =>
      .ite (.pure clean_none) (hb.anyExpr.map fun _ => clean_some.2)) (.pure clean_none)

theorem keepsClean_offsetClause : KeepsClean (offsetClause b) := by
  refine (keepsClean_acceptWord .OFFSET).bind fun _ _ => .ite ?_ (.pure clean_none)
  exact hb.anyExpr.bind fun e he => (keepsClean_acceptOneOf (by decide)).bind fun unit hunit =>
    .pure (by simp_all)

omit hb in
theorem keepsClean_unlessKnown {known : Option String} {r : Reader (Option String)} (hknown : Clean known)
    (hr : KeepsClean r) : KeepsClean (unlessKnown known r) :=
  .ite (.pure hknown) hr

theorem keepsClean_secondLimit {p : Page} (hp : Clean p) : KeepsClean (secondLimit b p) := by
  unfold secondLimit
  split
  · obtain ⟨hfirst, -⟩ := clean_page.1 hp
    exact (keepsClean_accept .comma).bind fun _ _ =>
      .ite (hb.anyExpr.bind fun e he => .pure (clean_page.2 ⟨clean_some.2 he, hfirst⟩)) (.pure hp)
  · exact .pure hp

theorem keepsClean_pageStep {p : Page} (hp : Clean p) : KeepsClean (pageStep b p) := by
  obtain ⟨hlimit, hoffset⟩ := clean_page.1 hp
  refine (keepsClean_unlessKnown hlimit (keepsClean_limitClause hb)).bind fun limit hlimit => ?_
  refine (keepsClean_unlessKnown hoffset (keepsClean_offsetClause hb)).bind fun offset hoffset => ?_
  exact keepsClean_secondLimit hb (clean_page.2 ⟨hlimit, hoffset⟩)

theorem keepsClean_commonTables : KeepsClean (commonTables b) := by
  have htable : KeepsClean (commonTable b) :=
    keepsClean_ident.bind fun name hname => keepsClean_aliasColumns.bind fun columns hcolumns =>
      (keepsClean_expectWord .AS).bind fun _ _ => hb.queryText.parens.bind fun q hq =>
        .pure (by simp_all +decide [hname.written])
  refine (keepsClean_acceptWord .RECURSIVE).bind fun recursive _ =>
    htable.list.bind fun tables htables => .pure ?_
  cases recursive <;> simp_all +decide

theorem keepsClean_query : KeepsClean (query b) := by
  refine ((keepsClean_commonTables hb).after _).bind fun tables htables =>
    (keepsClean_body hb).bind fun rows hrows => (keepsClean_orderTerms hb).bind fun order horder =>
    (keepsClean_pageStep hb (by decide)).bind fun half hhalf =>
    (keepsClean_pageStep hb hhalf).bind fun page hpage => .pure ?_
  obtain ⟨hlimit, hoffset⟩ := clean_page.1 hpage
  refine clean_query.2 ⟨htables, hrows, clean_strings.1 horder, clean_strings.1 ?_⟩
  simp +decide [hlimit, hoffset]

end

/-! ## Nesting -/

theorem keepsClean_level (n : Nat) : (level n).KeepsClean := by
  induction n with
  | zero => exact ⟨fun _ => Ensures.throw _, Ensures.throw _⟩
  | succ n ih => exact ⟨keepsClean_expression ih, keepsClean_query ih⟩

/-! ## Statements -/

theorem keepsClean_pathText : KeepsClean pathText :=
  keepsClean_path.map fun _ h => clean_string.2 h.writtenPath

section

variable {b : Below} (hb : b.KeepsClean)
include hb

theorem keepsClean_changeCondition : KeepsClean (changeCondition b) :=
  (hb.anyExpr.after _).bind fun condition hcondition => .pure (by simpa +decide using hcondition)

theorem keepsClean_insertForm : KeepsClean (insertForm b) := by
  refine (keepsClean_acceptOneOf (by decide)).bind fun place hplace =>
    (keepsClean_acceptWord .TABLE).bind fun word _ => keepsClean_pathText.bind fun target htarget =>
    keepsClean_get.bind fun _ _ => ?_
  have hword : Clean (if word then ["TABLE"] else []) := .ite (by decide) clean_nil
  have hrest (columns : List String) (hcolumns : Clean columns) : KeepsClean do
      let rows ← b.queryText
      return spaced (["INSERT"] ++ place.toList ++ (if word then ["TABLE"] else []) ++ [target]
        ++ columns ++ [rows]) :=
    hb.queryText.bind fun rows hrows => .pure (by simp_all +decide)
  refine .ite ?_ (Ensures.bind (.pure clean_nil) hrest)
  refine keepsClean_identList.bind fun names hnames => Ensures.bind (.pure ?_) hrest
  have hwritten : Clean (names.map Ident.written) := hnames.map fun _ h => clean_string.2 h.written
  simpa using hwritten

theorem keepsClean_updateForm : KeepsClean (updateForm b) := by
  have hassignment : KeepsClean (assignment b) :=
    keepsClean_pathText.bind fun target htarget => (keepsClean_expect .eq).bind fun _ _ =>
      hb.anyExpr.bind fun e he => .pure (by simp_all +decide)
  refine (keepsClean_source hb).bind fun target htarget => (keepsClean_expectWord .SET).bind fun _ _ =>
    hassignment.list.bind fun assignments hassignments =>
    ((keepsClean_source hb).after _).bind fun sources hsources =>
    (keepsClean_changeCondition hb).bind fun condition hcondition => .pure ?_
  have hfrom : Clean (sources.map Source.written) := by
    cases sources with
    | none => exact clean_none
    | some s => exact clean_some.2 (clean_string.2 (clean_some.1 hsources).sourceWritten)
  simp_all +decide [htarget.sourceWritten]

theorem keepsClean_deleteForm : KeepsClean (deleteForm b) := by
  have hwritten {sources : List Source} (h : Clean sources) : Clean (sources.map Source.written) :=
    h.map fun _ h => clean_string.2 h.sourceWritten
  refine (keepsClean_acceptWord .FROM).bind fun preposition _ =>
    (keepsClean_source hb).list.bind fun sources hsources =>
    ((keepsClean_source hb).list.after _).bind fun others hothers =>
    (keepsClean_changeCondition hb).bind fun condition hcondition => .pure ?_
  have hpreposition : Clean (if preposition then ["FROM"] else []) := .ite (by decide) clean_nil
  have husing : Clean (others.map fun s => listed (s.map Source.written)) := by
    cases others with
    | none => exact clean_none
    | some s => simpa using hwritten (clean_some.1 hothers)
  simp_all +decide [hwritten hsources]

omit hb in
theorem keepsClean_dropForm : KeepsClean dropForm := by
  refine (keepsClean_acceptWords _).bind fun condition _ => keepsClean_pathText.list.bind fun tables
    htables => (keepsClean_acceptOneOf (by decide)).bind fun behaviour hbehaviour => .pure ?_
  have hcondition : Clean (if condition then ["IF EXISTS"] else []) := .ite (by decide) clean_nil
  simp_all +decide

theorem keepsClean_columnConstraint : KeepsClean (columnConstraint b) := by
  refine (keepsClean_acceptWords _).bind fun _ _ => .ite (.pure (by decide)) ?_
  refine (keepsClean_acceptWord .NULL).bind fun _ _ => .ite (.pure (by decide)) ?_
  refine (keepsClean_acceptWord .UNIQUE).bind fun _ _ => .ite (.pure (by decide)) ?_
  refine (keepsClean_acceptWords _).bind fun _ _ => .ite (.pure (by decide)) ?_
  exact (keepsClean_acceptWord .DEFAULT).bind fun _ _ =>
    .ite (hb.anyExpr.bind fun e he => .pure (by simp_all +decide)) (.pure clean_none)

theorem keepsClean_newColumn : KeepsClean (newColumn b) := by
  have hconstraints (n : Nat) : KeepsClean (constraintsAtMost b n) := by
    induction n with
    | zero => exact .pure clean_nil
    | succ n ih =>
      refine (keepsClean_columnConstraint hb).bind fun c hc => ?_
      cases c with
      | none => exact .pure clean_nil
      | some c => exact ih.bind fun cs hcs => .pure (clean_cons.2 ⟨clean_some.1 hc, hcs⟩)
  exact keepsClean_ident.bind fun name hname => keepsClean_dataType.bind fun type htype =>
    keepsClean_get.bind fun _ _ => (hconstraints _).bind fun constraints hconstraints =>
      .pure (by simp_all [hname.written])

theorem keepsClean_createForm : KeepsClean (createForm b) := by
  refine (keepsClean_acceptWords _).bind fun condition _ => keepsClean_pathText.bind fun table htable =>
    (keepsClean_accept .opening).bind fun _ _ => ?_
  have hcondition : Clean (if condition then ["IF NOT EXISTS"] else []) := .ite (by decide) clean_nil
  have hwritten (columns : List String) (hcolumns : Clean columns) :
      KeepsClean (pure (spaced (["CREATE TABLE"] ++ (if condition then ["IF NOT EXISTS"] else [])
        ++ [table, parenthesized (listed columns)]))) :=
    .pure (by simp_all +decide)
  refine .ite ?_ (Ensures.bind (.pure clean_nil) hwritten)
  refine (keepsClean_accept .closing).bind fun _ _ =>
    .ite (Ensures.bind (.pure clean_nil) hwritten) ?_
  exact (keepsClean_newColumn hb).list.bind fun columns hcolumns =>
    (keepsClean_expect .closing).bind fun _ _ => Ensures.bind (.pure hcolumns) hwritten

omit hb in
theorem keepsClean_truncateForm : KeepsClean truncateForm := by
  refine (keepsClean_acceptWord .TABLE).bind fun word _ => keepsClean_pathText.list.bind fun tables
    htables => .pure ?_
  have hword : Clean (if word then ["TABLE"] else []) := .ite (by decide) clean_nil
  simp_all +decide

omit hb in
theorem keepsClean_chainForm : KeepsClean chainForm :=
  (keepsClean_acceptOneOf (by decide)).bind fun _ _ => (keepsClean_acceptWord .AND).bind fun _ _ =>
    .ite ((keepsClean_acceptWord .NO).bind fun _ _ => (keepsClean_expectWord .CHAIN).bind fun _ _ =>
      .pure (.ite clean_nil (by decide))) (.pure clean_nil)

omit hb in
theorem keepsClean_rollbackForm : KeepsClean rollbackForm := by
  have hname : KeepsClean (do
      let _ ← acceptWord .SAVEPOINT
      ident) :=
    (keepsClean_acceptWord .SAVEPOINT).bind fun _ _ => keepsClean_ident
  refine keepsClean_chainForm.bind fun chain hchain => (hname.after _).bind fun savepoint hsavepoint =>
    .pure ?_
  have hwritten : Clean (savepoint.map Ident.written) := by
    cases savepoint with
    | none => exact clean_none
    | some name => exact clean_some.2 (clean_string.2 (clean_some.1 hsavepoint).written)
  simp_all +decide

theorem keepsClean_statement : KeepsClean (statement b) := by
  have hother {r : Reader String} (h : KeepsClean r) : KeepsClean (Statement.other <$> r) :=
    h.map fun _ => id
  refine keepsClean_get.bind fun _ _ => .ite (hb.query.map fun _ => id) ?_
  refine (keepsClean_acceptWord .INSERT).bind fun _ _ => .ite (hother (keepsClean_insertForm hb)) ?_
  refine (keepsClean_acceptWord .UPDATE).bind fun _ _ => .ite (hother (keepsClean_updateForm hb)) ?_
  refine (keepsClean_acceptWord .DELETE).bind fun _ _ => .ite (hother (keepsClean_deleteForm hb)) ?_
  refine (keepsClean_acceptWords _).bind fun _ _ => .ite (hother keepsClean_dropForm) ?_
  refine (keepsClean_acceptWords _).bind fun _ _ => .ite (hother (keepsClean_createForm hb)) ?_
  refine (keepsClean_acceptWord .TRUNCATE).bind fun _ _ => .ite (hother keepsClean_truncateForm) ?_
  refine (keepsClean_acceptWord .COMMIT).bind fun _ _ => .ite ?_ ?_
  · refine keepsClean_chainForm.bind fun chain hchain => .pure ?_
    show Clean (spaced ("COMMIT" :: chain))
    simp_all +decide
  · exact (keepsClean_acceptWord .ROLLBACK).bind fun _ _ =>
      .ite (hother keepsClean_rollbackForm) keepsClean_fail

end

theorem keepsClean_statementsAtMost {one : Reader Statement} (hone : KeepsClean one) (n : Nat) :
    KeepsClean (statementsAtMost one n) := by
  induction n with
  | zero => exact .pure clean_nil
  | succ n ih =>
    refine keepsClean_get.bind fun _ _ => .ite (.pure clean_nil) ?_
    refine (keepsClean_accept .semicolon).bind fun _ _ => .ite ih ?_
    refine hone.bind fun first hfirst => keepsClean_get.bind fun _ _ => .ite (.pure ?_) ?_
    · exact clean_cons.2 ⟨hfirst, clean_nil⟩
    · exact (keepsClean_expect .semicolon).bind fun _ _ => ih.bind fun more hmore =>
        .pure (clean_cons.2 ⟨hfirst, hmore⟩)

/-- **The grammar invents no question mark**: tokens without one make up statements without one. -/
theorem clean_of_statementsOf {ts : List Token} {statements : List Statement} (hts : Clean ts)
    (h : statementsOf ts = .ok statements) : Clean statements := by
  obtain ⟨⟨_, rest⟩, hread, rfl⟩ := Except.map_eq_ok_iff.1 h
  exact (keepsClean_statementsAtMost (keepsClean_statement (keepsClean_level _)) _ ts _ rest hts hread).1

end QueryTemplate.Sql
