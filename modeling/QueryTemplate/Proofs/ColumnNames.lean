import QueryTemplate.Proofs.Counting
import QueryTemplate.Proofs.Sql.SelectList
import QueryTemplate.Proofs.Template
import QueryTemplate.Proofs.WholeOperands

/-!
# Column names

The select list of a statement names its columns without quotes, whatever the aliases of the template were
quoted with. An item is read back with the name of its field exactly if the name is a single word
(`Field.readsBack_iff`), and a list of such items is read back as a whole, however the statement goes on
(`lex_selectList`). Names from aliases without quotes are single words (`isBare_of_ofItem`); names from quoted
aliases may be anything.
-/

namespace QueryTemplate

open QueryTemplate.Sql

/-! ## Items -/

/-- The word between an expression and its name. -/
def asToken : Token :=
  .word ⟨"AS", none⟩ (some .AS)

namespace Field

/-- The item of a select list that shows a field. -/
def item (f : Field) : String :=
  f.expression ++ " AS " ++ f.name

/-- The tokens of the item, if the name is a single word. -/
def itemTokens (f : Field) : List Token :=
  f.tokens ++ [asToken, .word ⟨f.name, none⟩ none]

/-- The item of a field is read as its expression and an alias that denotes its name. -/
def ReadsBack (f : Field) : Prop :=
  ∃ ts label, lexExpression f.item.toList = some ts ∧ IsItem ts f.tokens label ∧ label.text = f.name

theorem lex_as (rest : List Char) : lex (" AS ".toList ++ rest) = (lex rest).map (asToken :: ·) :=
  have hlex : lex " AS".toList = some [asToken] := by decide +kernel
  lex_append_blank " AS" hlex (by decide) rest

theorem lex_item {f : Field} (h : f.Tidy) (rest : List Char) :
    lex (f.item.toList ++ rest)
      = (lex (f.name.toList ++ rest)).map fun us => f.spelled ++ asToken :: us := by
  obtain ⟨htidy, hlex⟩ := h
  obtain ⟨ts, hts⟩ := Option.isSome_iff_exists.1 hlex
  have hspelled : f.spelled = ts := by rw [spelled, hts, Option.getD_some]
  have hdelimited : QueryTemplate.Filter.Delimited (" AS ".toList ++ (f.name.toList ++ rest)) := rfl
  rw [item, String.toList_append, String.toList_append, List.append_assoc, List.append_assoc,
    lex_append hts htidy hdelimited, lex_as, Option.map_map, hspelled]
  rfl

variable {f : Field}

/-- Behind the expression of an item, a name is due. -/
theorem Closed.settle_as {stop : Token → Bool} (h : f.Closed stop) (us : List Token) :
    settle .operand (f.spelled ++ asToken :: us) = f.tokens ++ asToken :: settle .name us :=
  h.settle_append rfl

/-- The word of a name is no keyword, whatever its spelling. -/
theorem Closed.settle_item {stop : Token → Bool} (h : f.Closed stop) (rest : List Token) :
    settle .operand (f.spelled ++ asToken :: .ofWord f.name.toList :: rest)
      = f.itemTokens ++ settle .operator rest := by
  rw [h.settle_as, itemTokens, List.append_assoc]
  show f.tokens ++ asToken :: _ :: settle _ rest = f.tokens ++ asToken :: _ :: settle _ rest
  rw [settled_name_ofWord, String.ofList_toList]
  rfl

theorem isItem_itemTokens (h : f.Closed Token.endsExpression) :
    IsItem f.itemTokens f.tokens ⟨f.name, none⟩ :=
  .mk h.nonempty h.free rfl

/-- **An item carries the name of its field exactly if the name is a single word.** -/
theorem readsBack_iff (h : f.Closed Token.endsExpression) : f.ReadsBack ↔ IsBare f.name := by
  have hlex := lex_item h.tidy []
  rw [List.append_nil, List.append_nil] at hlex
  constructor
  · rintro ⟨ts, label, hts, hitem, hname⟩
    rw [lexExpression, hlex, Option.map_map] at hts
    obtain ⟨us, hus, rfl⟩ := Option.map_eq_some_iff.1 hts
    replace hitem : IsItem (settle .operand (f.spelled ++ asToken :: us)) f.tokens label := hitem
    rw [h.settle_as] at hitem
    generalize htokens : f.tokens ++ asToken :: settle .name us = ts at hitem
    obtain ⟨_, _, ht⟩ := hitem
    -- the expression ends at the first `AS`, so the alias is all that is left
    have hleft := (split_first h.free h.free (plain_as _) (plain_as _) rfl rfl htokens).2.2
    obtain ⟨u, rfl, hu⟩ := exists_of_settle_eq_singleton hleft
    exact isBare_iff.2 ⟨u, label, hus, by rw [← ht, ← hu, ident?_settled], hname⟩
  · intro hbare
    refine ⟨f.itemTokens, ⟨f.name, none⟩, ?_, isItem_itemTokens h, rfl⟩
    rw [lexExpression, hlex, show lex f.name.toList = _ from hbare, Option.map_map]
    exact congrArg some ((h.settle_item []).trans (List.append_nil _))

end Field

/-! ## Lists -/

/-- **A list of items is read back as a whole**, whatever follows it that does not go on with a word. -/
theorem lex_selectList {fields : List Field} (hne : fields ≠ [])
    (hclosed : ∀ f ∈ fields, f.Closed Token.endsExpression) (hbare : ∀ f ∈ fields, IsBare f.name) :
    ∃ ts, SelectList (settle .operand ts) (fields.map fun f => (f.tokens, ⟨f.name, none⟩))
      ∧ ∀ rest, Ends rest →
        lex ((Definition.selectList fields).toList ++ rest) = (lex rest).map (ts ++ ·) := by
  induction fields with
  | nil => exact absurd rfl hne
  | cons f fields ih =>
    obtain ⟨hf, hfields⟩ := List.forall_mem_cons.1 hclosed
    obtain ⟨hname, hnames⟩ := List.forall_mem_cons.1 hbare
    have hitem (rest : List Char) (hrest : Ends rest) : lex (f.item.toList ++ rest)
        = (lex rest).map fun us => f.spelled ++ asToken :: .ofWord f.name.toList :: us := by
      rw [Field.lex_item hf.tidy, hname.lex_append hrest, Option.map_map]
      rfl
    cases fields with
    | nil =>
      refine ⟨f.spelled ++ [asToken, .ofWord f.name.toList], ?_, fun rest hrest => ?_⟩
      · rw [hf.settle_item, settle, List.append_nil]
        exact .one (Field.isItem_itemTokens hf)
      · refine (hitem rest hrest).trans ?_
        simp
    | cons g fields =>
      obtain ⟨ts, hlist, hlex⟩ := ih (List.cons_ne_nil _ _) hfields hnames
      refine ⟨f.spelled ++ asToken :: .ofWord f.name.toList :: .symbol .comma :: ts, ?_,
        fun rest hrest => ?_⟩
      · rw [hf.settle_item]
        exact .cons (Field.isItem_itemTokens hf) hlist
      have hcomma : lex (", ".toList ++ ((Definition.selectList (g :: fields)).toList ++ rest))
          = (lex rest).map fun us => .symbol .comma :: (ts ++ us) := by
        have hcut : lex ",".toList = some [.symbol .comma] := by decide +kernel
        refine (lex_append_blank "," hcut (by decide) _).trans ?_
        rw [hlex rest hrest, Option.map_map]
        rfl
      have hends (cs : List Char) : Ends (", ".toList ++ cs) := ends_cons (by decide) _
      have htext : Definition.selectList (f :: g :: fields)
          = f.item ++ ", " ++ Definition.selectList (g :: fields) := by
        rw [Definition.selectList, Definition.selectList, List.map_cons, List.map_cons,
          String.intercalate_cons_cons]
        rfl
      rw [htext, String.toList_append, String.toList_append, List.append_assoc, List.append_assoc,
        hitem _ (hends _), hcomma, Option.map_map]
      simp [Function.comp_def]

/-! ## Names from templates -/

/-- No word starts with a quote mark. -/
theorem isQuoteMark_of_isWordStart {c : Char} (h : isWordStart c = true) : Alias.isQuoteMark c = false := by
  by_contra hmark
  simp only [Alias.isQuoteMark, Bool.not_eq_false, Bool.or_eq_true, decide_eq_true_eq] at hmark
  refine not_mem_otherStarts h ?_
  rcases hmark with (rfl | rfl) | rfl <;> decide

theorem isQuoteMark_of_isPlainWord {word : List Char} (h : IsPlainWord word) :
    ∀ d ∈ word, Alias.isQuoteMark d = false := by
  obtain ⟨c, cs, rfl, hstart, -, -, hcs⟩ := h
  refine List.forall_mem_cons.2 ⟨isQuoteMark_of_isWordStart hstart, fun d hd => ?_⟩
  by_contra hmark
  simp only [Alias.isQuoteMark, Bool.not_eq_false, Bool.or_eq_true, decide_eq_true_eq] at hmark
  have hpart := hcs d hd
  rcases hmark with (rfl | rfl) | rfl <;> cases hpart

/-- **A name from an alias without quotes is a single word.** -/
theorem isBare_of_ofItem {item : SelectItem} {f : Field} {label : Ident} (h : Field.ofItem item = .ok f)
    (hlabel : item.label = some label) (hword : IsPlainWord label.text.toList) (hname : f.name ≠ "") :
    IsBare f.name := by
  unfold Field.ofItem at h
  rw [hlabel] at h
  obtain ⟨⟨name, type⟩, hdecode, rfl⟩ := Except.map_eq_ok_iff.1 h
  have hmarks := isQuoteMark_of_isPlainWord hword
  have hfront := Alias.name_prefix_of_decode hdecode fun d hd => hmarks d (List.mem_of_mem_head? hd)
  exact isBare_of_word (hword.of_isPrefix hfront (mt String.toList_eq_nil_iff.1 hname))

/-! ## Statements -/

/-- The word that a statement starts with. -/
def selectToken : Token :=
  .word ⟨"SELECT", none⟩ (some .SELECT)

namespace Definition

variable {d : Definition} {c : Criteria}

/-- The statement for rows, up to its FROM clause. -/
theorem exists_sql_eq (hrows : c.count = false) {q : PreparedQuery} (hq : d.compile c = .ok q) :
    ∃ rest, q.sql = "SELECT " ++ selectList (d.shown c) ++ "\nFROM " ++ rest := by
  obtain ⟨fields, extra, tail, hfields, -, -, rfl⟩ := compile_eq_ok_iff.1 hq
  refine ⟨d.schema ++ String.join ((d.whereClause extra ++ tail).map ("\n" ++ ·)), ?_⟩
  have hhead : head c fields = "SELECT " ++ selectList (d.shown c) := by
    rw [head, hrows, shown_of_projection hfields]
    rfl
  have hfrom : "\n" ++ ("FROM " ++ d.schema) = "\nFROM " ++ d.schema := by
    rw [← String.append_assoc]
    rfl
  show "\n".intercalate ([head c fields, "FROM " ++ d.schema] ++ d.whereClause extra ++ tail) = _
  rw [hhead, List.append_assoc, List.cons_append, intercalate_eq_join, List.cons_append, List.nil_append,
    List.map_cons, String.join_cons, hfrom]
  simp only [String.append_assoc]

theorem shown_ne_nil (hfields : d.fields ≠ []) {q : PreparedQuery} (hq : d.compile c = .ok q) :
    d.shown c ≠ [] := by
  obtain ⟨fields, extra, tail, hprojection, -⟩ := compile_eq_ok_iff.1 hq
  rw [← shown_of_projection hprojection]
  unfold projection at hprojection
  split at hprojection
  · cases hprojection
    exact hfields
  · rename_i hcolumns
    cases hcs : c.columns with
    | nil => exact absurd (by rw [hcs]; rfl) hcolumns
    | cons column columns =>
      rw [hcs] at hprojection
      obtain ⟨f, fs, -, -, rfl⟩ := Except.mapM_cons_eq_ok_iff.1 hprojection
      exact List.cons_ne_nil _ _

end Definition

/-- **Column names.** The statement for the rows of a request shows the fields of the request one by one,
each as its expression, `AS` and its name. As long as the expressions are closed, an item is read back
with the name of its field exactly if the name is a single word; and if all names are, then the tokens of
the statement start with those of a select list that is read in one way only, with one item for each field,
of which the alias denotes its name. The definition of a template has a field
(`Definition.fields_ne_nil_of_ofSql`). -/
theorem select_list_reads_back {d : Definition} {c : Criteria} {q : PreparedQuery} (hfields : d.fields ≠ [])
    (hrows : c.count = false) (hq : d.compile c = .ok q)
    (hclosed : ∀ f ∈ d.shown c, f.Closed Token.endsExpression) :
    ∃ rest, q.sql = "SELECT " ++ Definition.selectList (d.shown c) ++ "\nFROM " ++ rest
      ∧ (∀ f ∈ d.shown c, f.ReadsBack ↔ IsBare f.name)
      ∧ ((∀ f ∈ d.shown c, IsBare f.name) → ∃ ts,
          lex q.sql.toList
            = (lex ("\nFROM " ++ rest).toList).map (fun us => selectToken :: (ts ++ us))
          ∧ ∀ items, SelectList (settle .operand ts) items ↔
              items = (d.shown c).map fun f => (f.tokens, ⟨f.name, none⟩)) := by
  obtain ⟨rest, hsql⟩ := Definition.exists_sql_eq hrows hq
  refine ⟨rest, hsql, fun f hf => Field.readsBack_iff (hclosed f hf), fun hbare => ?_⟩
  obtain ⟨ts, hlist, hlex⟩ := lex_selectList (Definition.shown_ne_nil hfields hq) hclosed hbare
  refine ⟨ts, ?_, fun items => ⟨fun h => h.unique hlist, fun h => h ▸ hlist⟩⟩
  have hselect : lex "SELECT".toList = some [selectToken] := by decide +kernel
  have hends : Ends ("\nFROM " ++ rest).toList := by
    rw [String.toList_append]
    exact ends_cons (by decide) _
  rw [hsql, String.append_assoc, String.append_assoc, String.toList_append]
  refine (lex_append_blank "SELECT" hselect (by decide) _).trans ?_
  rw [String.toList_append, hlex _ hends, Option.map_map]
  rfl

/-- Columns in another order than the template has them: one with `AS` and commas inside of brackets, one
that is named as a keyword is, and one with a quoted alias that is a single word all the same. -/
theorem select_list_reads_back_quoted :
    let template := "SELECT c.name AS `name_string`, COALESCE(CAST(c.debt AS INT), 0) AS debt_int,"
      ++ " c.end AS end_date FROM customers c"
    let c : Criteria := { columns := ["debt", "end", "name"] }
    ∃ d q rest, Definition.ofSql template = .ok d ∧ d.fields ≠ [] ∧ c.count = false ∧ d.compile c = .ok q
      ∧ (∀ f ∈ d.shown c, f.Closed Token.endsExpression) ∧ (∀ f ∈ d.shown c, IsBare f.name)
      ∧ q.sql = "SELECT COALESCE(CAST(c.debt AS INT), 0) AS debt, c.end AS end, c.name AS name\nFROM "
          ++ rest
      ∧ (d.shown c).map Field.name = ["debt", "end", "name"]
      ∧ ∃ ts, lex q.sql.toList
            = (lex ("\nFROM " ++ rest).toList).map (fun us => selectToken :: (ts ++ us))
        ∧ ∀ items, SelectList (settle .operand ts) items ↔
            items = (d.shown c).map fun f => (f.tokens, ⟨f.name, none⟩) := by
  intro template c
  have hread : (Definition.ofSql template).map (fun d => (d.fields, d.compile c)) = .ok
      ([⟨"c.name", "name", .string⟩, ⟨"COALESCE(CAST(c.debt AS INT), 0)", "debt", .int⟩,
          ⟨"c.end", "end", .date⟩],
        .ok ⟨"SELECT COALESCE(CAST(c.debt AS INT), 0) AS debt, c.end AS end, c.name AS name\n"
          ++ "FROM customers AS c\nLIMIT 50 OFFSET 0", []⟩) := by
    decide +kernel
  obtain ⟨d, hd, hread⟩ := Except.map_eq_ok_iff.1 hread
  obtain ⟨hfields, hq⟩ := Prod.mk.inj hread
  have hshown : d.shown c = [⟨"COALESCE(CAST(c.debt AS INT), 0)", "debt", .int⟩,
      ⟨"c.end", "end", .date⟩, ⟨"c.name", "name", .string⟩] := by
    rw [Definition.shown, hfields]
    rfl
  have hclosed : ∀ f ∈ d.shown c, f.Closed Token.endsExpression := by
    rw [hshown]
    decide +kernel
  have hbare : ∀ f ∈ d.shown c, IsBare f.name := by
    rw [hshown]
    decide +kernel
  have hne : d.fields ≠ [] := Definition.fields_ne_nil_of_ofSql hd
  obtain ⟨rest, hsql, -, hlist⟩ := select_list_reads_back hne rfl hq hclosed
  refine ⟨d, _, rest, hd, hne, rfl, hq, hclosed, hbare, ?_, by rw [hshown]; rfl, hlist hbare⟩
  rw [hsql, hshown]
  rfl

/-- A quoted alias with a blank in it. The blank ends the name in the select list, and with what follows it
the tokens are no select list. -/
theorem quoted_alias_torn_apart :
    let template := "SELECT c.name AS \"full name_string\" FROM customers c"
    ∃ d q ts, Definition.ofSql template = .ok d ∧ d.compile {} = .ok q
      ∧ d.shown {} = [⟨"c.name", "full name", .string⟩]
      ∧ q.sql = "SELECT " ++ Definition.selectList (d.shown {}) ++ "\nFROM customers AS c\nLIMIT 50 OFFSET 0"
      ∧ lexExpression (Definition.selectList (d.shown {})).toList = some ts
      ∧ ∀ items, ¬ SelectList ts items := by
  intro template
  have hread : (Definition.ofSql template).map (fun d => (d.fields, d.compile {})) = .ok
      ([⟨"c.name", "full name", .string⟩],
        .ok ⟨"SELECT c.name AS full name\nFROM customers AS c\nLIMIT 50 OFFSET 0", []⟩) := by
    decide +kernel
  obtain ⟨d, hd, hread⟩ := Except.map_eq_ok_iff.1 hread
  obtain ⟨hfields, hq⟩ := Prod.mk.inj hread
  have hshown : d.shown {} = [⟨"c.name", "full name", .string⟩] := by
    rw [Definition.shown, hfields]
    rfl
  let e : List Token := [.word ⟨"c", none⟩ none, .symbol .period, .word ⟨"name", none⟩ none]
  have hlex : lexExpression (Definition.selectList [⟨"c.name", "full name", .string⟩]).toList
      = some (e ++ asToken :: [.word ⟨"full", none⟩ none, .word ⟨"name", none⟩ none]) := by
    decide +kernel
  refine ⟨d, _, _, hd, hq, hshown, by rw [hshown]; rfl, by rw [hshown, hlex], fun items h => ?_⟩
  have hfree : FreeOf Token.endsExpression e := by decide
  -- the item ends behind the first word of the name, and no comma follows
  generalize hts : e ++ asToken :: [.word ⟨"full", none⟩ none, .word ⟨"name", none⟩ none] = ts at h
  cases h with
  | one h =>
    obtain ⟨_, he, _⟩ := h
    have hlabel := (split_first hfree he (plain_as _) (plain_as _) rfl rfl hts).2.2
    cases hlabel
  | cons h _ =>
    obtain ⟨_, he, _⟩ := h
    rw [List.append_assoc] at hts
    have hlabel := (split_first hfree he (plain_as _) (plain_as _) rfl rfl hts).2.2
    cases hlabel

end QueryTemplate
