import QueryTemplate.Proofs.Sql.Texts

/-!
# Expressions invent no placeholders

One lemma for each rule of the grammar, up to expressions. The readers of what nests are assumed to keep
texts clean (`Below.KeepsClean`).
-/

namespace QueryTemplate.Sql

open Reader

/-! ## Written parts -/

theorem Clean.tableWritten {t : Table} (h : Clean t) : Plain t.written := by
  obtain ⟨htext, hlabel⟩ := clean_table.1 h
  simp +decide [Table.written, htext, hlabel]

theorem Clean.itemWritten {item : SelectItem} (h : Clean item) : Plain item.written := by
  obtain ⟨hexpression, hlabel⟩ := clean_item.1 h
  unfold SelectItem.written
  split
  · exact hexpression
  · rename_i label heq
    rw [heq, clean_some] at hlabel
    simp +decide [hexpression, hlabel.written]

theorem Clean.sourceWritten {source : Source} (h : Clean source) : Plain source.written := by
  obtain ⟨htable, hjoins⟩ := clean_source.1 h
  exact plain_spaced.2 (clean_cons.2 ⟨clean_string.2 htable, clean_strings.2 hjoins⟩)

theorem Clean.selectWritten {s : Select} (h : Clean s) : Plain s.written := by
  obtain ⟨hdistinct, htop, hitems, hsources, hcondition, hgrouping, hhaving⟩ := clean_select.1 h
  have hitems : Clean (s.items.map SelectItem.written) :=
    hitems.map fun _ h => clean_string.2 h.itemWritten
  have hfrom : Clean (if s.sources.isEmpty then none
      else some (listed (s.sources.map Source.written))) :=
    .ite clean_none (by simpa using hsources.map fun _ h => clean_string.2 h.sourceWritten)
  simp +decide only [Select.written, plain_spaced, clean_append, clean_cons, clean_string,
    clean_toList, plain_listed, clean_clause, hdistinct, htop, hitems, hfrom, hcondition, hgrouping,
    hhaving]

theorem Clean.bodyWritten {body : Body} (h : Clean body) : Plain body.written := by
  induction body with
  | select s => exact Clean.selectWritten h
  | query text => exact plain_parenthesized.2 (clean_string.1 h)
  | values text => exact clean_string.1 h
  | combine op multiplicity left right ihl ihr =>
    obtain ⟨hmultiplicity, hleft, hright⟩ := clean_combine.1 h
    have hop : Plain op.sql := by cases op <;> decide
    simp [Body.written, ihl hleft, ihr hright, hop, hmultiplicity]

theorem Clean.queryWritten {q : Query} (h : Clean q) : Plain q.written := by
  obtain ⟨htables, hbody, horder, hpages⟩ := clean_query.1 h
  have horder := clean_unless_empty (clean_strings.2 horder)
  simp +decide only [Query.written, plain_spaced, clean_append, clean_cons, clean_string,
    clean_toList, clean_clause, htables, hbody.bodyWritten, horder, clean_strings.2 hpages]

/-! ## Names and literals -/

theorem clean_of_ident? (t : Token) (name : Ident) (ht : Clean t) (h : t.ident? = some name) :
    Clean name := by
  cases t with
  | word => cases h; exact ht
  | text s =>
    cases h
    exact clean_quoted (ht _ List.mem_cons_self) (by decide)
  | _ => cases h

theorem plain_of_capitals? {t : Token} {s : String} (ht : Clean t) (h : t.capitals? = some s) :
    Plain s := by
  unfold Token.capitals? at h
  split at h
  · cases h
    exact plain_inCapitals (Clean.text ht)
  · cases h

/-- A word of a list of words, or a word that passes a test. -/
theorem keepsClean_capitals (p : String → Bool) :
    KeepsClean (take fun t => t.capitals?.filter p) := by
  refine keepsClean_take fun t s ht h => ?_
  exact clean_string.2 (plain_of_capitals? ht (Option.filter_eq_some_iff.1 h).1)

theorem keepsClean_ident : KeepsClean ident :=
  keepsClean_take clean_of_ident?

theorem keepsClean_word : KeepsClean (take fun | .word name _ => some name | _ => none) := by
  refine keepsClean_take fun t name ht h => ?_
  cases t with
  | word => cases h; exact ht
  | _ => cases h

theorem keepsClean_pathAtMost (n : Nat) : KeepsClean (pathAtMost n) := by
  induction n with
  | zero => exact .pure clean_nil
  | succ n ih =>
    refine (keepsClean_accept .period).bind fun _ _ => .ite ?_ (.pure clean_nil)
    exact keepsClean_ident.bind fun part hpart => ih.bind fun parts hparts =>
      .pure (clean_cons.2 ⟨hpart, hparts⟩)

theorem keepsClean_furtherParts : KeepsClean furtherParts :=
  keepsClean_get.bind fun _ _ => keepsClean_pathAtMost _

theorem keepsClean_path : KeepsClean path :=
  keepsClean_ident.bind fun _ hfirst => keepsClean_furtherParts.bind fun _ hparts =>
    .pure (clean_cons.2 ⟨hfirst, hparts⟩)

theorem keepsClean_identList : KeepsClean identList :=
  keepsClean_ident.list.parens

theorem keepsClean_optionalAlias (reserved : List Keyword) : KeepsClean (optionalAlias reserved) := by
  refine (keepsClean_acceptWord .AS).bind fun _ _ => .ite ?_ ?_
  · exact keepsClean_ident.map fun _ => clean_some.2
  · refine (keepsClean_take fun t name ht h => ?_).attempt
    -- an alias without `AS` is a name as well
    refine clean_of_ident? t name ht ?_
    split at h
    · split at h
      · cases h
      · exact h
    · exact h
    · cases h

theorem plain_of_text? {t : Token} {s : String} (ht : Clean t) (h : t.text? = some s) : Plain s := by
  unfold Token.text? at h
  split at h
  · cases h
    exact ht _ List.mem_cons_self
  · cases h
    exact Clean.text ht
  · split at h
    · cases h
    · cases h
      exact Clean.text ht
  · cases h

theorem keepsClean_text : KeepsClean (take Token.text?) :=
  keepsClean_take fun _ _ ht h => clean_string.2 (plain_of_text? ht h)

theorem plain_number {digits : String} (h : Plain digits) (long : Bool) :
    Plain (if long then digits ++ "L" else digits) := by
  split
  · simpa [h] using (by decide : Plain "L")
  · exact h

theorem keepsClean_number : KeepsClean (take Token.number?) := by
  refine keepsClean_take fun t s ht h => ?_
  cases t with
  | number digits long =>
    cases h
    exact clean_string.2 (plain_number (ht _ List.mem_cons_self) long)
  | _ => cases h

theorem keepsClean_count : KeepsClean (take fun t => t.count?.map toString) := by
  refine keepsClean_take fun t s _ h => ?_
  obtain ⟨n, -, rfl⟩ := Option.map_eq_some_iff.1 h
  exact clean_string.2 (plain_toString n)

theorem keepsClean_placeholderName : KeepsClean (take Token.placeholderName?) := by
  refine keepsClean_take fun t s ht h => clean_string.2 ?_
  unfold Token.placeholderName? at h
  split at h
  · cases h
    exact Clean.text ht
  · cases h
    exact ht _ List.mem_cons_self
  · cases h

/-! ## Data types -/

instance : Texts TypeShape := ⟨fun _ => []⟩

theorem keepsClean_optionalParens {r : Reader String} (h : KeepsClean r) :
    KeepsClean (optionalParens r) := by
  refine (keepsClean_accept .opening).bind fun _ _ => .ite ?_ (.pure (by decide))
  exact h.bind fun s hs => (keepsClean_expect .closing).bind fun _ _ => .pure (by simpa using hs)

theorem keepsClean_textLength : KeepsClean textLength := by
  refine (keepsClean_capitals _).attempt.bind fun greatest hgreatest => ?_
  cases greatest with
  | some greatest => exact .pure (clean_some.1 hgreatest)
  | none =>
    exact keepsClean_count.bind fun n hn => (keepsClean_capitals _).attempt.bind fun unit hunit =>
      .pure (by simp_all)

theorem keepsClean_precisionAndScale : KeepsClean precisionAndScale := by
  refine keepsClean_count.bind fun precision hprecision => (keepsClean_accept .comma).bind fun _ _ =>
    .ite ?_ (.pure hprecision)
  exact keepsClean_count.bind fun scale hscale => .pure (by simp_all +decide)

theorem keepsClean_timeZone : KeepsClean timeZone := by
  have hzone (text : String) (h : Plain text) :
      KeepsClean (do expectWord .TIME; expectWord .ZONE; return text) :=
    (keepsClean_expectWord .TIME).bind fun _ _ => (keepsClean_expectWord .ZONE).bind fun _ _ =>
      .pure (clean_string.2 h)
  refine (keepsClean_acceptWord .WITH).bind fun _ _ => .ite (hzone _ (by decide)) ?_
  exact (keepsClean_acceptWord .WITHOUT).bind fun _ _ =>
    .ite (hzone _ (by decide)) (.pure (by decide))

theorem keepsClean_typeTail (shape : TypeShape) : KeepsClean (typeTail shape) := by
  cases shape with
  | plain => exact .pure (by decide)
  | sized => exact keepsClean_optionalParens keepsClean_count
  | whole =>
    exact (keepsClean_optionalParens keepsClean_count).bind fun n hn =>
      (keepsClean_acceptWord .UNSIGNED).bind fun _ _ =>
        .pure (.ite (by simp_all +decide) hn)
  | text => exact keepsClean_optionalParens keepsClean_textLength
  | character =>
    exact (keepsClean_acceptWord .VARYING).bind fun varying _ =>
      (keepsClean_optionalParens keepsClean_textLength).bind fun length hlength =>
        .pure (by cases varying <;> simp_all +decide)
  | bits =>
    exact (keepsClean_acceptWord .VARYING).bind fun varying _ =>
      (keepsClean_optionalParens keepsClean_count).bind fun size hsize =>
        .pure (by cases varying <;> simp_all +decide)
  | exact => exact keepsClean_optionalParens keepsClean_precisionAndScale
  | moment =>
    exact (keepsClean_optionalParens keepsClean_count).bind fun precision hprecision =>
      keepsClean_timeZone.bind fun zone hzone => .pure (by simp_all)
  | double =>
    exact (keepsClean_acceptWord .PRECISION).bind fun _ _ =>
      .pure (.ite (by decide) (by decide))

theorem keepsClean_knownType : KeepsClean knownType := by
  have htype : KeepsClean (take Token.knownType?) := by
    refine keepsClean_take fun t x ht h => ?_
    obtain ⟨name, hname, h⟩ := Option.bind_eq_some_iff.1 h
    obtain ⟨shape, -, h⟩ := Option.bind_eq_some_iff.1 h
    cases h
    exact clean_pair.2 ⟨clean_string.2 (plain_of_capitals? ht hname), nofun⟩
  exact htype.bind fun x hx => (keepsClean_typeTail x.2).bind fun tail htail =>
    .pure (by simpa using ⟨clean_string.1 (clean_pair.1 hx).1, clean_string.1 htail⟩)

theorem plain_of_modifier? {t : Token} {s : String} (ht : Clean t) (h : t.modifier? = some s) :
    Plain s := by
  unfold Token.modifier? at h
  split at h
  · cases h
    exact Clean.text ht
  · cases h
    obtain ⟨htext, hquote⟩ := clean_ident.1 ht
    exact plain_append (plain_append (hquote _ rfl) htext) (hquote _ rfl)
  · cases h
    exact ht _ List.mem_cons_self
  · cases h
    exact ht _ List.mem_cons_self
  · cases h

theorem keepsClean_modifiersAtMost (n : Nat) : KeepsClean (modifiersAtMost n) := by
  induction n with
  | zero => exact keepsClean_fail
  | succ n ih =>
    refine (keepsClean_accept .closing).bind fun _ _ => .ite (.pure clean_nil) ?_
    refine (keepsClean_accept .comma).bind fun _ _ => .ite ih ?_
    exact (keepsClean_take fun _ _ ht h => clean_string.2 (plain_of_modifier? ht h)).bind fun m hm =>
      ih.bind fun ms hms => .pure (clean_cons.2 ⟨hm, hms⟩)

theorem keepsClean_userType : KeepsClean userType := by
  refine keepsClean_word.bind fun first hfirst => keepsClean_furtherParts.bind fun parts hparts => ?_
  have hpath : Plain (writtenPath (first :: parts)) := Clean.writtenPath (clean_cons.2 ⟨hfirst, hparts⟩)
  refine (keepsClean_accept .opening).bind fun _ _ => .ite ?_ (.pure (clean_string.2 hpath))
  exact keepsClean_get.bind fun _ _ => (keepsClean_modifiersAtMost _).bind fun ms hms =>
    .pure (.ite (clean_string.2 hpath) (by simp_all))

theorem keepsClean_dataType : KeepsClean dataType :=
  keepsClean_get.bind fun _ _ => .ite keepsClean_knownType <|
    keepsClean_get.bind fun _ _ => .ite keepsClean_fail keepsClean_userType

/-! ## Expressions -/

/-- The readers of what nests keep texts clean. -/
structure Below.KeepsClean (b : Below) : Prop where
  expr : ∀ level, Reader.KeepsClean (b.expr level)
  query : Reader.KeepsClean b.query

theorem Below.KeepsClean.anyExpr {b : Below} (hb : b.KeepsClean) : Reader.KeepsClean b.anyExpr :=
  hb.expr 0

theorem Below.KeepsClean.queryText {b : Below} (hb : b.KeepsClean) : Reader.KeepsClean b.queryText :=
  hb.query.map fun _ hq => clean_string.2 hq.queryWritten

section

variable {b : Below} (hb : b.KeepsClean)
include hb

theorem keepsClean_orderTerm : KeepsClean (orderTerm b) := by
  refine hb.anyExpr.bind fun key hkey => (keepsClean_acceptOneOf (by decide)).bind fun direction
    hdirection => ?_
  have hrest (nulls : List String) (hnulls : Clean nulls) :
      KeepsClean (pure (spaced (key :: direction.toList ++ nulls))) :=
    .pure (by simp_all)
  refine (keepsClean_acceptWords _).bind fun _ _ =>
    .ite (Ensures.bind (.pure (by decide)) hrest) ?_
  exact (keepsClean_acceptWords _).bind fun _ _ =>
    .ite (Ensures.bind (.pure (by decide)) hrest) (Ensures.bind (.pure (by decide)) hrest)

theorem keepsClean_orderTerms : KeepsClean (orderTerms b) := by
  refine ((keepsClean_orderTerm hb).list.after _).bind fun terms hterms => .pure ?_
  cases terms with
  | none => exact clean_nil
  | some terms => exact clean_some.1 hterms

omit hb in
theorem keepsClean_starAtMost (n : Nat) : KeepsClean (starAtMost n) := by
  induction n with
  | zero => exact keepsClean_fail
  | succ n ih =>
    refine (keepsClean_expect .period).bind fun _ _ => (keepsClean_accept .star).bind fun _ _ =>
      .ite (.pure (by decide)) ?_
    exact keepsClean_ident.bind fun part hpart => ih.bind fun rest hrest =>
      .pure (by simpa [hpart.written] using ⟨by decide, clean_string.1 hrest⟩)

omit hb in
theorem keepsClean_star : KeepsClean star := by
  refine (keepsClean_accept .star).bind fun _ _ => .ite (.pure (by decide)) ?_
  exact keepsClean_ident.bind fun first hfirst => keepsClean_get.bind fun _ _ =>
    (keepsClean_starAtMost _).bind fun rest hrest => .pure (by simp_all [hfirst.written])

theorem keepsClean_argument : KeepsClean (argument b) := by
  refine keepsClean_star.attempt.bind fun x hx => ?_
  cases x with
  | some s => exact .pure (clean_some.1 hx)
  | none => exact hb.anyExpr

theorem keepsClean_arguments : KeepsClean (arguments b) := by
  refine (keepsClean_expect .opening).bind fun _ _ => (keepsClean_accept .closing).bind fun _ _ =>
    .ite (.pure (by decide)) ?_
  refine (keepsClean_acceptWord .ALL).bind fun all _ =>
    (keepsClean_acceptWord .DISTINCT).bind fun distinct _ => .when keepsClean_fail ?_
  refine (keepsClean_argument hb).list.bind fun items hitems =>
    (keepsClean_expect .closing).bind fun _ _ => .pure ?_
  have hmultiplicity : Clean (if all then ["ALL"] else if distinct then ["DISTINCT"] else []) :=
    .ite (by decide) (.ite (by decide) (by decide))
  simp_all

theorem keepsClean_window : KeepsClean (window b) := by
  refine (keepsClean_acceptWord .OVER).bind fun _ _ => .ite ?_ (.pure clean_nil)
  refine keepsClean_get.bind fun _ _ => .ite ?_ ?_
  · refine Ensures.bind (KeepsClean.parens ?_) fun text htext => .pure (by simp_all +decide)
    refine (hb.anyExpr.list.after _).bind fun partition hpartition =>
      (keepsClean_orderTerms hb).bind fun order horder => .pure ?_
    have horder := clean_unless_empty horder
    cases partition <;> simp_all +decide
  · exact keepsClean_ident.bind fun name hname => .pure (by simpa [hname.written] using by decide)

theorem keepsClean_call {function : String} (hfunction : Plain function) :
    KeepsClean (call b function) :=
  (keepsClean_arguments hb).bind fun first hfirst => keepsClean_get.bind fun _ _ =>
    .optional (keepsClean_arguments hb) (by decide) fun second hsecond =>
      keepsClean_get.bind fun _ _ => .when keepsClean_fail <|
        (keepsClean_window hb).bind fun windowed hwindowed => .pure (by simp_all)

/-! ### Forms with a syntax of their own -/

omit hb in
theorem keepsClean_dateField : KeepsClean dateField := by
  refine keepsClean_take fun t s ht h => clean_string.2 ?_
  unfold Token.dateField? at h
  split at h
  · cases h
    exact plain_of_capitals? ht (Option.filter_eq_some_iff.1 ‹_›).1
  · obtain ⟨name, hname, rfl⟩ := Option.map_eq_some_iff.1 h
    exact (clean_of_ident? t name ht hname).written

omit hb in
theorem keepsClean_typedText : KeepsClean typedText :=
  keepsClean_get.bind fun _ _ => .when keepsClean_fail <|
    keepsClean_knownType.bind fun type htype => keepsClean_text.bind fun text htext =>
      .pure (by simp_all [plain_quoted_text])

theorem keepsClean_branchesAtMost (n : Nat) : KeepsClean (branchesAtMost b n) := by
  induction n with
  | zero => exact keepsClean_fail
  | succ n ih =>
    refine hb.anyExpr.bind fun condition hcondition => (keepsClean_expectWord .THEN).bind fun _ _ =>
      hb.anyExpr.bind fun result hresult => ?_
    have hbranch : Clean ["WHEN", condition, "THEN", result] := by simp_all +decide
    exact (keepsClean_acceptWord .WHEN).bind fun _ _ =>
      .ite (ih.bind fun branches hbranches => .pure (clean_append.2 ⟨hbranch, hbranches⟩))
        (.pure hbranch)

theorem keepsClean_caseForm : KeepsClean (caseForm b) := by
  have hrest (operand : Option String) (hoperand : Clean operand) : KeepsClean do
      let branches ← branchesAtMost b ((← get).length + 1)
      let otherwise ← after [.ELSE] b.anyExpr
      expectWord .END
      return spaced (["CASE"] ++ operand.toList ++ branches ++ clause "ELSE" otherwise ++ ["END"]) :=
    keepsClean_get.bind fun _ _ => (keepsClean_branchesAtMost hb _).bind fun branches hbranches =>
      (hb.anyExpr.after _).bind fun otherwise hotherwise => (keepsClean_expectWord .END).bind fun _ _ =>
        .pure (by simp_all +decide)
  refine (keepsClean_acceptWord .WHEN).bind fun _ _ => .ite ?_ ?_
  · exact Ensures.bind (.pure clean_none) hrest
  · exact hb.anyExpr.bind fun e he => (keepsClean_expectWord .WHEN).bind fun _ _ =>
      Ensures.bind (.pure (clean_some.2 he)) hrest

theorem keepsClean_castForm {function : String} (hfunction : Plain function) :
    KeepsClean (castForm b function) := by
  refine Ensures.bind (KeepsClean.parens ?_) fun text htext => .pure (by simp_all)
  exact hb.anyExpr.bind fun e he => (keepsClean_expectWord .AS).bind fun _ _ =>
    keepsClean_dataType.bind fun type htype => .pure (by simp_all +decide)

omit hb in
theorem keepsClean_characterSet : KeepsClean characterSet :=
  (keepsClean_capitals _).bind fun _ _ => (keepsClean_expectWord .SET).bind fun _ _ => keepsClean_path

theorem keepsClean_convertForm {function : String} (hfunction : Plain function) :
    KeepsClean (convertForm b function) := by
  refine Ensures.bind (KeepsClean.parens ?_) fun text htext => .pure (by simp_all)
  refine hb.anyExpr.bind fun e he => (keepsClean_acceptWord .USING).bind fun _ _ => .ite ?_ ?_
  · exact keepsClean_path.bind fun characters hcharacters =>
      .pure (by simp_all +decide [hcharacters.writtenPath])
  refine (keepsClean_expect .comma).bind fun _ _ => keepsClean_dataType.bind fun type htype =>
    keepsClean_characterSet.attempt.bind fun characters hcharacters => .pure ?_
  have hwritten : Clean (characters.map writtenPath) := hcharacters.optionMap fun _ h => clean_string.2 h.writtenPath
  simp_all +decide

theorem keepsClean_structPart : KeepsClean (structPart b) := by
  refine hb.anyExpr.bind fun e he => (keepsClean_ident.after _).bind fun name hname => .pure ?_
  have hwritten : Clean (name.map Ident.written) := hname.optionMap fun _ h => clean_string.2 h.written
  simp_all +decide

theorem keepsClean_structForm : KeepsClean (structForm b) :=
  (keepsClean_structPart hb).list.parens.bind fun parts hparts => .pure (by simp_all +decide)

theorem keepsClean_existsForm : KeepsClean (existsForm b) :=
  hb.queryText.parens.bind fun _ _ => .pure (by simp_all +decide)

theorem keepsClean_extractForm : KeepsClean (extractForm b) := by
  refine Ensures.bind (KeepsClean.parens ?_) fun text htext => .pure (by simp_all +decide)
  refine keepsClean_dateField.bind fun field hfield => (keepsClean_acceptWord .FROM).bind fun _ _ =>
    .ite ?_ ?_
  · exact hb.anyExpr.bind fun e he => .pure (by simp_all +decide)
  · exact (keepsClean_expect .comma).bind fun _ _ => hb.anyExpr.bind fun e he => .pure (by simp_all)

theorem keepsClean_roundingForm {function : String} (hfunction : Plain function) :
    KeepsClean (roundingForm b function) := by
  refine Ensures.bind (KeepsClean.parens ?_) fun text htext => .pure (by simp_all)
  refine hb.anyExpr.bind fun e he => (keepsClean_acceptWord .TO).bind fun _ _ => .ite ?_ ?_
  · exact keepsClean_dateField.bind fun field hfield => .pure (by simp_all +decide)
  · refine (keepsClean_accept .comma).bind fun _ _ => .ite ?_ (.pure he)
    exact keepsClean_number.bind fun scale hscale => .pure (by simp_all)

theorem keepsClean_positionForm {function : Ident} (hfunction : Clean function) :
    KeepsClean (positionForm b function) := by
  have hform : KeepsClean <| parens do
      let part ← b.expr 20
      expectWord .IN
      return spaced [part, "IN", ← b.anyExpr] :=
    .parens <| (hb.expr 20).bind fun part hpart => (keepsClean_expectWord .IN).bind fun _ _ =>
      hb.anyExpr.bind fun e he => .pure (by simp_all +decide)
  -- what is not in the form is read once more, as a call
  refine hform.attempt.bind fun form hform => ?_
  cases form with
  | some text => exact .pure (by simp_all +decide)
  | none => exact keepsClean_call hb hfunction.written

theorem keepsClean_substringForm : KeepsClean (substringForm b) := by
  refine Ensures.bind (KeepsClean.parens ?_) fun text htext => .pure (by simp_all +decide)
  refine hb.anyExpr.bind fun e he => (keepsClean_accept .comma).bind fun commas _ => ?_
  have hwritten (start length : Option String) (hstart : Clean start) (hlength : Clean length) :
      KeepsClean (if commas then return listed (e :: start.toList ++ length.toList)
        else return spaced (e :: clause "FROM" start ++ clause "FOR" length)) :=
    .ite (.pure (by simp_all)) (.pure (by simp_all +decide))
  have hexpr : KeepsClean (some <$> b.anyExpr) := hb.anyExpr.map fun _ => clean_some.2
  refine .branch hexpr (hb.anyExpr.after _) fun start hstart => ?_
  refine (keepsClean_acceptWord .FOR).bind fun _ _ => .ite (hexpr.bind (hwritten start · hstart)) ?_
  exact (keepsClean_accept .comma).bind fun _ _ => .optional hexpr clean_none (hwritten start · hstart)

theorem keepsClean_trimForm : KeepsClean (trimForm b) := by
  refine Ensures.bind (KeepsClean.parens ?_) fun text htext => .pure (by simp_all +decide)
  refine (keepsClean_acceptOneOf (by decide)).bind fun side hside => hb.anyExpr.bind fun e he =>
    (keepsClean_acceptWord .FROM).bind fun _ _ => .ite ?_ ?_
  · exact hb.anyExpr.bind fun whole hwhole => .pure (by simp_all +decide)
  · refine (keepsClean_accept .comma).bind fun _ _ => .ite ?_ (.pure (by simp_all))
    exact hb.anyExpr.list.bind fun more hmore => .pure (by simp_all)

omit hb in
theorem keepsClean_intervalForm {operand : Reader String} (hoperand : KeepsClean operand) :
    KeepsClean (intervalForm operand) := by
  refine hoperand.bind fun value hvalue => (keepsClean_capitals _).attempt.bind fun unit hunit => ?_
  cases unit with
  | none => exact .pure (by simp_all +decide)
  | some unit =>
    have hrest (last : Option String) (hlast : Clean last) :
        KeepsClean (pure (spaced (["INTERVAL", value, unit] ++ clause "TO" last))) :=
      .pure (by simp_all +decide)
    exact .ite (Ensures.bind (.pure clean_none) hrest) ((keepsClean_dateField.after _).bind hrest)

theorem keepsClean_notForm : KeepsClean (notForm b) := by
  refine (keepsClean_acceptWord .EXISTS).bind fun _ _ => .ite ?_ ?_
  · exact (keepsClean_existsForm hb).bind fun e he => .pure (by simp_all +decide)
  · exact (hb.expr _).bind fun e he => .pure (by simp_all +decide)

/-! ### Operands -/

theorem keepsClean_plainOperand {name : Ident} (hname : Clean name) :
    KeepsClean (plainOperand b name) := by
  refine keepsClean_get.bind fun ts _ => .ite ?_ (.ite ?_ (.pure (clean_string.2 hname.written)))
  · refine keepsClean_furtherParts.bind fun parts hparts => keepsClean_get.bind fun _ _ => ?_
    have hpath : Plain (writtenPath (name :: parts)) := Clean.writtenPath (clean_cons.2 ⟨hname, hparts⟩)
    exact .ite (keepsClean_call hb hpath) (.pure (clean_string.2 hpath))
  · refine (keepsClean_take fun t s ht h => ?_).attempt.bind fun text htext => ?_
    · cases t with
      | text => cases h; exact ht
      | _ => cases h
    · cases text with
      | none => exact .pure (clean_string.2 hname.written)
      | some s =>
        have hs : Plain (quoted '\'' s) := plain_quoted_text (clean_string.1 (clean_some.1 htext))
        exact .pure (by simpa [hs] using hname.text)

theorem keepsClean_special {operand r : Reader String} {name : Ident} {k : Keyword}
    (hoperand : KeepsClean operand) (hname : Clean name)
    (h : specialOperand? b operand name k = some r) : KeepsClean r := by
  have hmoment : KeepsClean do
      if startsWith .opening (← get) then return name.written ++ (← arguments b)
      else return name.written :=
    keepsClean_get.bind fun _ _ =>
      .ite ((keepsClean_arguments hb).bind fun items hitems => .pure (by simp_all [hname.written]))
        (.pure (clean_string.2 hname.written))
  have hposition : KeepsClean (do
      if startsWith .opening (← get) then positionForm b name else plainOperand b name) :=
    keepsClean_get.bind fun _ _ =>
      .ite (keepsClean_positionForm hb hname) (keepsClean_plainOperand hb hname)
  -- one case for each word that an operand of its own starts with
  unfold specialOperand? at h
  split at h <;> cases h
  case h_1 | h_2 | h_3 => exact .pure (by decide)
  case h_4 | h_5 | h_6 | h_7 => exact .pure (clean_string.2 hname.written)
  case h_8 | h_9 | h_10 | h_11 | h_12 => exact hmoment
  case h_13 => exact keepsClean_caseForm hb
  case h_14 | h_15 | h_16 => exact keepsClean_castForm hb (by decide)
  case h_17 | h_18 => exact keepsClean_convertForm hb (by decide)
  case h_19 => exact keepsClean_structForm hb
  case h_20 => exact keepsClean_existsForm hb
  case h_21 => exact keepsClean_extractForm hb
  case h_22 | h_23 => exact keepsClean_roundingForm hb (by decide)
  case h_24 => exact hposition
  case h_25 => exact keepsClean_substringForm hb
  case h_26 => exact keepsClean_trimForm hb
  case h_27 => exact keepsClean_intervalForm hoperand
  case h_28 => exact keepsClean_notForm hb

theorem keepsClean_wordOperand {operand : Reader String} {name : Ident} {k : Option Keyword}
    (hoperand : KeepsClean operand) (hname : Clean name) :
    KeepsClean (wordOperand b operand name k) := by
  have hplain := keepsClean_plainOperand hb hname
  unfold wordOperand
  split
  · exact hplain
  · rename_i special h
    obtain ⟨k, -, h⟩ := Option.bind_eq_some_iff.1 h
    have hspecial := keepsClean_special hb hoperand hname h
    exact .ite hspecial (hspecial.orElse hplain)

theorem keepsClean_groupOperand : KeepsClean (groupOperand b) := by
  have hlist : KeepsClean (listed <$> list b.anyExpr) :=
    hb.anyExpr.list.map fun _ h => clean_string.2 (plain_listed.2 h)
  refine keepsClean_get.bind fun _ _ => .branch hb.queryText hlist fun inner hinner => ?_
  refine (keepsClean_expect .closing).bind fun _ _ => (keepsClean_accept .period).bind fun _ _ =>
    .ite ?_ (.pure (by simp_all))
  exact keepsClean_word.bind fun name hname => .pure (by simp_all +decide [hname.written])

theorem keepsClean_operandAtMost (n : Nat) : KeepsClean (operandAtMost b n) := by
  induction n with
  | zero => exact keepsClean_fail
  | succ n ih =>
    -- the token decides on the form only if no typed text is there
    refine keepsClean_typedText.attempt.bind fun text htext => ?_
    cases text with
    | some text => exact .pure (clean_some.1 htext)
    | none =>
      have htoken : KeepsClean (take some : Reader Token) :=
        keepsClean_take fun t t' ht h => by cases h; exact ht
      refine htoken.bind fun t ht => ?_
      split
      · exact keepsClean_wordOperand hb ih ht
      · exact .pure (clean_string.2 (plain_number (ht _ List.mem_cons_self) _))
      · exact .pure (clean_string.2 (plain_quoted_text (ht _ List.mem_cons_self)))
      · exact .pure ht
      · exact keepsClean_placeholderName.bind fun name hname => .pure (by simp_all +decide)
      · exact keepsClean_placeholderName.bind fun name hname => .pure (by simp_all +decide)
      · exact (hb.expr _).bind fun e he => .pure (by simp_all +decide)
      · exact (hb.expr _).bind fun e he => .pure (by simp_all +decide)
      · exact keepsClean_groupOperand hb
      · exact keepsClean_fail

/-! ### Operators and what follows them -/

theorem keepsClean_rangeOperand (level : Nat) : KeepsClean (rangeOperand b level) := by
  refine keepsClean_get.bind fun _ _ => .otherwise keepsClean_fail (.when (keepsClean_expect _) ?_)
  refine keepsClean_get.bind fun _ _ => (hb.expr level).bind fun text htext => keepsClean_get.bind
    fun _ _ => .when (keepsClean_expect _) (.pure (.ite htext ?_))
  simpa using htext

omit hb in
theorem plain_of_operator? {t : Token} {level : Nat} {op : String}
    (h : t.operator? = some (level, op)) : Plain op := by
  unfold Token.operator? at h
  split at h
  · rename_i s
    cases s <;> cases h <;> decide
  · unfold Keyword.operator? at h
    split at h <;> cases h <;> decide
  · cases h

theorem keepsClean_afterOperator {left op : String} (hleft : Plain left) (level : Nat) (hop : Plain op) :
    KeepsClean (afterOperator b left level op) := by
  refine (keepsClean_acceptOneOf (by decide)).bind fun quantifier hquantifier => ?_
  cases quantifier with
  | none => exact (hb.expr level).bind fun right hright => .pure (by simp_all)
  | some quantifier =>
    exact (keepsClean_rangeOperand hb level).bind fun right hright =>
      .otherwise keepsClean_fail (.pure (by simp_all))

theorem keepsClean_isForm {left : String} (hleft : Plain left) : KeepsClean (isForm b left) := by
  refine (keepsClean_acceptWord .NOT).bind fun negated _ => ?_
  have hword : Plain (if negated then "IS NOT" else "IS") := by cases negated <;> decide
  refine (keepsClean_acceptOneOf (by decide)).bind fun test htest => ?_
  cases test with
  | some test => exact .pure (by simp_all)
  | none =>
    exact (keepsClean_acceptWords _).bind fun _ _ =>
      .otherwise keepsClean_fail (hb.anyExpr.bind fun e he => .pure (by simp_all +decide))

theorem keepsClean_inForm {left : List String} (hleft : Clean left) : KeepsClean (inForm b left) := by
  refine Ensures.bind (KeepsClean.parens ?_) fun items hitems => .pure (by simp_all +decide)
  exact keepsClean_get.bind fun _ _ =>
    .ite hb.queryText (hb.anyExpr.list.map fun _ h => clean_string.2 (plain_listed.2 h))

theorem keepsClean_betweenForm {left : List String} (hleft : Clean left) :
    KeepsClean (betweenForm b left) :=
  (hb.expr _).bind fun low hlow => (keepsClean_expectWord .AND).bind fun _ _ =>
    (hb.expr _).bind fun high hhigh => .pure (by simp_all +decide)

theorem keepsClean_patternForm {left : List String} (hleft : Clean left) : KeepsClean (patternForm b left) := by
  refine (hb.expr _).bind fun pattern hpattern => (keepsClean_text.after _).bind fun escape hescape =>
    .pure ?_
  cases escape <;> simp_all +decide

theorem keepsClean_likeForm {left : List String} (hleft : Clean left) {word : String}
    (hword : Plain word) : KeepsClean (likeForm b left word) := by
  have hquantified : Clean (left ++ [word, "ANY"]) := by simp_all +decide
  exact (keepsClean_acceptWord .ANY).bind fun _ _ =>
    .ite (keepsClean_patternForm hb hquantified) (keepsClean_patternForm hb (by simp_all))

theorem keepsClean_regexForm {left : List String} (hleft : Clean left) {word : String}
    (hword : Plain word) : KeepsClean (regexForm b left word) :=
  (hb.expr _).bind fun pattern hpattern => .pure (by simp_all)

theorem keepsClean_testForm {left : String} (hleft : Plain left) : KeepsClean (testForm b left) := by
  refine (keepsClean_acceptWord .NOT).bind fun negated _ => ?_
  have hleft : Clean (if negated then [left, "NOT"] else [left]) :=
    .ite (by simp_all +decide) (by simp_all)
  refine (keepsClean_acceptWord .IN).bind fun _ _ => .ite (keepsClean_inForm hb hleft) ?_
  refine (keepsClean_acceptWord .BETWEEN).bind fun _ _ => .ite (keepsClean_betweenForm hb hleft) ?_
  refine (keepsClean_acceptWord .LIKE).bind fun _ _ =>
    .ite (keepsClean_likeForm hb hleft (by decide)) ?_
  refine (keepsClean_acceptWord .ILIKE).bind fun _ _ =>
    .ite (keepsClean_likeForm hb hleft (by decide)) ?_
  refine (keepsClean_acceptWord .RLIKE).bind fun _ _ =>
    .ite (keepsClean_regexForm hb hleft (by decide)) ?_
  refine (keepsClean_acceptWord .REGEXP).bind fun _ _ =>
    .ite (keepsClean_regexForm hb hleft (by decide)) ?_
  exact (keepsClean_acceptWords _).bind fun _ _ =>
    .ite (keepsClean_patternForm hb (clean_append.2 ⟨hleft, by decide⟩)) keepsClean_fail

theorem keepsClean_operation {left : String} (hleft : Plain left) (level : Nat) :
    KeepsClean (operation b left level) := by
  refine (keepsClean_accept .doubleColon).bind fun _ _ => .ite ?_ ?_
  · exact keepsClean_dataType.bind fun type htype => .pure (by simp_all +decide)
  · refine keepsClean_get.bind fun ts _ => ?_
    split
    · rename_i op h
      obtain ⟨t, -, hop⟩ := Option.bind_eq_some_iff.1 h
      exact keepsClean_tail.bind fun _ _ =>
        keepsClean_afterOperator hb hleft level (plain_of_operator? hop)
    · exact (keepsClean_acceptWord .IS).bind fun _ _ =>
        .ite (keepsClean_isForm hb hleft) (keepsClean_testForm hb hleft)

theorem keepsClean_operationsAtMost (level n : Nat) {left : String} (hleft : Plain left) :
    KeepsClean (operationsAtMost b level n left) := by
  induction n generalizing left with
  | zero => exact .pure (clean_string.2 hleft)
  | succ n ih =>
    refine keepsClean_get.bind fun _ _ => .ite (.pure (clean_string.2 hleft)) ?_
    exact (keepsClean_operation hb hleft _).bind fun longer hlonger => ih (clean_string.1 hlonger)

theorem keepsClean_expression (level : Nat) : KeepsClean (expression b level) :=
  keepsClean_get.bind fun _ _ => (keepsClean_operandAtMost hb _).bind fun _ hfirst =>
    keepsClean_operationsAtMost hb level _ (clean_string.1 hfirst)

end

end QueryTemplate.Sql
