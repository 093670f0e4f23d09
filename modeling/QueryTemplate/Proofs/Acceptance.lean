import QueryTemplate.Proofs.FieldNames

/-!
# Which templates are accepted

A template is accepted as a whole or not at all. What is asked of it is looked at in a fixed order, and
the first thing that is wrong is the error.

* **`Definition.templateFaults`** — everything that is wrong with the statements of a template, in the
  order it is looked for: their number, the kind of statement, the clauses of the query, the items of
  the select list, the FROM clause, and the names of the fields last.
* **`Definition.reports_ofStatements`** — the first of the faults is reported, and without any there
  is a definition.
* **`accepted_template_iff`** — which templates have a definition and what it is made of, and which
  error every other template has.
-/

namespace QueryTemplate

open QueryTemplate.Sql

/-! ## Faults -/

/-- A requirement that is not met is a fault. -/
def faultUnless (met : Prop) [Decidable met] (e : Error) : List Error :=
  if met then [] else [e]

namespace Alias

/-- The tag in an alias. -/
def tag (raw : String) : String :=
  String.ofList (split (unquote raw.toList)).2

/-- What is wrong with an alias: its tag is that of no type. -/
def fault? (raw : String) : Option Error :=
  if tag raw ∈ ValueType.all.map ValueType.tag then none else some (.unsupportedType (tag raw))

end Alias

/-- What is wrong with an item: it has no alias, or the tag in its alias is that of no type. -/
def Sql.SelectItem.fault? (item : SelectItem) : Option Error :=
  match item.label with
  | none => some (.missingAlias item.expression)
  | some label => Alias.fault? label.text

namespace Definition

/-- What is wrong with a selection. Names are those of the items that have one. -/
def selectFaults (s : Select) : List Error :=
  faultUnless (s.distinct = none ∧ s.top = none)
      (.unsupportedStatement "DISTINCT/TOP is not supported in query templates")
    ++ faultUnless (s.grouping = none ∧ s.having = none)
      (.unsupportedStatement "GROUP BY/HAVING is not supported in query templates")
    ++ s.items.filterMap SelectItem.fault?
    ++ faultUnless (s.sources ≠ []) (.unsupportedStatement "query template has no FROM clause")
    ++ Field.nameFaults [] (s.items.filterMap fun item => (Field.ofItem item).toOption)

/-- What is wrong with the part of a query that gives its rows. -/
def bodyFaults : Body → List Error
  | .select s => selectFaults s
  | .combine op .. => [.unsupportedStatement ("set operation " ++ op.sql ++ " is not supported")]
  | body => [.unsupportedStatement ("only plain SELECT is supported: " ++ body.written)]

/-- What is wrong with a statement. -/
def statementFaults : Statement → List Error
  | .query q =>
    faultUnless (q.tables = none)
      (.unsupportedStatement "WITH clauses are not supported in query templates")
    ++ bodyFaults q.body
  | .other text => [.unsupportedStatement ("only SELECT is supported: " ++ text)]

/-- What is wrong with the statements of a template. -/
def templateFaults (statements : List Statement) : List Error :=
  faultUnless (statements.length = 1) (.unsupportedStatement
      ("expected a single SELECT statement, found " ++ toString statements.length ++ " statements"))
    ++ statements.flatMap statementFaults

end Definition

/-! ## The first fault is reported -/

theorem Alias.reports_decode (raw : String) : (decode raw).Reports (fault? raw).toList := by
  unfold decode fault? tag
  generalize split (unquote raw.toList) = parts
  cases htype : ValueType.ofTag? (String.ofList parts.2) with
  | none =>
    have hunknown : String.ofList parts.2 ∉ ValueType.all.map ValueType.tag := by
      intro hmem
      obtain ⟨type, _, htag⟩ := List.mem_map.1 hmem
      rw [ValueType.ofTag?_eq_some_iff.2 htag] at htype
      cases htype
    rw [if_neg hunknown]
    dsimp only
    rw [htype]
    rfl
  | some type =>
    have hknown : String.ofList parts.2 ∈ ValueType.all.map ValueType.tag :=
      List.mem_map.2 ⟨type, ValueType.mem_all type, ValueType.ofTag?_eq_some_iff.1 htype⟩
    rw [if_pos hknown]
    dsimp only
    rw [htype]
    rfl

theorem Field.reports_ofItem (item : SelectItem) : (ofItem item).Reports item.fault?.toList := by
  unfold ofItem SelectItem.fault?
  cases item.label with
  | none => rfl
  | some label => exact (Alias.reports_decode label.text).map _

namespace Definition

/-- A requirement in front of a step. -/
theorem reports_of_unless {α : Type} {met : Prop} [Decidable met] {e : Error} {faults : List Error}
    {x : Except Error α} (hmet : met → x.Reports faults) (hunmet : ¬ met → x = .error e) :
    x.Reports (faultUnless met e ++ faults) := by
  unfold faultUnless
  by_cases h : met
  · rw [if_pos h]
    exact hmet h
  · rw [if_neg h, hunmet h]
    rfl

/-- A selection without the clauses that are refused. -/
theorem ofSelect_of_plain {s : Select} (hcounted : s.distinct = none ∧ s.top = none)
    (hgrouped : s.grouping = none ∧ s.having = none) (order : List String) :
    ofSelect s order =
      s.items.mapM Field.ofItem >>= fun fields =>
      schemaText s.sources >>= fun schema =>
      ofParts fields schema s.condition (if order.isEmpty then none else some (listed order)) := by
  dsimp only [ofSelect]
  rw [hcounted.1, hcounted.2, hgrouped.1, hgrouped.2]
  rfl

theorem reports_schemaText (sources : List Source) :
    (schemaText sources).Reports (faultUnless (sources ≠ [])
      (.unsupportedStatement "query template has no FROM clause")) := by
  cases sources with
  | nil => rfl
  | cons s rest => rfl

theorem reports_ofSelect (s : Select) (order : List String) :
    (ofSelect s order).Reports (selectFaults s) := by
  unfold selectFaults
  simp only [List.append_assoc]
  refine reports_of_unless (fun hcounted => reports_of_unless (fun hgrouped => ?_) fun h => ?_) fun h => ?_
  · rw [ofSelect_of_plain hcounted hgrouped]
    refine (Except.reports_mapM Field.reports_ofItem s.items).bind fun fields hfields => ?_
    -- the names that are looked at are those of the fields that were just made
    have hnames : s.items.filterMap (fun item => (Field.ofItem item).toOption) = fields :=
      Except.filterMap_of_mapM (fun _ _ h => by rw [h]; rfl) hfields
    rw [hnames]
    exact (reports_schemaText s.sources).bind fun schema _ => reports_ofParts fields schema _ _
  · have hgrouped : (s.grouping.isSome || s.having.isSome) = true := by
      cases hg : s.grouping <;> cases hh : s.having <;> simp_all
    dsimp only [ofSelect]
    rw [hcounted.1, hcounted.2, hgrouped]
    rfl
  · have hcounted : (s.distinct.isSome || s.top.isSome) = true := by
      cases hd : s.distinct <;> cases ht : s.top <;> simp_all
    dsimp only [ofSelect]
    rw [hcounted]
    rfl

theorem reports_ofQuery (q : Query) : (ofQuery q).Reports (statementFaults (.query q)) := by
  refine reports_of_unless (fun htables => ?_) fun htables => ?_
  · unfold ofQuery
    rw [if_neg (by rw [htables]; exact Bool.false_ne_true)]
    cases q.body with
    | select s => exact reports_ofSelect s q.order
    | query text => rfl
    | values text => rfl
    | combine op multiplicity left right => rfl
  · unfold ofQuery
    rw [if_pos (Option.isSome_iff_ne_none.2 htables)]

/-- **The first fault of a template is its error.** -/
theorem reports_ofStatements (statements : List Statement) :
    (ofStatements statements).Reports (templateFaults statements) := by
  refine reports_of_unless (fun hone => ?_) fun hmany => ?_
  · obtain ⟨s, rfl⟩ := List.length_eq_one_iff.1 hone
    rw [List.flatMap_singleton]
    cases s with
    | query q => exact reports_ofQuery q
    | other text => rfl
  · unfold ofStatements
    split
    · exact absurd rfl hmany
    · exact absurd rfl hmany
    · rfl

end Definition

/-! ## What an accepted template declares -/

/-- The field `f` is what the item declares: its expression as it is, with the name and the type that
its alias stands for. -/
structure Sql.SelectItem.Gives (item : SelectItem) (f : Field) : Prop where
  expression : f.expression = item.expression
  decoded : ∃ label, item.label = some label ∧ Alias.decode label.text = .ok (f.name, f.type)

theorem Field.ofItem_eq_ok_iff {item : SelectItem} {f : Field} :
    ofItem item = .ok f ↔ item.Gives f := by
  unfold ofItem
  cases hlabel : item.label with
  | none =>
    constructor
    · intro h
      cases h
    · rintro ⟨_, label, hsome, _⟩
      rw [hlabel] at hsome
      cases hsome
  | some label =>
    constructor
    · intro h
      obtain ⟨decoded, hdecoded, rfl⟩ := Except.map_eq_ok_iff.1 h
      exact ⟨rfl, label, hlabel, hdecoded⟩
    · rintro ⟨hexpression, label', hsome, hdecoded⟩
      rw [hlabel] at hsome
      cases hsome
      refine Except.map_eq_ok_iff.2 ⟨(f.name, f.type), hdecoded, ?_⟩
      rw [← hexpression]

namespace Definition

/-- A query that templates may be: no common tables, and a selection whose rows stand for rows of the
tables in its FROM clause. -/
structure IsPlainQuery (q : Query) (s : Select) : Prop where
  tables : q.tables = none
  body : q.body = .select s
  distinct : s.distinct = none
  top : s.top = none
  grouping : s.grouping = none
  having : s.having = none
  sources : s.sources ≠ []

/-- The definition `d` has the parts of the query: a field for each item of the select list, the tables
with a line for each join, and the text of the other clauses. -/
structure HasParts (q : Query) (s : Select) (d : Definition) : Prop where
  fields : List.Forall₂ SelectItem.Gives s.items d.fields
  schema : d.schema = ",\n".intercalate
    (s.sources.map fun source => "\n".intercalate (source.table :: source.joins.map Text.trim))
  condition : d.condition = s.condition
  order : d.order = if q.order = [] then none else some (", ".intercalate q.order)

theorem schemaText_eq_ok_iff {sources : List Source} {schema : String} :
    schemaText sources = .ok schema ↔ sources ≠ [] ∧ schema = ",\n".intercalate
      (sources.map fun source => "\n".intercalate (source.table :: source.joins.map Text.trim)) := by
  unfold schemaText
  cases sources with
  | nil => simp
  | cons s rest =>
    constructor
    · intro h
      exact ⟨List.cons_ne_nil _ _, (Except.ok.inj h).symm⟩
    · rintro ⟨_, rfl⟩
      rfl

/-- What a query declares is all there is to say about the definition. -/
theorem ofQuery_eq_ok_iff {q : Query} {d : Definition} :
    ofQuery q = .ok d ↔ ∃ s, IsPlainQuery q s ∧ HasParts q s d := by
  constructor
  · intro h
    obtain ⟨htables, s, hbody, hdeclares⟩ := exists_select_of_ofQuery h
    obtain ⟨hdistinct, htop, hgrouping, hhaving⟩ := hdeclares.plain
    obtain ⟨hsources, hschema⟩ := schemaText_eq_ok_iff.1 hdeclares.schema
    refine ⟨s, ⟨htables, hbody, hdistinct, htop, hgrouping, hhaving, hsources⟩, ?_⟩
    refine ⟨?_, hschema, hdeclares.condition, ?_⟩
    · exact (Except.mapM_eq_ok_iff.1 hdeclares.fields).imp fun _ _ => Field.ofItem_eq_ok_iff.1
    · rw [hdeclares.order]
      cases q.order <;> rfl
  · rintro ⟨s, hplain, hparts⟩
    have hfields : s.items.mapM Field.ofItem = .ok d.fields :=
      Except.mapM_eq_ok_iff.2 (hparts.fields.imp fun _ _ => Field.ofItem_eq_ok_iff.2)
    have hschema : schemaText s.sources = .ok d.schema :=
      schemaText_eq_ok_iff.2 ⟨hplain.sources, hparts.schema⟩
    have horder : d.order = if q.order.isEmpty then none else some (listed q.order) := by
      rw [hparts.order]
      cases q.order <;> rfl
    unfold ofQuery
    rw [if_neg (by rw [hplain.tables]; exact Bool.false_ne_true), hplain.body]
    show ofSelect s q.order = .ok d
    rw [ofSelect_of_plain ⟨hplain.distinct, hplain.top⟩ ⟨hplain.grouping, hplain.having⟩]
    refine Except.bind_eq_ok_iff.2 ⟨d.fields, hfields, Except.bind_eq_ok_iff.2 ⟨d.schema, hschema, ?_⟩⟩
    exact ofParts_eq_ok_iff.2 ⟨d.named, d.distinct, rfl, rfl, hparts.condition, horder⟩

theorem ofStatements_eq_ok_iff {statements : List Statement} {d : Definition} :
    ofStatements statements = .ok d ↔
      ∃ q s, statements = [.query q] ∧ IsPlainQuery q s ∧ HasParts q s d := by
  constructor
  · intro h
    unfold ofStatements at h
    split at h
    · rename_i q
      obtain ⟨s, hs⟩ := ofQuery_eq_ok_iff.1 h
      exact ⟨q, s, rfl, hs⟩
    · cases h
    · cases h
  · rintro ⟨q, s, rfl, hs⟩
    exact ofQuery_eq_ok_iff.2 ⟨s, hs⟩

end Definition

/-- **All or nothing, and in order.** Whatever reads the template: if it reads statements, there is a
definition exactly if they are one plain query, every item has an alias that can be decoded, and the
decoded names are not empty and all different. The definition then has a field for each item in order,
the tables line by line and the text of the other clauses. Otherwise the error is the first of all
faults. -/
theorem accepted_template_iff {read : String → Option (List Statement)} {template : String}
    {statements : List Statement} (h : read template = some statements) :
    ((∃ d, Definition.ofSqlWith read template = .ok d) ↔ ∃ q s fields, statements = [.query q]
      ∧ Definition.IsPlainQuery q s ∧ List.Forall₂ SelectItem.Gives s.items fields
      ∧ (∀ f ∈ fields, f.name ≠ "") ∧ (fields.map Field.name).Nodup)
    ∧ (∀ d, Definition.ofSqlWith read template = .ok d ↔ ∃ q s, statements = [.query q]
      ∧ Definition.IsPlainQuery q s ∧ Definition.HasParts q s d)
    ∧ ∀ e, Definition.ofSqlWith read template = .error e ↔
      (Definition.templateFaults statements).head? = some e := by
  rw [Definition.ofSqlWith_of_statements h]
  refine ⟨?_, fun d => Definition.ofStatements_eq_ok_iff, fun e => ?_⟩
  · constructor
    · rintro ⟨d, hd⟩
      obtain ⟨q, s, hstatements, hplain, hparts⟩ := Definition.ofStatements_eq_ok_iff.1 hd
      exact ⟨q, s, d.fields, hstatements, hplain, hparts.fields, d.named, d.distinct⟩
    · rintro ⟨q, s, fields, hstatements, hplain, hfields, hnamed, hdistinct⟩
      exact ⟨⟨fields, _, _, _, hnamed, hdistinct⟩,
        Definition.ofStatements_eq_ok_iff.2 ⟨q, s, hstatements, hplain, hfields, rfl, rfl, rfl⟩⟩
  · exact (Definition.reports_ofStatements statements).eq_error_iff

/-- Two templates: one that is accepted, and one whose items are at fault in two places and that has no
FROM clause and a name twice besides. -/
theorem accepted_template_iff_joined_and_faulty :
    let good := "SELECT a.x AS x_int, a.y AS y FROM a JOIN b ON a.k = b.k, c WHERE a.z > 1 ORDER BY a.x"
    let faulty := "SELECT a.x AS x_int, a.y, a.z AS z_text, a.w AS x_int"
    (∃ statements d q s, statements? good = some statements ∧ Definition.ofSql good = .ok d
      ∧ statements = [.query q] ∧ Definition.IsPlainQuery q s ∧ Definition.HasParts q s d
      ∧ d.fields = [⟨"a.x", "x", .int⟩, ⟨"a.y", "y", .object⟩]
      ∧ d.schema = "a\nJOIN b ON a.k = b.k,\nc" ∧ d.condition = some "a.z > 1" ∧ d.order = some "a.x")
    ∧ ∃ statements, statements? faulty = some statements
      ∧ (Definition.templateFaults statements).length = 4
      ∧ Definition.ofSql faulty = .error (.missingAlias "a.y") := by
  intro good faulty
  have hgood : (Definition.ofSql good).map (fun d => (d.fields, d.schema, d.condition, d.order)) = .ok
      ([⟨"a.x", "x", .int⟩, ⟨"a.y", "y", .object⟩], "a\nJOIN b ON a.k = b.k,\nc", some "a.z > 1",
        some "a.x") := by
    decide +kernel
  have hfaulty : (statements? faulty).map Definition.templateFaults = some [.missingAlias "a.y",
      .unsupportedType "text", .unsupportedStatement "query template has no FROM clause",
      .duplicateAlias "x"] := by
    decide +kernel
  constructor
  · obtain ⟨d, hd, hparts⟩ := Except.map_eq_ok_iff.1 hgood
    cases hread : statements? good with
    | none =>
      rw [Definition.ofSql, Definition.ofSqlWith, hread] at hd
      cases hd
    | some statements =>
      obtain ⟨q, s, hstatements, hplain, hhas⟩ := ((accepted_template_iff hread).2.1 d).1 hd
      simp only [Prod.mk.injEq] at hparts
      exact ⟨statements, d, q, s, rfl, hd, hstatements, hplain, hhas, hparts⟩
  · obtain ⟨statements, hread, hfaults⟩ := Option.map_eq_some_iff.1 hfaulty
    refine ⟨statements, hread, by rw [hfaults]; rfl, ((accepted_template_iff hread).2.2 _).2 ?_⟩
    rw [hfaults]
    rfl

end QueryTemplate
