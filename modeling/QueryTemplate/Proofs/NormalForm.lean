import QueryTemplate.Proofs.Acceptance
import QueryTemplate.Proofs.ColumnNames
import QueryTemplate.Proofs.Sql.Plain.Lines

/-!
# Definitions are normal forms

A definition can be written as a template again: its expressions with their names and types as aliases, and
the text of its clauses on lines of their own. Of a plain template this gives the definition back.

* **`Field.decode_label`**: a name and a tag are read from the alias that they make up.
* **`Definition.template`**: the template of a definition.
* **`ofSql_template`**: it declares the same definition, if a plain template declared that one.
-/

namespace QueryTemplate

open QueryTemplate.Sql RulePiece Running

/-! ## Aliases with tags -/

namespace Field

/-- The alias of a field in a template. -/
def label (f : Field) : String :=
  f.name ++ "_" ++ f.type.tag

theorem toList_label (f : Field) : f.label.toList = f.name.toList ++ '_' :: f.type.tag.toList := by
  rw [label, String.toList_append, String.toList_append, List.append_assoc]
  rfl

/-- A name without quote marks and its type are what the alias stands for. -/
theorem decode_label {f : Field} (h : ∀ c ∈ f.name.toList, Alias.isQuoteMark c = false) :
    Alias.decode f.label = .ok (f.name, f.type) := by
  have hread := Alias.decode_written f.type (Text.trimmed_of_not h) Alias.marks_nil Alias.marks_nil Alias.marks_nil
  have hlabel : f.label = String.ofList (f.name.toList ++ '_' :: f.type.tag.toList) := by
    rw [← toList_label, String.ofList_toList]
  rw [String.ofList_toList, List.nil_append, List.nil_append, List.append_nil, ← hlabel] at hread
  exact hread

theorem isPlainWord_label {f : Field} (h : IsPlainWord f.name.toList) : IsPlainWord f.label.toList := by
  obtain ⟨c, cs, hname, hstart, hat, hhash, hparts⟩ := h
  have htag : ∀ d ∈ '_' :: f.type.tag.toList, isWordPart d = true := by
    cases f.type <;> decide
  refine ⟨c, cs ++ '_' :: f.type.tag.toList, by rw [toList_label, hname]; rfl, hstart, hat, hhash, fun d hd => ?_⟩
  rcases List.mem_append.1 hd with hd | hd
  · exact hparts d hd
  · exact htag d hd

/-- The item that declares a field. -/
def selectItem (f : Field) : SelectItem :=
  ⟨f.expression, some ⟨f.label, none⟩⟩

end Field

/-! ## The template of a definition -/

namespace Definition

/-- The template of a definition. -/
def template (d : Definition) : String :=
  "\n".intercalate (["SELECT " ++ ", ".intercalate (d.fields.map fun f => f.expression ++ " AS " ++ f.label),
      "FROM " ++ d.schema]
    ++ d.condition.toList.map ("WHERE " ++ ·) ++ d.order.toList.map ("ORDER BY " ++ ·))

/-- What a definition says, with its tables told apart. -/
def outline (d : Definition) (sources : List Source) : Outline where
  items := d.fields.map Field.selectItem
  sources
  condition := d.condition
  order := d.order

theorem clauseLine_eq (ks : List Keyword) (text : Option String) {word : String}
    (h : ∀ x, keyed ks x = word ++ x) : clauseLine ks text = String.join ((text.toList.map (word ++ ·)).map ("\n" ++ ·)) := by
  cases text with
  | none => rfl
  | some x => simp [clauseLine, h]

theorem written_selectItem (f : Field) : f.selectItem.written = f.expression ++ " AS " ++ f.label := by
  apply String.toList_inj.1
  simp [Field.selectItem, SelectItem.written, Ident.written]

/-- The template has the text of the outline. -/
theorem template_eq_text {d : Definition} {sources : List Source}
    (h : d.schema = ",\n".intercalate (sources.map Source.lines)) : d.template = (d.outline sources).text := by
  have hselect (x : String) : keyed [.SELECT] x = "SELECT " ++ x := by
    simp [keyed, Keyword.spelling, Keyword.table, ← String.append_assoc]
  have hfrom (x : String) : keyed [.FROM] x = "FROM " ++ x := by
    simp [keyed, Keyword.spelling, Keyword.table, ← String.append_assoc]
  have hwhere (x : String) : keyed [.WHERE] x = "WHERE " ++ x := by
    simp [keyed, Keyword.spelling, Keyword.table, ← String.append_assoc]
  have horder (x : String) : keyed [.ORDER, .BY] x = "ORDER BY " ++ x := by
    simp [keyed, Keyword.spelling, Keyword.table, ← String.append_assoc]
  have hitems : (d.fields.map Field.selectItem).map SelectItem.written
      = d.fields.map fun f => f.expression ++ " AS " ++ f.label := by
    rw [List.map_map]
    exact List.map_congr_left fun f _ => written_selectItem f
  rw [template, Outline.text, outline, hselect, hfrom, clauseLine_eq _ _ hwhere, clauseLine_eq _ _ horder, hitems, ← h]
  rw [List.cons_append, List.cons_append, intercalate_eq_join]
  simp [String.join_cons, String.join_append, String.append_assoc, listed]

end Definition

/-! ## What a plain template declares -/

theorem Sql.Commas.forall {α : Type} {P : List Token → α → Prop} {Q : α → Prop} (hone : ∀ {ts a}, P ts a → Q a)
    {ts : List Token} {as : List α} (h : Commas P ts as) : ∀ a ∈ as, Q a := by
  induction h with
  | one h => exact List.forall_mem_singleton.2 (hone h)
  | cons h _ ih => exact List.forall_mem_cons.2 ⟨hone h, ih⟩

theorem Sql.Commas.ne_nil {α : Type} {P : List Token → α → Prop} {ts : List Token} {as : List α}
    (h : Commas P ts as) : as ≠ [] := by
  cases h <;> exact List.cons_ne_nil _ _

/-- The tables stand in a schema as they do in a template. -/
theorem Sql.IsPlain.map_lines {ts : List Token} {o : Outline} (h : IsPlain ts o) :
    (o.sources.map fun s => "\n".intercalate (s.table :: s.joins.map Text.trim)) = o.sources.map Source.lines := by
  obtain ⟨-, -, -, -, hsources, -, -, -, -⟩ := h
  have htrim {us : List Token} {s : Source} (h : PlainSource us s) : s.joins.map Text.trim = s.joins := by
    obtain ⟨-, hjoins⟩ := h
    exact hjoins.map_trim
  have hall := hsources.forall (P := PlainSource) (Q := fun s => s.joins.map Text.trim = s.joins) htrim
  exact List.map_congr_left fun s hs => by rw [hall s hs, Source.lines]

/-- The definition says what the outline says. -/
structure Definition.Follows (d : Definition) (o : Outline) : Prop where
  fields : List.Forall₂ SelectItem.Gives o.items d.fields
  schema : d.schema = ",\n".intercalate (o.sources.map Source.lines)
  condition : d.condition = o.condition
  order : d.order = o.order

/-- A plain template declares what its outline says. -/
theorem Sql.IsPlain.ofSqlWith_eq_ok_iff {read : String → Option (List Statement)} (hread : ReadsPlain read)
    {template : String} {ts : List Token} {o : Outline} (h : IsPlain ts o) (hts : lex template.toList = some ts)
    {d : Definition} : Definition.ofSqlWith read template = .ok d ↔ d.Follows o := by
  obtain ⟨order, pages, horder, hstatements⟩ := hread hts h
  have hterms : (if order = [] then none else some (", ".intercalate order)) = o.order := by
    rw [← horder]
    cases order <;> rfl
  rw [Definition.ofSqlWith_of_statements hstatements, Definition.ofStatements_eq_ok_iff]
  constructor
  · rintro ⟨q, s, hq, hplain, hparts⟩
    cases hq
    cases hplain.body
    exact ⟨hparts.fields, by rw [hparts.schema, h.map_lines], hparts.condition, by rw [hparts.order, ← hterms]; rfl⟩
  · rintro ⟨hfields, hschema, hcondition, hdorder⟩
    have hsources : o.sources ≠ [] := by
      obtain ⟨-, -, -, -, hsources, -, -, -, -⟩ := h
      exact hsources.ne_nil
    exact ⟨_, _, rfl, ⟨rfl, rfl, rfl, rfl, rfl, rfl, hsources⟩, hfields, by rw [hschema, ← h.map_lines], hcondition,
      by rw [hdorder, ← hterms]; rfl⟩

/-! ## The template declares the definition -/

namespace Definition

theorem Follows.renames {d : Definition} {o : Outline} (h : d.Follows o)
    (hwords : ∀ f ∈ d.fields, IsPlainWord f.name.toList) :
    List.Forall₂ (fun other item => item.Renames other) o.items (d.fields.map Field.selectItem) := by
  refine List.forall₂_map_right_iff.2 ?_
  have hfields : List.Forall₂ (fun f item => IsPlainWord f.name.toList ∧ item.Gives f) d.fields o.items :=
    (List.forall₂_and_left _ _).2 ⟨hwords, h.fields.flip⟩
  exact hfields.flip.imp fun item f hf => ⟨hf.2.expression, _, rfl, Field.isPlainWord_label hf.1⟩

/-- The template of a definition has the outline of the definition. -/
theorem follows_outline {d : Definition} {sources : List Source}
    (hwords : ∀ f ∈ d.fields, IsPlainWord f.name.toList)
    (h : d.schema = ",\n".intercalate (sources.map Source.lines)) : d.Follows (d.outline sources) := by
  refine ⟨?_, h, rfl, rfl⟩
  refine List.forall₂_map_left_iff.2 (List.forall₂_same.2 fun f hf => ?_)
  exact ⟨rfl, _, rfl, Field.decode_label (isQuoteMark_of_isPlainWord (hwords f hf))⟩

end Definition

/-! ## Small derivations -/

namespace Sql

theorem derives_append {ps qs : List RulePiece} {ts us : List Token} {x y : String} (h : Derives ps ts x)
    (hy : Derives qs us y) : Derives (ps ++ qs) (ts ++ us) (x ++ y) := by
  induction h with
  | nil => simpa using hy
  | atom h _ ih => simpa [String.append_assoc] using Derives.atom h ih
  | present h _ ih => simpa [String.append_assoc] using Derives.present h ih
  | absent _ ih => simpa [String.append_assoc] using Derives.absent ih
  | dropped h _ ih => exact .dropped h ih
  | ghost _ ih => exact .ghost ih
  | blank _ ih => simpa [String.append_assoc] using Derives.blank ih
  | sub r inner _ _ ih => simpa [String.append_assoc] using Derives.sub r inner ih

theorem derives_of_rule {k : Kind} {qs : List RulePiece} {ts : List Token} {x : String} (r : Rule k qs)
    (h : Derives qs ts x) : Derives [sub k] ts x := by
  simpa using Derives.sub r h .nil

/-- An operand alone is an expression. -/
theorem derives_expr {n l e : Nat} {s : Start} {ts : List Token} {x : String} (h : Derives [sub (.operand n e s)] ts x)
    (he : e ≤ 101 + 2 * l) : Derives [sub (.expr (n + 1) l e s)] ts x := by
  have hoperations : Derives [sub (.operations n l e e)] [] "" :=
    derives_of_rule (.noOperation (Nat.le_refl _) he) .nil
  have hboth : Derives [sub (.operand n e s), sub (.operations n l e e)] ts x := by
    simpa using derives_append h hoperations
  exact derives_of_rule .expr hboth

/-- A word that has no meaning of its own is a name. -/
theorem spells_name {keywords : List Keyword} {types : List TypeShape} {s : String} (h : IsPlainWord s.toList)
    (hkeyword : Keyword.ofCapitals? (Keyword.inCapitals s) = none)
    (htype : (Token.word ⟨s, none⟩ none).knownType? = none) :
    (Atom.name keywords types).Spells (.word ⟨s, none⟩ none) s :=
  ⟨_, _, hkeyword ▸ .word h, rfl, rfl, nofun, fun _ _ hknown => by rw [htype] at hknown; cases hknown⟩

theorem derives_column {n l e : Nat} {s : Start} {table column : Token} {x y : String}
    (htable : (Atom.name (Keyword.reserved ++ Keyword.otherTypes) []).Spells table x)
    (hcolumn : (Atom.name [] TypeShape.all).Spells column y) (he : e ≤ 101 + 2 * l) :
    Derives [sub (.expr (n + 1) l e s)] [table, .symbol .period, column] (x ++ ("." ++ y)) := by
  have hpath : Derives [sub .path] [.symbol .period, column] ("." ++ y) := by
    refine derives_of_rule .pathPart (.atom ⟨rfl, rfl⟩ ?_)
    simpa using Derives.atom hcolumn (derives_of_rule .pathEnd .nil)
  exact derives_expr (derives_of_rule .untyped (.atom htable hpath)) he

theorem derives_table {n : Nat} {named : Bool} {table : Token} {x : String}
    (h : (Atom.name Keyword.noTables TypeShape.all).Spells table x) : Derives [sub (.table n named)] [table] x := by
  refine derives_of_rule .table ?_
  simpa using Derives.atom h (.sub .pathEnd .nil (.sub .noLabel .nil .nil))

/-- A join of all rows, whether it is called an inner one or not. -/
theorem derives_join {n : Nat} {inner join : Token} {us : List Token} {x : String} (hinner : inner.IsKeyword .INNER)
    (hjoin : join.IsKeyword .JOIN) (h : Derives [sub (.table n false)] us x) :
    Derives [sub (.join n)] (inner :: join :: us) ("JOIN " ++ x) := by
  have htable : Derives [sub (.table n false), sub (.joinCondition n)] us x := by
    simpa using derives_append h (derives_of_rule .noCondition .nil)
  have hpieces : Derives [key .JOIN, .blank, sub (.table n false), sub (.joinCondition n)] (join :: us)
      ("JOIN" ++ (" " ++ x)) := .atom ⟨hjoin, rfl⟩ (.blank htable)
  refine derives_of_rule .join (.dropped hinner ?_)
  simpa [← String.append_assoc] using hpieces

end Sql

/-- **A definition is a normal form.** Whatever reads plain templates as they are to be read: the template of
what a plain template declares declares the same. -/
theorem ofSql_template {read : String → Option (List Statement)} (hread : ReadsPlain read) {template : String}
    {ts : List Token} {o : Outline} {d : Definition} (hts : lex template.toList = some ts) (hplain : IsPlain ts o)
    (hd : Definition.ofSqlWith read template = .ok d) (hwords : ∀ f ∈ d.fields, IsPlainWord f.name.toList) :
    Definition.ofSqlWith read d.template = .ok d := by
  have hfollows : d.Follows o := (hplain.ofSqlWith_eq_ok_iff hread hts).1 hd
  obtain ⟨us, hus, houtline⟩ := hplain.lex_text (hfollows.renames hwords)
  have hsame : ({ o with items := d.fields.map Field.selectItem } : Outline) = d.outline o.sources := by
    rw [Definition.outline, hfollows.condition, hfollows.order]
  rw [hsame] at hus houtline
  rw [← Definition.template_eq_text hfollows.schema] at hus
  exact (houtline.ofSqlWith_eq_ok_iff hread hus).2 (Definition.follows_outline hwords hfollows.schema)

/-- A template with words that the normal form drops, a sign, and a join that goes to a line of its own. -/
theorem ofSql_template_joined :
    let template := "select -a.x as x_int from a inner join b where a.y"
    ∃ ts o d, ReadsPlain statements? ∧ lex template.toList = some ts ∧ IsPlain ts o
      ∧ Definition.ofSql template = .ok d
      ∧ (∀ f ∈ d.fields, IsPlainWord f.name.toList)
      ∧ d.template = "SELECT -a.x AS x_int\nFROM a\nJOIN b\nWHERE a.y" ∧ Definition.ofSql d.template = .ok d := by
  intro template
  have hword : ∀ s ∈ ["a", "b", "x", "y"], IsPlainWord s.toList := by decide
  have hname (s : String) (hs : s ∈ ["a", "b", "x", "y"]) {keywords : List Keyword} {types : List TypeShape} :
      (Atom.name keywords types).Spells (.word ⟨s, none⟩ none) s := by
    have hbare : ∀ s ∈ ["a", "b", "x", "y"], Keyword.ofCapitals? (Keyword.inCapitals s) = none
        ∧ (Token.word ⟨s, none⟩ none).knownType? = none := by decide
    exact spells_name (hword s hs) (hbare s hs).1 (hbare s hs).2
  have hcolumn (s : String) (hs : s ∈ ["a", "b", "x", "y"]) {n l e : Nat} {start : Start} (he : e ≤ 101 + 2 * l) :
      Derives [sub (.expr (n + 1) l e start)] [.word ⟨"a", none⟩ none, .symbol .period, .word ⟨s, none⟩ none]
        ("a" ++ ("." ++ s)) :=
    derives_column (hname "a" (by decide)) (hname s hs) he
  have hitem : PlainItem [.symbol .minus, .word ⟨"a", none⟩ none, .symbol .period, .word ⟨"x", none⟩ none,
      .word ⟨"as", none⟩ (some .AS), .word ⟨"x_int", none⟩ none] ⟨"-a.x", some ⟨"x_int", none⟩⟩ := by
    have hminus : Derives [sub (.expr innerLevels 0 soft .free)] [.symbol .minus, .word ⟨"a", none⟩ none,
        .symbol .period, .word ⟨"x", none⟩ none] ("-" ++ ("a" ++ ("." ++ "x"))) :=
      derives_expr (derives_of_rule (.minus (by decide)) (.atom ⟨rfl, rfl⟩ (hcolumn "x" (by decide) (by decide))))
        (by decide)
    exact .named (Nat.le_refl _) hminus ⟨"as", rfl, by decide⟩ rfl
  have hjoins : PlainJoins [.word ⟨"inner", none⟩ (some .INNER), .word ⟨"join", none⟩ (some .JOIN),
      .word ⟨"b", none⟩ none] ["JOIN b"] := by
    have htable : Derives [sub (.table innerLevels false)] [.word ⟨"b", none⟩ none] "b" :=
      derives_table (hname "b" (by decide))
    exact .cons (derives_join ⟨"inner", rfl, by decide⟩ ⟨"join", rfl, by decide⟩ htable) .nil
  have hcondition : PlainClause [.WHERE] (.expr innerLevels 0 soft .free) [.word ⟨"where", none⟩ (some .WHERE),
      .word ⟨"a", none⟩ none, .symbol .period, .word ⟨"y", none⟩ none] (some "a.y") :=
    .present (.cons ⟨"where", rfl, by decide⟩ .nil) (hcolumn "y" (by decide) (by decide))
  have hends : ∀ t ∈ ([] : List Token), t = .symbol .semicolon := nofun
  have hplain := IsPlain.mk (o := ⟨[⟨"-a.x", some ⟨"x_int", none⟩⟩], [⟨"a", ["JOIN b"]⟩], some "a.y", none⟩)
    ⟨"select", rfl, by decide⟩ (.inl rfl) (.one hitem) ⟨"from", rfl, by decide⟩
    (.one (.mk (derives_table (hname "a" (by decide))) hjoins)) hcondition .absent (derives_of_rule .noPages .nil) hends
  have hread : (fun d : Definition => (d.fields, d.template)) <$> Definition.ofSql template
      = .ok ([⟨"-a.x", "x", .int⟩], "SELECT -a.x AS x_int\nFROM a\nJOIN b\nWHERE a.y") := by
    decide +kernel
  obtain ⟨d, hd, hparts⟩ := Except.map_eq_ok_iff.1 hread
  obtain ⟨hfields, htemplate⟩ := Prod.mk.inj hparts
  have hwords : ∀ f ∈ d.fields, IsPlainWord f.name.toList := by
    intro f hf
    rw [hfields, List.mem_singleton] at hf
    exact hf ▸ hword "x" (by decide)
  refine ⟨_, _, d, readsPlain_statements, ?hts, hplain, hd, hwords, htemplate,
    ofSql_template readsPlain_statements ?hts hplain hd hwords⟩
  decide +kernel

/-- Two signs stand together in the normal form, where they start a comment. -/
theorem template_signs_are_comment :
    ∃ d, Definition.ofSql "SELECT - -a.x AS x_int FROM a" = .ok d ∧ (∀ f ∈ d.fields, IsPlainWord f.name.toList)
      ∧ d.template = "SELECT --a.x AS x_int\nFROM a" ∧ Definition.ofSql d.template = .error .templateSyntax := by
  have hread : (fun d : Definition => (d.fields, d.template)) <$> Definition.ofSql "SELECT - -a.x AS x_int FROM a"
      = .ok ([⟨"--a.x", "x", .int⟩], "SELECT --a.x AS x_int\nFROM a") := by
    decide +kernel
  have hfails : (statements? "SELECT --a.x AS x_int\nFROM a").isNone = true := by
    decide +kernel
  obtain ⟨d, hd, hparts⟩ := Except.map_eq_ok_iff.1 hread
  obtain ⟨hfields, htemplate⟩ := Prod.mk.inj hparts
  refine ⟨d, hd, fun f hf => ?_, htemplate, ?_⟩
  · rw [hfields, List.mem_singleton] at hf
    rw [hf]
    decide
  · rw [htemplate, Definition.ofSql, Definition.ofSqlWith, Option.isNone_iff_eq_none.1 hfails]

end QueryTemplate
