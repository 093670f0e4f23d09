import QueryTemplate.Proofs.Sql.Texts.Query
import QueryTemplate.Proofs.Template

/-!
# Placeholders of templates

A definition keeps the texts of its template, and a statement is put together from those texts and the
predicate of the request. So the placeholders of the predicate are the only ones exactly if the pasted
texts have none, and for that it is enough that no token of the template holds a question mark. Nothing
refuses a template with placeholders of its own, and its placeholders have no values.

* **`Definition.plain_of_ofStatements`**: the texts of a definition hold no question mark that no text in
  its statements holds; and those hold none that no token of the template holds.
* **`placeholders_of_template`** counts the placeholders of a statement.
* **`template_placeholder_compiled`**: a placeholder of the template shifts those of the request.
-/

namespace QueryTemplate

open QueryTemplate.Sql

/-! ## Definitions of templates -/

theorem plain_of_subset {s t : String} (h : s.toList ⊆ t.toList) (ht : Plain t) : Plain s :=
  fun hs => ht (h hs)

theorem plain_trim {s : String} (h : Plain s) : Plain (Text.trim s) := by
  refine plain_of_subset ?_ h
  rw [Text.trim, String.toList_ofList]
  exact Text.trimBoth_subset _ _

theorem Field.plain_of_ofItem {item : SelectItem} {f : Field} (hitem : Clean item)
    (h : Field.ofItem item = .ok f) : Plain f.expression ∧ Plain f.name := by
  obtain ⟨hexpression, hlabel⟩ := clean_item.1 hitem
  unfold Field.ofItem at h
  split at h
  · cases h
  · rename_i label heq
    obtain ⟨⟨name, type⟩, hdecode, rfl⟩ := Except.map_eq_ok_iff.1 h
    rw [heq, clean_some] at hlabel
    exact ⟨hexpression, plain_of_subset (Alias.name_subset_of_decode hdecode) hlabel.text⟩

namespace Definition

theorem plain_of_schemaText {sources : List Source} {schema : String} (hsources : Clean sources)
    (h : schemaText sources = .ok schema) : QueryTemplate.Plain schema := by
  unfold schemaText at h
  split at h
  · cases h
  · cases h
    refine plain_intercalate (by decide) fun lines hlines => ?_
    obtain ⟨s, hs, rfl⟩ := List.mem_map.1 hlines
    obtain ⟨htable, hjoins⟩ := clean_source.1 (clean_list.1 hsources s hs)
    refine plain_intercalate (by decide) (List.forall_mem_cons.2 ⟨htable, ?_⟩)
    exact List.forall_mem_map.2 fun join hjoin => plain_trim (hjoins join hjoin)

/-- **Where the texts of a definition come from**: without question marks in the statements there is none
in the definition. -/
theorem plain_of_ofStatements {statements : List Statement} {d : Definition}
    (h : ofStatements statements = .ok d) (hclean : Clean statements) : d.Plain := by
  obtain ⟨q, s, rfl, -, hbody, hdeclares⟩ := exists_select_of_ofStatements h
  -- each part of what was read is clean as the whole is
  obtain ⟨hq, -⟩ := clean_cons.1 hclean
  obtain ⟨-, hselect, horder, -⟩ := clean_query.1 (show Clean q from hq)
  rw [hbody] at hselect
  obtain ⟨-, -, hitems, hsources, hcondition, -, -⟩ := clean_select.1 hselect
  refine ⟨fun f hf => ?_, plain_of_schemaText hsources hdeclares.schema, fun text htext => ?_,
    fun text htext => ?_⟩
  · obtain ⟨item, hitem, hf⟩ := Except.exists_of_mem_mapM hdeclares.fields hf
    exact Field.plain_of_ofItem (clean_list.1 hitems item hitem) hf
  · rw [hdeclares.condition] at htext
    rw [htext, clean_some, clean_string] at hcondition
    exact hcondition
  · rw [hdeclares.order] at htext
    split at htext
    · cases htext
    · cases htext
      exact plain_listed.2 (clean_strings.2 horder)

/-- Statements are clean if all tokens of the template are. -/
theorem plain_of_ofSql {template : String} {d : Definition} (h : ofSql template = .ok d)
    {ts : List Token} (hts : lex template.toList = some ts) (hclean : Clean ts) : d.Plain := by
  obtain ⟨statements, hstatements, h⟩ := ofSqlWith_eq_ok_iff.1 h
  obtain ⟨ts', hts', hread⟩ := exists_tokens_of_statements? hstatements
  cases hts.symm.trans hts'
  exact plain_of_ofStatements h (clean_of_statementsOf hclean hread)

end Definition

/-! ## Statements -/

theorem Definition.Plain.placeholders_of_compile {d : Definition} {c : Criteria} {q : PreparedQuery}
    (h : d.Plain) (hq : d.compile c = .ok q) : placeholders q.sql = q.params.length := by
  rw [Definition.placeholders_of_compile hq,
    placeholdersIn_eq_zero_iff.2 fun _ => plain_of_mem_pasted h, Nat.add_zero]

/-- **Placeholders of templates.** A statement has one question mark for each of its values, and those of
the texts of its definition that are pasted into it. So each value has a question mark and each question mark
a value exactly if no pasted text holds one. Whatever reads a template, that is so if no text in its
statements holds a question mark; and if it is read token by token, if no token does. -/
theorem placeholders_of_template {d : Definition} {c : Criteria} {q : PreparedQuery}
    (hq : d.compile c = .ok q) :
    placeholders q.sql = q.params.length + placeholdersIn (d.pasted c)
      ∧ (placeholders q.sql = q.params.length ↔ ∀ text ∈ d.pasted c, Plain text)
      ∧ (∀ read template statements, Definition.ofSqlWith read template = .ok d →
          read template = some statements → Clean statements → placeholders q.sql = q.params.length)
      ∧ ∀ template ts, Definition.ofSql template = .ok d → lex template.toList = some ts → Clean ts →
          placeholders q.sql = q.params.length := by
  have hcount := Definition.placeholders_of_compile hq
  refine ⟨hcount, ?_, fun read template statements hd hstatements hclean => ?_,
    fun template ts hd hts hclean => (Definition.plain_of_ofSql hd hts hclean).placeholders_of_compile hq⟩
  · rw [hcount, Nat.add_eq_left, placeholdersIn_eq_zero_iff]
  · rw [Definition.ofSqlWith_of_statements hstatements] at hd
    exact (Definition.plain_of_ofStatements hd hclean).placeholders_of_compile hq

/-- A template with a question mark in a comment, which is no token. -/
theorem placeholders_of_template_comment :
    let template := "SELECT a.x AS x_int /* why? */ FROM a WHERE a.y = 'b'"
    let c : Criteria := { conditions := [.text "x = 1"] }
    ∃ d q ts, Definition.ofSql template = .ok d ∧ d.compile c = .ok q
      ∧ lex template.toList = some ts ∧ Clean ts ∧ placeholders q.sql = q.params.length
      ∧ q.params = [.integer 1] := by
  intro template c
  have hcompile : (Definition.ofSql template >>= fun d => d.compile c) = .ok
      ⟨"SELECT a.x AS x\nFROM a\nWHERE (a.y = 'b') AND (a.x = ?)\nLIMIT 50 OFFSET 0", [.integer 1]⟩ := by
    decide +kernel
  obtain ⟨d, hd, hq⟩ := Except.bind_eq_ok_iff.1 hcompile
  obtain ⟨statements, hstatements, -⟩ := Definition.ofSqlWith_eq_ok_iff.1 hd
  obtain ⟨ts, hts, -⟩ := exists_tokens_of_statements? hstatements
  have hclean : ∀ ts ∈ lex template.toList, Clean ts := by decide +kernel
  have hclean := hclean ts hts
  exact ⟨d, _, ts, hd, hq, hts, hclean, (placeholders_of_template hq).2.2.2 template ts hd hts hclean, rfl⟩

/-- The condition of the template comes first, so its placeholder takes the value of the request. -/
theorem template_placeholder_compiled :
    ∃ d q, Definition.ofSql "SELECT a.x AS x_int FROM a WHERE a.y = ?" = .ok d
      ∧ d.compile { conditions := [.text "x = 1"] } = .ok q
      ∧ q.sql = "SELECT a.x AS x\nFROM a\nWHERE (a.y = ?) AND (a.x = ?)\nLIMIT 50 OFFSET 0"
      ∧ q.params = [.integer 1] ∧ placeholders q.sql ≠ q.params.length := by
  have hcompile : (Definition.ofSql "SELECT a.x AS x_int FROM a WHERE a.y = ?" >>= fun d =>
      d.compile { conditions := [.text "x = 1"] }) = .ok
      ⟨"SELECT a.x AS x\nFROM a\nWHERE (a.y = ?) AND (a.x = ?)\nLIMIT 50 OFFSET 0", [.integer 1]⟩ := by
    decide +kernel
  obtain ⟨d, hd, hq⟩ := Except.bind_eq_ok_iff.1 hcompile
  exact ⟨d, _, hd, hq, rfl, rfl, by decide⟩

/-- A template without question marks has no placeholders of its own. -/
theorem placeholders_of_plain_template {template : String} {d : Definition} {c : Criteria}
    {q : PreparedQuery} (hplain : Plain template) (hd : Definition.ofSql template = .ok d)
    (hq : d.compile c = .ok q) : placeholders q.sql = q.params.length := by
  obtain ⟨statements, hstatements, -⟩ := Definition.ofSqlWith_eq_ok_iff.1 hd
  obtain ⟨ts, hts, -⟩ := exists_tokens_of_statements? hstatements
  exact (Definition.plain_of_ofSql hd hts (clean_of_lex hts hplain)).placeholders_of_compile hq

end QueryTemplate
