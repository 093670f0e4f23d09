import QueryTemplate.Proofs.Aliases
import QueryTemplate.Proofs.Sql.Selections
import QueryTemplate.Template

/-!
# Accepted templates

What a template looks like that is accepted, and where the parts of its definition come from.
-/

namespace QueryTemplate

open QueryTemplate.Sql

/-! ## Plain selections -/

/-- What the statements of a template are read from. -/
theorem Sql.exists_tokens_of_statements? {template : String} {statements : List Statement}
    (h : statements? template = some statements) :
    ∃ ts, lex template.toList = some ts ∧ statementsOf ts = .ok statements := by
  obtain ⟨ts, hts, hread⟩ := Option.bind_eq_some_iff.1 h
  refine ⟨ts, hts, ?_⟩
  cases hok : statementsOf ts <;> simp_all [Except.toOption]

namespace Definition

theorem ofParts_eq_ok {fields : List Field} {schema : String} {condition order : Option String}
    {d : Definition} (h : ofParts fields schema condition order = .ok d) :
    d.fields = fields ∧ d.schema = schema ∧ d.condition = condition ∧ d.order = order := by
  unfold ofParts at h
  split at h
  · cases h
  · cases h
    exact ⟨rfl, rfl, rfl, rfl⟩

/-- The parts of a selection in an order that `d` is made of. -/
structure Declares (s : Select) (order : List String) (d : Definition) : Prop where
  plain : s.distinct = none ∧ s.top = none ∧ s.grouping = none ∧ s.having = none
  fields : s.items.mapM Field.ofItem = .ok d.fields
  schema : schemaText s.sources = .ok d.schema
  condition : d.condition = s.condition
  order : d.order = if order.isEmpty then none else some (listed order)

theorem declares_of_ofSelect {s : Select} {order : List String} {d : Definition}
    (h : ofSelect s order = .ok d) : Declares s order d := by
  dsimp only [ofSelect] at h
  by_cases hcounted : (s.distinct.isSome || s.top.isSome) = true
  · rw [if_pos hcounted] at h
    cases h
  by_cases hgrouped : (s.grouping.isSome || s.having.isSome) = true
  · rw [if_neg hcounted, if_pos hgrouped] at h
    cases h
  rw [if_neg hcounted, if_neg hgrouped] at h
  -- a plain selection: its items and sources are all that can be refused now
  obtain ⟨fields, hfields, h⟩ := Except.bind_eq_ok_iff.1 h
  obtain ⟨schema, hschema, h⟩ := Except.bind_eq_ok_iff.1 h
  obtain ⟨rfl, rfl, hcondition, horder⟩ := ofParts_eq_ok h
  refine ⟨?_, hfields, hschema, hcondition, horder⟩
  simp_all

theorem exists_select_of_ofQuery {q : Query} {d : Definition} (h : ofQuery q = .ok d) :
    q.tables = none ∧ ∃ s, q.body = .select s ∧ Declares s q.order d := by
  unfold ofQuery at h
  split at h
  · cases h
  rename_i htables
  refine ⟨by simpa using htables, ?_⟩
  split at h
  · exact ⟨_, ‹_›, declares_of_ofSelect h⟩
  · cases h
  · cases h

/-- **Accepted statements** are a single query, which is a plain selection. -/
theorem exists_select_of_ofStatements {statements : List Statement} {d : Definition}
    (h : ofStatements statements = .ok d) :
    ∃ q s, statements = [.query q] ∧ q.tables = none ∧ q.body = .select s ∧ Declares s q.order d := by
  unfold ofStatements at h
  split at h
  · obtain ⟨htables, s, hs, hdeclares⟩ := exists_select_of_ofQuery h
    exact ⟨_, s, rfl, htables, hs, hdeclares⟩
  · cases h
  · cases h

theorem ofSqlWith_of_statements {read : String → Option (List Statement)} {template : String}
    {statements : List Statement} (h : read template = some statements) :
    ofSqlWith read template = ofStatements statements := by
  unfold ofSqlWith
  rw [h]

theorem ofSqlWith_eq_ok_iff {read : String → Option (List Statement)} {template : String} {d : Definition} :
    ofSqlWith read template = .ok d ↔
      ∃ statements, read template = some statements ∧ ofStatements statements = .ok d := by
  unfold ofSqlWith
  cases read template <;> simp

end Definition

/-- **Every accepted template has a field.** -/
theorem Definition.fields_ne_nil_of_ofSql {template : String} {d : Definition}
    (h : Definition.ofSql template = .ok d) : d.fields ≠ [] := by
  obtain ⟨statements, hstatements, h⟩ := ofSqlWith_eq_ok_iff.1 h
  obtain ⟨ts, -, hread⟩ := exists_tokens_of_statements? hstatements
  obtain ⟨q, s, rfl, -, hbody, hdeclares⟩ := exists_select_of_ofStatements h
  have hselect : q.body.ItemsOf ts := itemsOf_of_statementsOf hread _ List.mem_cons_self
  rw [hbody] at hselect
  have hitems : s.items ≠ [] := hselect.1
  intro hfields
  have hmap := hdeclares.fields
  rw [hfields] at hmap
  obtain ⟨item, items, hs⟩ := List.exists_cons_of_ne_nil hitems
  rw [hs] at hmap
  obtain ⟨_, _, _, _, hcons⟩ := Except.mapM_cons_eq_ok_iff.1 hmap
  cases hcons

end QueryTemplate
