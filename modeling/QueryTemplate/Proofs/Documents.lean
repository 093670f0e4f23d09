import QueryTemplate.Document
import QueryTemplate.Proofs.Json.Blanks

/-!
# Definition documents

A document has every part of a definition in a place of its own, so it belongs to one definition under one
name only.

* **`Field.toJson_injective`**, **`optionalText_injective`**: the parts, where no text stands for no text.
* **`toJson_injective`**: the whole definition, with its fields in their order.
* **`documents_are_faithful`**: the same of its texts, in both forms.
-/

namespace QueryTemplate

theorem Field.toJson_injective {f g : Field} (h : f.toJson = g.toJson) : f = g := by
  obtain ⟨expression, name, type⟩ := f
  obtain ⟨expression', name', type'⟩ := g
  simp only [Field.toJson, Json.object.injEq, List.cons.injEq, Prod.mk.injEq, Json.text.injEq, true_and,
    and_true] at h
  obtain ⟨hexpression, hname, htag⟩ := h
  rw [hexpression, hname, ValueType.tag_injective htag]

theorem Field.whole_toJson (f : Field) : f.toJson.Whole := by
  apply Json.Whole.object
  intro m hm
  simp only [List.mem_cons, List.not_mem_nil, or_false] at hm
  rcases hm with hm | hm | hm <;> rw [hm] <;> exact .text _

namespace Definition

/-- No text is not the empty text. -/
theorem optionalText_injective {s t : Option String} (h : optionalText s = optionalText t) : s = t := by
  cases s with
  | none =>
    cases t with
    | none => rfl
    | some t => cases h
  | some s =>
    cases t with
    | none => cases h
    | some t => rw [Json.text.inj h]

theorem whole_optionalText (s : Option String) : (optionalText s).Whole := by
  cases s with
  | none => exact .null
  | some s => exact .text s

variable {name name' : String} {d d' : Definition}

theorem whole_toJson : (d.toJson name).Whole := by
  have hfields : (Json.array (d.fields.map Field.toJson)).Whole :=
    .array (List.forall_mem_map.2 fun f _ => f.whole_toJson)
  apply Json.Whole.object
  intro m hm
  simp only [List.mem_cons, List.not_mem_nil, or_false] at hm
  rcases hm with hm | hm | hm | hm | hm <;> rw [hm]
  · exact .text name
  · exact hfields
  · exact .text d.schema
  · exact whole_optionalText d.condition
  · exact whole_optionalText d.order

/-- **The object of a definition has all that the definition has.** -/
theorem toJson_injective (h : d.toJson name = d'.toJson name') : name = name' ∧ d = d' := by
  obtain ⟨fields, schema, condition, order, _, _⟩ := d
  obtain ⟨fields', schema', condition', order', _, _⟩ := d'
  simp only [toJson, Json.object.injEq, List.cons.injEq, Prod.mk.injEq, Json.text.injEq, Json.array.injEq,
    true_and, and_true] at h
  obtain ⟨hname, hfields, hschema, hcondition, horder⟩ := h
  have hmap : fields = fields' := List.map_injective_iff.2 (fun _ _ => Field.toJson_injective) hfields
  subst hname hmap hschema
  rw [mk.injEq]
  exact ⟨rfl, rfl, rfl, optionalText_injective hcondition, optionalText_injective horder⟩

/-- **Documents are faithful.** Apart from blanks outside of strings a definition has one document, which is
read as the object of the definition. In either form no other definition has the same document, and neither
has the same definition under another name. -/
theorem documents_are_faithful (name : String) (d : Definition) :
    (∀ pretty, Json.squeeze (d.document pretty name) = d.document false name)
      ∧ Json.read? (d.document false name) = some (d.toJson name)
      ∧ ∀ pretty name' d', d'.document pretty name' = d.document pretty name ↔ name' = name ∧ d' = d := by
  refine ⟨?_, Json.read?_compact whole_toJson, ?_⟩
  · intro pretty
    cases pretty with
    | false => exact Json.squeeze_compact whole_toJson
    | true => exact Json.squeeze_pretty whole_toJson 0
  · intro pretty name' d'
    constructor
    · intro h
      apply toJson_injective
      cases pretty with
      | false => exact Json.compact_injective whole_toJson whole_toJson h
      | true => exact Json.pretty_injective whole_toJson whole_toJson h
    · intro h
      rw [h.1, h.2]

/-- A text with blanks and a quote in it, and a definition without a field. -/
example :
    let d : Definition := ⟨[⟨"a . \"x\"", "x", .int⟩], "a", some "", none, by decide, by decide⟩
    let empty : Definition := ⟨[], "a", none, none, by decide, by decide⟩
    Json.squeeze (d.document true "q ") = "\x7b\"name\":\"q \",\"fields\":[\x7b\"sql_expression\":\"a . \\\"x\\\"\","
        ++ "\"alias\":\"x\",\"value_type\":\"int\"\x7d],\"schema_clause\":\"a\",\"base_where\":\"\","
        ++ "\"base_order_by\":null\x7d"
      ∧ empty.document true "q" = "\x7b\n  \"name\": \"q\",\n  \"fields\": [],\n  \"schema_clause\": \"a\",\n"
        ++ "  \"base_where\": null,\n  \"base_order_by\": null\n\x7d" := by
  decide +kernel

end Definition

end QueryTemplate
