import QueryTemplate.Definition

/-!
# Definition documents

A definition with its name as a JSON document, for consumers such as code generators.
-/

namespace QueryTemplate.Definition

/-- A text, or null. -/
def optionalText : Option String → Json
  | none => .null
  | some s => .text s

/-- The definition under a name. -/
def toJson (name : String) (d : Definition) : Json :=
  .object [("name", .text name), ("fields", .array (d.fields.map Field.toJson)),
    ("schema_clause", .text d.schema), ("base_where", optionalText d.condition),
    ("base_order_by", optionalText d.order)]

/-- The document, with a line per member or without blanks. -/
def document (pretty : Bool) (name : String) (d : Definition) : String :=
  if pretty then (d.toJson name).pretty 0 else (d.toJson name).compact

end QueryTemplate.Definition
