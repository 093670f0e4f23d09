import QueryTemplate.Error
import QueryTemplate.ValueType

/-!
# Query definitions

The compiled shape of a template: its output columns and the text of its other clauses. A definition
is built once; that its aliases name its fields is checked then and holds of every definition.
-/

namespace QueryTemplate

/-- An output column: the SQL expression it shows, its name and its type. -/
structure Field where
  expression : String
  name : String
  type : ValueType
  deriving DecidableEq, Repr

namespace Field

/-- The first field with an alias. -/
def find? (fields : List Field) (name : String) : Option Field :=
  List.find? (fun f => f.name = name) fields

/-- The first field with an alias, or the error that there is none. -/
def resolve (fields : List Field) (name : String) : Except Error Field :=
  match find? fields name with
  | some f => .ok f
  | none => .error (.unknownField name)

/-- The field as an object. -/
def toJson (f : Field) : Json :=
  .object [("sql_expression", .text f.expression), ("alias", .text f.name),
    ("value_type", .text f.type.tag)]

/-- Reads a field from an object, whose other members are skipped. -/
def ofJson? (x : Json) : Option Field := do
  match ← x.parts? ["sql_expression", "alias", "value_type"] with
  | [.text expression, .text name, .text tag] => some ⟨expression, name, ← ValueType.ofTag? tag⟩
  | _ => none

/--
The first thing wrong with the aliases of fields that follow fields with the aliases `seen`: an
empty alias or a repeated one.
-/
def aliasError? (seen : List String) : List Field → Option Error
  | [] => none
  | f :: fs =>
    if f.name = "" then some (.missingAlias f.expression)
    else if f.name ∈ seen then some (.duplicateAlias f.name)
    else aliasError? (f.name :: seen) fs

theorem aliasError?_eq_none_iff {seen : List String} {fields : List Field} :
    aliasError? seen fields = none ↔
      (∀ f ∈ fields, f.name ≠ "" ∧ f.name ∉ seen) ∧ (fields.map Field.name).Nodup := by
  induction fields generalizing seen with
  | nil => simp [aliasError?]
  | cons f fs ih =>
    unfold aliasError?
    split
    · simp_all
    · split
      · simp_all
      · rw [ih, List.forall_mem_cons, List.map_cons, List.nodup_cons]
        simp only [List.mem_cons, not_or, List.mem_map, not_exists, not_and]
        constructor
        · rintro ⟨h, hn⟩
          exact ⟨⟨⟨‹_›, ‹_›⟩, fun g hg => ⟨(h g hg).1, (h g hg).2.2⟩⟩,
            fun g hg => (h g hg).2.1, hn⟩
        · rintro ⟨⟨_, h⟩, hd, hn⟩
          exact ⟨fun g hg => ⟨(h g hg).1, hd g hg, (h g hg).2⟩, hn⟩

end Field

/-- The fields of a template, with pairwise distinct names, and the text of its other clauses. -/
structure Definition where
  fields : List Field
  schema : String
  condition : Option String
  order : Option String
  named : ∀ f ∈ fields, f.name ≠ ""
  distinct : (fields.map Field.name).Nodup

namespace Definition

/-- Assembles a definition; fails at the first field whose alias is empty or taken. -/
def ofParts (fields : List Field) (schema : String) (condition order : Option String) :
    Except Error Definition :=
  match h : Field.aliasError? [] fields with
  | some e => .error e
  | none =>
    have ok := Field.aliasError?_eq_none_iff.1 h
    .ok ⟨fields, schema, condition, order, fun f hf => (ok.1 f hf).1, ok.2⟩

/-- The field with an alias. -/
def field? (d : Definition) (name : String) : Option Field :=
  Field.find? d.fields name

end Definition

end QueryTemplate
