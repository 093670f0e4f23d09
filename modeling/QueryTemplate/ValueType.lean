import QueryTemplate.Json.Basic

/-!
# Value types

The semantic type of an output column and the tag that names it, both at the end of a column alias
and in documents.
-/

namespace QueryTemplate

/-- The semantic type of an output column. -/
inductive ValueType
  | int
  | long
  | float
  | double
  | boolean
  | string
  | date
  | time
  | decimal
  | bigint
  | byte
  | object
  deriving DecidableEq, Repr

namespace ValueType

/-- Every type. -/
def all : List ValueType :=
  [.int, .long, .float, .double, .boolean, .string, .date, .time, .decimal, .bigint, .byte, .object]

/-- The tag of a type. -/
def tag : ValueType → String
  | .int => "int"
  | .long => "long"
  | .float => "float"
  | .double => "double"
  | .boolean => "boolean"
  | .string => "string"
  | .date => "date"
  | .time => "time"
  | .decimal => "decimal"
  | .bigint => "bigint"
  | .byte => "byte"
  | .object => "object"

/-- The type with a tag, which is matched exactly. -/
def ofTag? (tag : String) : Option ValueType :=
  all.find? fun t => t.tag = tag

theorem mem_all (t : ValueType) : t ∈ all := by
  cases t <;> decide

/-- Reading a tag finds the type that is written with it, and nothing else is a tag. -/
theorem ofTag?_eq_some_iff {tag : String} {t : ValueType} : ofTag? tag = some t ↔ t.tag = tag := by
  constructor
  · intro h
    simpa using List.find?_some h
  · rintro rfl
    cases t <;> decide

theorem tag_injective {s t : ValueType} (h : s.tag = t.tag) : s = t :=
  Option.some.inj ((ofTag?_eq_some_iff.2 h).symm.trans (ofTag?_eq_some_iff.2 rfl))

end ValueType

end QueryTemplate
