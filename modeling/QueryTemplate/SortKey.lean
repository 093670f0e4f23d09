import QueryTemplate.Error
import QueryTemplate.Text.Basic

/-!
# Sort lists

What to order by, and the text form of it: fields with an optional direction, separated by commas.
-/

namespace QueryTemplate

/-- A sorting direction. -/
inductive Direction
  | ascending
  | descending
  deriving DecidableEq, Repr

/-- The keyword of a direction. -/
def Direction.sql : Direction → String
  | .ascending => "ASC"
  | .descending => "DESC"

/-- A field to order by. -/
structure SortKey where
  field : String
  direction : Direction
  deriving DecidableEq, Repr

namespace SortKey

/-- A segment is a field, or a field and a direction in any mix of cases. -/
def ofWords : List (List Char) → Except Fault SortKey
  | [field] => .ok ⟨String.ofList field, .ascending⟩
  | [field, direction] =>
    let word := Text.lower (String.ofList direction)
    if word = "asc" then .ok ⟨String.ofList field, .ascending⟩
    else if word = "desc" then .ok ⟨String.ofList field, .descending⟩
    else .error .expectedSortDirection
  | [] => .error .expectedSortField
  | _ => .error .expectedSortDirection

/-- The text of segments with the commas between them. -/
def joinSegments : List (List Char) → List Char
  | [] => []
  | [s] => s
  | s :: t :: rest => s ++ ',' :: joinSegments (t :: rest)

/-- Reads segments up to the first fault, which lies at the start of its segment. -/
def ofSegments : List (List Char) → Except (Fault × List Char) (List SortKey)
  | [] => .ok []
  | s :: rest =>
    match ofWords (Text.words s) with
    | .error fault => .error (fault, joinSegments (s :: rest))
    | .ok sort => (ofSegments rest).map (sort :: ·)

/-- Reads a sort list such as `name desc, age`; blank text is the empty list. -/
def parse (text : String) : Except TextError (List SortKey) :=
  let cs := text.toList
  if cs.all Text.isBlank then .ok []
  else
    match ofSegments (Text.splitWhen (· = ',') cs) with
    | .ok sorts => .ok sorts
    | .error (fault, rest) =>
      .error ⟨Text.byteLength cs - Text.byteLength rest, String.ofList rest, fault⟩

end SortKey

end QueryTemplate
