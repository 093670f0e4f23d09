import QueryTemplate.Error
import QueryTemplate.Text.Basic
import QueryTemplate.ValueType

/-!
# Column aliases

A column alias carries the type of its column at its end: `total_int` is the column `total` of type
`int`. Without an underscore the column has the type `object`.
-/

namespace QueryTemplate.Alias

/-- The marks that may stand around an alias and around its name. -/
def isQuoteMark (c : Char) : Bool :=
  c = '"' || c = '\'' || c = '`'

/-- Drops the quote marks at both ends. -/
def unquote (cs : List Char) : List Char :=
  Text.trimBoth isQuoteMark cs

/-- The name and the tag of an alias without quote marks around it. -/
def split (cs : List Char) : List Char × List Char :=
  (Text.splitLast '_' cs).getD (cs, ValueType.object.tag.toList)

/-- The name and the type that an alias stands for. -/
def decode (raw : String) : Except Error (String × ValueType) :=
  let (name, tag) := split (unquote raw.toList)
  match ValueType.ofTag? (String.ofList tag) with
  | some type => .ok (String.ofList (unquote name), type)
  | none => .error (.unsupportedType (String.ofList tag))

end QueryTemplate.Alias
