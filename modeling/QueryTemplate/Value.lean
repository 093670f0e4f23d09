import QueryTemplate.Json.Number

/-!
# Values

What a placeholder of a compiled query is bound to, how loosely typed text is read as a value, and
the two ways in which a value is written: as an SQL literal and as JSON.
-/

namespace QueryTemplate

open QueryTemplate.Number

/-- A value bound to a placeholder. -/
inductive Value
  | null
  | integer (n : Int64)
  | float (x : Binary64)
  | text (s : String)
  | boolean (b : Bool)
  deriving DecidableEq, Repr

namespace Value

/--
The value that raw text most likely means: an integer, else a floating point number, else one of
the words `true`, `false` and `null` in any mix of cases, else the text itself.
-/
def infer (raw : String) : Value :=
  match readInt64? raw.toList with
  | some n => .integer n
  | none =>
    match Binary64.read? raw.toList with
    | some x => .float x
    | none =>
      if Text.lower raw = "true" then .boolean true
      else if Text.lower raw = "false" then .boolean false
      else if Text.lower raw = "null" then .null
      else .text raw

/--
Equality of values as a program sees it: of the same kind, and for floating point numbers by
numeric equality.
-/
def same : Value → Value → Bool
  | .null, .null => true
  | .integer m, .integer n => m = n
  | .float x, .float y => x.numEq y
  | .text s, .text t => s = t
  | .boolean a, .boolean b => a = b
  | _, _ => false

/-- The word for the kind of a value. -/
def kind : Value → String
  | .null => "null"
  | .integer _ => "int"
  | .float _ => "float"
  | .text _ => "text"
  | .boolean _ => "bool"

/-! ## As an SQL literal -/

/-- Floating point numbers in literals: all places written out, no fraction on whole numbers. -/
def literalStyle : FloatStyle where
  tie := .up
  positional _ := true
  whole := ""
  nan := "NaN"
  infinity := "inf"
  negativeInfinity := "-inf"

/-- Writes a quote inside a string twice. -/
def doubleQuotes : List Char → List Char
  | [] => []
  | c :: cs => if c = '\'' then '\'' :: '\'' :: doubleQuotes cs else c :: doubleQuotes cs

/-- The value as a literal: text in single quotes, all else bare. -/
def literal : Value → String
  | .null => "NULL"
  | .integer n => toString n.toInt
  | .float x => literalStyle.write x
  | .text s => "'" ++ String.ofList (doubleQuotes s.toList) ++ "'"
  | .boolean b => if b then "true" else "false"

/-! ## As JSON -/

/--
Floating point numbers in JSON: positional from `0.00001` up to sixteen digits before the point,
always with a fraction there; null if not finite.
-/
def jsonStyle : FloatStyle where
  tie := .even
  positional e := -5 ≤ e && e ≤ 15
  whole := ".0"
  nan := "null"
  infinity := "null"
  negativeInfinity := "null"

/-- The value as a plain JSON value, without a mark of its kind. -/
def toJson : Value → Json
  | .null => .null
  | .integer n => .number (toString n.toInt)
  | .float x => if x.isFinite then .number (jsonStyle.write x) else .null
  | .text s => .text s
  | .boolean b => .bool b

/-- The value of a plain JSON value; integers beyond 64 bits become floating point numbers. -/
def ofJson? : Json → Option Value
  | .null => some .null
  | .bool b => some (.boolean b)
  | .text s => some (.text s)
  | .number spelling =>
    match Json.numeral? spelling with
    | none => none
    | some (.integer n) =>
      if Int64.minValue.toInt ≤ n ∧ n ≤ Int64.maxValue.toInt then some (.integer (Int64.ofInt n))
      else some (.float (Binary64.ofNat n.toNat))
    | some (.float x) => some (.float x)
  | _ => none

/-- Reads the JSON text of a value. -/
def readJson? (text : String) : Option Value :=
  (Json.read? text).bind ofJson?

end Value

end QueryTemplate
