import QueryTemplate.Sql.Reader

/-!
# Data types of template SQL

The types of casts, typed literals and new columns. A type that the grammar knows is written in
capitals, any other name is a type of the user's and stays as it is.
-/

namespace QueryTemplate.Sql

open Reader

/-- What may follow the first word of a type. -/
inductive TypeShape
  | plain
  /-- A size in parentheses. -/
  | sized
  /-- A size, and whether there is a sign. -/
  | whole
  /-- A length. -/
  | text
  /-- `VARYING`, and a length. -/
  | character
  /-- `VARYING`, and a size. -/
  | bits
  /-- A precision and a scale. -/
  | exact
  /-- A precision, and whether there is a time zone. -/
  | moment
  /-- `PRECISION`. -/
  | double
  deriving DecidableEq, Repr

def knownTypes : List (String × TypeShape) :=
  [("BOOLEAN", .plain), ("BOOL", .plain), ("REAL", .plain), ("FLOAT4", .plain), ("FLOAT8", .plain),
   ("FLOAT64", .plain), ("INT64", .plain), ("DATE", .plain), ("UUID", .plain), ("JSON", .plain),
   ("JSONB", .plain), ("INTERVAL", .plain), ("TEXT", .plain), ("BYTEA", .plain),
   ("REGCLASS", .plain),
   ("FLOAT", .sized), ("DATETIME", .sized), ("STRING", .sized), ("BLOB", .sized), ("CLOB", .sized),
   ("BINARY", .sized), ("VARBINARY", .sized), ("BYTES", .sized), ("BIT", .bits),
   ("TIMESTAMPTZ", .sized), ("TIMETZ", .sized), ("TINYINT", .whole), ("INT2", .whole),
   ("SMALLINT", .whole), ("MEDIUMINT", .whole), ("INT", .whole), ("INT4", .whole), ("INT8", .whole),
   ("INTEGER", .whole), ("BIGINT", .whole), ("VARCHAR", .text), ("NVARCHAR", .text),
   ("CHAR", .character), ("CHARACTER", .character), ("NUMERIC", .exact), ("DECIMAL", .exact),
   ("DEC", .exact), ("BIGNUMERIC", .exact), ("BIGDECIMAL", .exact), ("TIME", .moment),
   ("TIMESTAMP", .moment), ("DOUBLE", .double)]

def Token.knownType? (t : Token) : Option (String × TypeShape) := do
  let name ← t.capitals?
  let shape ← knownTypes.lookup name
  return (name, shape)

def size : Reader String :=
  take fun t => t.count?.map toString

def optionalParens (r : Reader String) : Reader String := do
  if ← accept .opening then
    let s ← r
    expect .closing
    return parenthesized s
  else return ""

def Token.lengthUnit? (t : Token) : Option String :=
  t.capitals?.filter ["CHARACTERS", "OCTETS"].contains

/-- Reads a length: a size with a unit if there is one, or the greatest length. -/
def textLength : Reader String := do
  match ← attempt (take fun t => t.capitals?.filter (· = "MAX")) with
  | some greatest => return greatest
  | none =>
    let n ← size
    let unit ← attempt (take Token.lengthUnit?)
    return spaced (n :: unit.toList)

/-- Reads a precision, and a scale if there is one. -/
def precisionAndScale : Reader String := do
  let precision ← size
  if ← accept .comma then return precision ++ "," ++ (← size)
  else return precision

def timeZone : Reader String := do
  if ← acceptWord .WITH then
    expectWord .TIME; expectWord .ZONE
    return " WITH TIME ZONE"
  else if ← acceptWord .WITHOUT then
    expectWord .TIME; expectWord .ZONE
    return " WITHOUT TIME ZONE"
  else return ""

/-- Reads what follows the first word of a known type. -/
def typeTail : TypeShape → Reader String
  | .plain => return ""
  | .sized => optionalParens size
  | .whole => do
    let n ← optionalParens size
    return if ← acceptWord .UNSIGNED then n ++ " UNSIGNED" else n
  | .text => optionalParens textLength
  | .character => do
    let varying := if ← acceptWord .VARYING then " VARYING" else ""
    return varying ++ (← optionalParens textLength)
  | .bits => do
    let varying := if ← acceptWord .VARYING then " VARYING" else ""
    return varying ++ (← optionalParens size)
  | .exact => optionalParens precisionAndScale
  | .moment => do
    let precision ← optionalParens size
    return precision ++ (← timeZone)
  | .double => return if ← acceptWord .PRECISION then " PRECISION" else ""

def knownType : Reader String := do
  let (name, shape) ← take Token.knownType?
  return name ++ (← typeTail shape)

def Token.modifier? : Token → Option String
  | .word ⟨s, none⟩ _ => some s
  | .word ⟨s, some quote⟩ _ => some (quote.toString ++ s ++ quote.toString)
  | .number digits _ => some digits
  | .text s => some s
  | _ => none

/-- Reads modifiers, of which there are at most `n`, and the parenthesis after them. -/
def modifiersAtMost : Nat → Reader (List String)
  | 0 => fail
  | n + 1 => do
    if ← accept .closing then return []
    else if ← accept .comma then modifiersAtMost n
    else
      let m ← take Token.modifier?
      return m :: (← modifiersAtMost n)

def userType : Reader String := do
  let first ← take fun
    | .word name _ => some name
    | _ => none
  let name := writtenPath (first :: (← furtherParts))
  if ← accept .opening then
    let modifiers ← modifiersAtMost (← get).length
    return if modifiers.isEmpty then name else name ++ parenthesized (listed modifiers)
  else return name

/-- The first words of types that the dialect knows and no reader takes. -/
def Keyword.otherTypes : List Keyword :=
  [.ARRAY, .DATE32, .DATETIME64, .ENUM, .ENUM8, .ENUM16, .FIXEDSTRING, .FLOAT32, .INT16, .INT32,
   .INT128, .INT256, .LONGBLOB, .LONGTEXT, .LOWCARDINALITY, .MAP, .MEDIUMBLOB, .MEDIUMTEXT, .NESTED,
   .NULLABLE, .SET, .STRUCT, .TINYBLOB, .TINYTEXT, .TRIGGER, .TUPLE, .UINT8, .UINT16, .UINT32,
   .UINT64, .UINT128, .UINT256, .UNION]

def dataType : Reader String := do
  if (((← get).head?).bind Token.knownType?).isSome then knownType
  else if (keyword? (← get)).any Keyword.otherTypes.contains then fail
  else userType

end QueryTemplate.Sql
