import QueryTemplate.Number.Shortest

/-!
# JSON documents

The tree of a JSON text and its two printed forms, one without any blanks and one with a line per
member.
-/

namespace QueryTemplate

/-- A JSON document. A number keeps its spelling, an object the order of its members. -/
inductive Json
  | null
  | bool (b : Bool)
  | number (spelling : String)
  | text (s : String)
  | array (items : List Json)
  | object (members : List (String × Json))
  /--
  Well formed but without a value: a string that holds half of a surrogate pair, or an object with
  such a key. It can be skipped but not read.
  -/
  | unreadable
  deriving Inhabited

namespace Json

/-! ## Strings -/

/-- The digit for a number below sixteen, with small letters. -/
def hexDigit (n : Nat) : Char :=
  if n < 10 then Char.ofNat (48 + n) else Char.ofNat (87 + n)

/-- Quotes, backslashes and control characters are escaped, everything else stands for itself. -/
def escape (c : Char) : List Char :=
  if c = '"' then ['\\', '"']
  else if c = '\\' then ['\\', '\\']
  else if c = '\x08' then ['\\', 'b']
  else if c = '\t' then ['\\', 't']
  else if c = '\n' then ['\\', 'n']
  else if c = '\x0c' then ['\\', 'f']
  else if c = '\r' then ['\\', 'r']
  else if c.toNat < 32 then
    ['\\', 'u', '0', '0', hexDigit (c.toNat / 16), hexDigit (c.toNat % 16)]
  else [c]

def quote (s : String) : String :=
  "\"" ++ String.ofList (s.toList.flatMap escape) ++ "\""

/-! ## Without blanks -/

mutual

/-- The document on one line, without blanks. -/
def compact : Json → String
  | .null => "null"
  | .bool b => if b then "true" else "false"
  | .number spelling => spelling
  | .text s => quote s
  | .array items => "[" ++ compactItems items ++ "]"
  | .object members => "\x7b" ++ compactMembers members ++ "\x7d"
  | .unreadable => "null"

def compactItems : List Json → String
  | [] => ""
  | [x] => x.compact
  | x :: y :: rest => x.compact ++ "," ++ compactItems (y :: rest)

def compactMembers : List (String × Json) → String
  | [] => ""
  | [(k, x)] => quote k ++ ":" ++ x.compact
  | (k, x) :: y :: rest => quote k ++ ":" ++ x.compact ++ "," ++ compactMembers (y :: rest)

end

/-! ## With a line per member -/

/-- A line break and the indentation of a nesting level, two blanks each. -/
def newline (level : Nat) : String :=
  "\n" ++ String.ofList (List.replicate (2 * level) ' ')

mutual

/-- The document with every item and member on a line of its own; empty ones stay on one line. -/
def pretty (level : Nat) : Json → String
  | .null => "null"
  | .bool b => if b then "true" else "false"
  | .number spelling => spelling
  | .text s => quote s
  | .array [] => "[]"
  | .array (x :: rest) =>
    "[" ++ newline (level + 1) ++ x.pretty (level + 1) ++ prettyItems (level + 1) rest
      ++ newline level ++ "]"
  | .object [] => "\x7b\x7d"
  | .object ((k, x) :: rest) =>
    "\x7b" ++ newline (level + 1) ++ quote k ++ ": " ++ x.pretty (level + 1)
      ++ prettyMembers (level + 1) rest ++ newline level ++ "\x7d"
  | .unreadable => "null"

def prettyItems (level : Nat) : List Json → String
  | [] => ""
  | x :: rest => "," ++ newline level ++ x.pretty level ++ prettyItems level rest

def prettyMembers (level : Nat) : List (String × Json) → String
  | [] => ""
  | (k, x) :: rest =>
    "," ++ newline level ++ quote k ++ ": " ++ x.pretty level ++ prettyMembers level rest

end

/-! ## Looking into documents -/

def once? (key : String) (members : List (String × Json)) : Option Json :=
  match members.filter fun m => m.1 = key with
  | [(_, x)] => some x
  | _ => none

/-- The parts of a record: members of an object, each exactly once, or all the items of an array. -/
def parts? (keys : List String) : Json → Option (List Json)
  | .object members => keys.mapM fun key => once? key members
  | .array items => if items.length = keys.length then some items else none
  | _ => none

end Json

end QueryTemplate
