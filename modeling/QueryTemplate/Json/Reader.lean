import QueryTemplate.Json.Basic

/-!
# Reading JSON

A reader takes what it needs from the front of a text and returns the rest. A document may nest to
any depth; how deep a value may lie is decided where it is used.
-/

namespace QueryTemplate.Json

/-- Takes something off the front of a text, or fails. -/
abbrev Reader (α : Type) := List Char → Option (α × List Char)

/-- The four characters that may stand between the parts of a document. -/
def isSpace (c : Char) : Bool :=
  c = ' ' || c = '\n' || c = '\t' || c = '\r'

def skip (cs : List Char) : List Char :=
  cs.dropWhile isSpace

/-! ## Strings -/

def hexValue? (c : Char) : Option Nat :=
  if '0' ≤ c && c ≤ '9' then some (c.toNat - 48)
  else if 'a' ≤ c && c ≤ 'f' then some (c.toNat - 87)
  else if 'A' ≤ c && c ≤ 'F' then some (c.toNat - 55)
  else none

def hexValue4? (a b c d : Char) : Option Nat := do
  let a ← hexValue? a
  let b ← hexValue? b
  let c ← hexValue? c
  let d ← hexValue? d
  some (((16 * a + b) * 16 + c) * 16 + d)

def escaped? (c : Char) : Option Nat :=
  match c with
  | '"' => some 34
  | '\\' => some 92
  | '/' => some 47
  | 'b' => some 8
  | 'f' => some 12
  | 'n' => some 10
  | 'r' => some 13
  | 't' => some 9
  | _ => none

/--
Reads a string after its opening quote into code points. Only an escape with four digits yields
half of a surrogate pair, since no character is one.
-/
def readUnits : Reader (List Nat)
  | [] => none
  | '"' :: rest => some ([], rest)
  | '\\' :: 'u' :: a :: b :: c :: d :: rest =>
    match hexValue4? a b c d with
    | none => none
    | some n => (readUnits rest).map fun (ns, rest) => (n :: ns, rest)
  | '\\' :: c :: rest =>
    match escaped? c with
    | none => none
    | some n => (readUnits rest).map fun (ns, rest) => (n :: ns, rest)
  | c :: rest =>
    if c.toNat < 32 || c = '\\' then none
    else (readUnits rest).map fun (ns, rest) => (c.toNat :: ns, rest)

/-- Joins the halves of surrogate pairs; fails on a half that stands alone. -/
def joinUnits : List Nat → Option (List Char)
  | [] => some []
  | [n] => if 0xd800 ≤ n && n ≤ 0xdfff then none else some [Char.ofNat n]
  | h :: l :: rest =>
    if 0xd800 ≤ h && h ≤ 0xdbff then
      if 0xdc00 ≤ l && l ≤ 0xdfff then
        (joinUnits rest).map (Char.ofNat (0x10000 + (h - 0xd800) * 0x400 + (l - 0xdc00)) :: ·)
      else none
    else if 0xdc00 ≤ h && h ≤ 0xdfff then none
    else (joinUnits (l :: rest)).map (Char.ofNat h :: ·)

/-- The text of a string read after its opening quote; no text if it has half of a pair. -/
def readText : Reader (Option String) := fun cs =>
  (readUnits cs).map fun (ns, rest) => ((joinUnits ns).map String.ofList, rest)

/-! ## Numbers -/

def spanDigits (cs : List Char) : List Char × List Char :=
  (cs.takeWhile Char.isDigit, cs.dropWhile Char.isDigit)

/-- Digits after a point, with the point, if there is one. -/
def readFraction : Reader (List Char)
  | '.' :: cs =>
    match spanDigits cs with
    | ([], _) => none
    | (ds, rest) => some ('.' :: ds, rest)
  | cs => some ([], cs)

/-- An exponent with its letter and sign, if there is one. -/
def readExponent : Reader (List Char)
  | c :: cs =>
    if c = 'e' || c = 'E' then
      let (sign, cs) := match cs with
        | '+' :: rest => (['+'], rest)
        | '-' :: rest => (['-'], rest)
        | _ => ([], cs)
      match spanDigits cs with
      | ([], _) => none
      | (ds, rest) => some (c :: sign ++ ds, rest)
    else some ([], c :: cs)
  | [] => some ([], [])

/-- The spelling of a number without its sign. A zero starts the whole part only if it is alone. -/
def readUnsigned : Reader (List Char) := fun cs => do
  let (whole, rest) ← match spanDigits cs with
    | ([], _) => none
    | ('0' :: _ :: _, _) => none
    | found => some found
  let (fraction, rest) ← readFraction rest
  let (exponent, rest) ← readExponent rest
  some (whole ++ fraction ++ exponent, rest)

/-! ## Documents -/

def readWord (word : List Char) (x : Json) : Reader Json := fun cs =>
  if word.isPrefixOf cs then some (x, cs.drop word.length) else none

/-- Items after an opening bracket or a comma, up to the closing bracket. -/
def readItems (item : Reader Json) : Nat → Reader (List Json)
  | 0, _ => none
  | n + 1, cs => do
    let (x, rest) ← item cs
    match skip rest with
    | ',' :: rest => (readItems item n rest).map fun (xs, rest) => (x :: xs, rest)
    | ']' :: rest => some ([x], rest)
    | _ => none

/-- Members after an opening brace or a comma, up to the closing brace. -/
def readMembers (item : Reader Json) : Nat → Reader (List (Option String × Json))
  | 0, _ => none
  | n + 1, cs => do
    let (key, rest) ← match skip cs with
      | '"' :: rest => readText rest
      | _ => none
    let (x, rest) ← match skip rest with
      | ':' :: rest => item rest
      | _ => none
    match skip rest with
    | ',' :: rest => (readMembers item n rest).map fun (ms, rest) => ((key, x) :: ms, rest)
    | '\x7d' :: rest => some ([(key, x)], rest)
    | _ => none

/-- An object, which has a value if all its keys do. -/
def ofMembers (members : List (Option String × Json)) : Json :=
  match members.mapM fun (key, x) => key.map fun k => (k, x) with
  | some members => .object members
  | none => .unreadable

/-- Reads a document whose parts nest no deeper than the bound. -/
def readNested : Nat → Reader Json
  | 0, _ => none
  | n + 1, cs =>
    match skip cs with
    | '"' :: rest => (readText rest).map fun (s, rest) => ((s.map text).getD .unreadable, rest)
    | '[' :: rest =>
      match skip rest with
      | ']' :: rest => some (.array [], rest)
      | rest => (readItems (readNested n) rest.length rest).map fun (xs, rest) => (.array xs, rest)
    | '\x7b' :: rest =>
      match skip rest with
      | '\x7d' :: rest => some (.object [], rest)
      | rest =>
        (readMembers (readNested n) rest.length rest).map fun (ms, rest) => (ofMembers ms, rest)
    | 'n' :: rest => readWord ['u', 'l', 'l'] .null rest
    | 't' :: rest => readWord ['r', 'u', 'e'] (.bool true) rest
    | 'f' :: rest => readWord ['a', 'l', 's', 'e'] (.bool false) rest
    | '-' :: rest =>
      (readUnsigned rest).map fun (ds, rest) => (.number (String.ofList ('-' :: ds)), rest)
    | rest => (readUnsigned rest).map fun (ds, rest) => (.number (String.ofList ds), rest)

/-- The document of a text that holds nothing else; its brackets bound how deep it nests. -/
def read? (s : String) : Option Json :=
  match readNested (s.length + 1) s.toList with
  | some (x, rest) => if (skip rest).isEmpty then some x else none
  | none => none

end QueryTemplate.Json
