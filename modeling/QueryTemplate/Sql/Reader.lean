import QueryTemplate.Number.Decimal
import QueryTemplate.Sql.Token

/-!
# Readers of tokens

A reader takes something off the front of the tokens. A reader that fails has taken nothing, as far
as another reader can see that is tried in its place.
-/

namespace QueryTemplate.Sql

/-- Why the tokens cannot be read. -/
inductive Failure
  | malformed
  /-- The text nests deeper than readers are allowed to. -/
  | tooDeep
  deriving DecidableEq, Repr

/-- Takes something off the front of the tokens. -/
abbrev Reader := StateT (List Token) (Except Failure)

namespace Reader

variable {α : Type}

def fail : Reader α :=
  throw .malformed

/-- Takes a token that something can be made of. -/
def take (f : Token → Option α) : Reader α := do
  match ← get with
  | t :: ts =>
    match f t with
    | some a => set ts; return a
    | none => fail
  | [] => fail

/-- The result of a reader, or nothing where it fails; that nesting is too deep stays a failure. -/
def attempt (r : Reader α) : Reader (Option α) := fun ts =>
  match r ts with
  | .ok (a, rest) => .ok (some a, rest)
  | .error .malformed => .ok (none, ts)
  | .error .tooDeep => .error .tooDeep

/-- The result of the first reader, or else of the second; fails as the first does. -/
def orElse (first second : Reader α) : Reader α := fun ts =>
  match first ts with
  | .ok r => .ok r
  | .error failure =>
    match second ts with
    | .ok r => .ok r
    | .error _ => .error failure

def startsWith (s : Symbol) (ts : List Token) : Bool :=
  ts.head? = some (.symbol s)

def keyword? : List Token → Option Keyword
  | .word _ k :: _ => k
  | _ => none

def accept (s : Symbol) : Reader Bool := do
  if startsWith s (← get) then
    modify List.tail
    return true
  else return false

def expect (s : Symbol) : Reader Unit := do
  unless ← accept s do fail

/-- The tokens after keywords, if those stand in front. -/
def dropKeywords : List Keyword → List Token → Option (List Token)
  | [], ts => some ts
  | k :: ks, ts => if keyword? ts = some k then dropKeywords ks ts.tail else none

def acceptWords (ks : List Keyword) : Reader Bool := do
  match dropKeywords ks (← get) with
  | some rest => set rest; return true
  | none => return false

def acceptWord (k : Keyword) : Reader Bool :=
  acceptWords [k]

def expectWord (k : Keyword) : Reader Unit := do
  unless ← acceptWord k do fail

def acceptOneOf : List (Keyword × α) → Reader (Option α)
  | [] => return none
  | (k, a) :: rest => do if ← acceptWord k then return some a else acceptOneOf rest

/-- What follows keywords, if they stand in front. -/
def after (ks : List Keyword) (r : Reader α) : Reader (Option α) := do
  if ← acceptWords ks then some <$> r else return none

/-- At most `n` things with commas between them. -/
def listAtMost (one : Reader α) : Nat → Reader (List α)
  | 0 => fail
  | n + 1 => do
    let first ← one
    if ← accept .comma then return first :: (← listAtMost one n)
    else return [first]

/-- Things with commas between them, of which each takes a token or more. -/
def list (one : Reader α) : Reader (List α) := do
  listAtMost one ((← get).length + 1)

def parens (r : Reader α) : Reader α := do
  expect .opening
  let a ← r
  expect .closing
  return a

end Reader

/-! ## Names and literals -/

open Reader

/-- A name: any word, or a text. -/
def Token.ident? : Token → Option Ident
  | .word name _ => some name
  | .text s => some ⟨s, some '\''⟩
  | _ => none

def ident : Reader Ident :=
  take Token.ident?

/-- Reads the further parts of a qualified name, of which there are at most `n`. -/
def pathAtMost : Nat → Reader (List Ident)
  | 0 => return []
  | n + 1 => do
    if ← accept .period then
      let part ← ident
      return part :: (← pathAtMost n)
    else return []

/-- Reads the parts of a qualified name after the first, each after a point. -/
def furtherParts : Reader (List Ident) := do
  pathAtMost (← get).length

def path : Reader (List Ident) := do
  return (← ident) :: (← furtherParts)

def identList : Reader (List Ident) :=
  parens (list ident)

/-- Reads an alias, before which `AS` has to stand if the word is reserved. -/
def optionalAlias (reserved : List Keyword) : Reader (Option Ident) := do
  if ← acceptWord .AS then some <$> ident
  else attempt <| take fun
    | .word name k => if k.any reserved.contains then none else some name
    | .text s => some ⟨s, some '\''⟩
    | _ => none

/-- The text that a token stands for where a text has to be. -/
def Token.text? : Token → Option String
  | .text s => some s
  | .word ⟨s, some _⟩ _ => some s
  | .word ⟨s, none⟩ _ => if Keyword.isKeyword (Keyword.inCapitals s) then none else some s
  | _ => none

def Token.number? : Token → Option String
  | .number digits long => some (if long then digits ++ "L" else digits)
  | _ => none

/-- The natural number below 2^64 that a token is. -/
def Token.count? : Token → Option Nat
  | .number digits _ => (Number.readUInt64? digits.toList).map UInt64.toNat
  | _ => none

def Token.placeholderName? : Token → Option String
  | .word name _ => some name.text
  | .number digits false => some digits
  | _ => none

end QueryTemplate.Sql
