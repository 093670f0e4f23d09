import QueryTemplate.Sql.Keyword
import QueryTemplate.Sql.Syntax
import QueryTemplate.Text.CharClass

/-!
# Tokens of template SQL

The lexer drops blanks and comments and cuts the rest into words, literals and symbols. The dialect
has more kinds of them than the grammar has rules for: literals such as `N'a'` and `0x1f`, operators
such as `->`, `<<` and `~`. These become a token of either kind. The dialect accepts templates with
them, and the readers here refuse all of those.
-/

namespace QueryTemplate.Sql

/-- The symbols that some rule of the grammar mentions, and brackets. -/
inductive Symbol
  | opening
  | closing
  | openingSquare
  | closingSquare
  | openingCurly
  | closingCurly
  | comma
  | period
  | semicolon
  | colon
  | doubleColon
  | at
  | eq
  | doubleEq
  | notEq
  | lt
  | ltEq
  | gt
  | gtEq
  | plus
  | minus
  | star
  | slash
  | percent
  | concat
  | pipe
  | ampersand
  | caret
  deriving DecidableEq, Repr

/-- A token of template SQL. A word may be a keyword or name something. No reader takes the literals and
operators that no rule mentions. -/
inductive Token
  | word (name : Ident) (keyword : Option Keyword)
  | number (digits : String) (long : Bool)
  | text (s : String)
  | placeholder (s : String)
  | symbol (s : Symbol)
  | otherLiteral
  | otherOperator
  deriving DecidableEq, Repr

def Token.ofWord (word : List Char) : Token :=
  let spelling := String.ofList word
  .word ⟨spelling, none⟩ (Keyword.ofCapitals? (Keyword.inCapitals spelling))

def Token.capitals? : Token → Option String
  | .word ⟨spelling, none⟩ _ => some (Keyword.inCapitals spelling)
  | _ => none

/-! ## One token -/

def isWordStart (c : Char) : Bool :=
  Text.isAlphabetic c || c = '_' || c = '#' || c = '@'

def isWordPart (c : Char) : Bool :=
  Text.isAlphabetic c || c.isDigit || c = '_' || c = '#' || c = '@' || c = '$'

/-- Reads up to the closing quote; two quotes in a row stand for one. -/
def readQuoted (quote : Char) : List Char → Option (List Char × List Char)
  | [] => none
  | c :: cs =>
    if c ≠ quote then (readQuoted quote cs).map fun (s, rest) => (c :: s, rest)
    else match cs with
      | [] => some ([], [])
      | d :: rest =>
        if d = quote then (readQuoted quote rest).map fun (s, rest) => (c :: s, rest)
        else some ([], d :: rest)

/--
Skips to the end of a comment that `depth` comments are open around. A mark is two characters, and
the second of one may be the first of the next; `before` is the character before the text.
-/
def skipComment : Nat → Char → List Char → Option (List Char)
  | _, _, [] => none
  | depth, before, c :: cs =>
    if before = '/' ∧ c = '*' then skipComment (depth + 1) c cs
    else if before = '*' ∧ c = '/' then
      match depth with
      | 0 => some cs
      | depth + 1 => skipComment depth c cs
    else skipComment depth c cs

/-- The exponent in front of a text, if there is one. -/
def spanExponent (cs : List Char) : List Char × List Char :=
  match cs with
  | e :: rest =>
    if e = 'e' ∨ e = 'E' then
      let (sign, digits) := match rest with
        | c :: rest => if c = '+' ∨ c = '-' then ([c], rest) else ([], c :: rest)
        | [] => ([], [])
      match digits.takeWhile Char.isDigit with
      | [] => ([], cs)
      | ds => (e :: sign ++ ds, digits.dropWhile Char.isDigit)
    else ([], cs)
  | [] => ([], [])

/-- Splits digits, and a point with digits if there is one, off the front. -/
def spanDecimal (cs : List Char) : List Char × List Char :=
  let whole := cs.takeWhile Char.isDigit
  match cs.dropWhile Char.isDigit with
  | '.' :: rest => (whole ++ '.' :: rest.takeWhile Char.isDigit, rest.dropWhile Char.isDigit)
  | rest => (whole, rest)

/-- Reads a number, or a point that no digits stand at. -/
def readNumber (cs : List Char) : Token × List Char :=
  let (digits, rest) := spanDecimal cs
  if digits = ['.'] then (.symbol .period, rest)
  else if digits = ['0'] ∧ rest.head? = some 'x' then (.otherLiteral, rest.tail)
  else
    let (exponent, rest) := spanExponent rest
    let spelling := String.ofList (digits ++ exponent)
    match rest with
    | 'L' :: rest => (.number spelling true, rest)
    | rest => (.number spelling false, rest)

def readWord (start rest : List Char) : Token × List Char :=
  (.ofWord (start ++ rest.takeWhile isWordPart), rest.dropWhile isWordPart)

/-- Reads what starts with an at sign, which takes the next character with it into a word. -/
def readAt : List Char → Token × List Char
  | '>' :: rest => (.otherOperator, rest)
  | '?' :: rest => (.otherOperator, rest)
  | '@' :: ' ' :: rest => (.otherOperator, ' ' :: rest)
  | '@' :: c :: rest => readWord ['@', '@', c] rest
  | ['@'] => (.otherOperator, [])
  | c :: rest =>
    if c = ' ' ∨ c = '\'' ∨ c = '"' ∨ c = '`' then (.symbol .at, c :: rest)
    else readWord ['@', c] rest
  | [] => (.symbol .at, [])

/-- Reads what starts with a number sign, which takes the next character with it into a word. -/
def readHash : List Char → Token × List Char
  | '-' :: rest => (.otherOperator, rest)
  | '>' :: rest => (.otherOperator, rest)
  | ' ' :: rest => (.otherOperator, ' ' :: rest)
  | c :: rest => readWord ['#', c] rest
  | [] => (.otherOperator, [])

/-- The second characters that make a symbol of an operator and themselves that no rule mentions. -/
def otherAfter (c : Char) : List Char :=
  if c = '=' then ['>']
  else if c = '<' then ['<', '@']
  else if c = '>' then ['>']
  else if c = '-' then ['>']
  else if c = '/' then ['/']
  else if c = '|' then ['/']
  else if c = '&' then ['&']
  else if c = '^' then ['@']
  else if c = ':' then ['=']
  else []

def pairSymbol? (c d : Char) : Option Symbol :=
  match c, d with
  | ':', ':' => some .doubleColon
  | '=', '=' => some .doubleEq
  | '<', '=' => some .ltEq
  | '<', '>' => some .notEq
  | '!', '=' => some .notEq
  | '>', '=' => some .gtEq
  | '|', '|' => some .concat
  | _, _ => none

def singleSymbol? (c : Char) : Option Symbol :=
  match c with
  | '(' => some .opening
  | ')' => some .closing
  | '[' => some .openingSquare
  | ']' => some .closingSquare
  | '{' => some .openingCurly
  | '}' => some .closingCurly
  | ',' => some .comma
  | ';' => some .semicolon
  | ':' => some .colon
  | '=' => some .eq
  | '<' => some .lt
  | '>' => some .gt
  | '+' => some .plus
  | '-' => some .minus
  | '*' => some .star
  | '/' => some .slash
  | '%' => some .percent
  | '|' => some .pipe
  | '&' => some .ampersand
  | '^' => some .caret
  | _ => none

/-- The token of one character and its successor, and how much of the text it leaves. -/
def readSymbol (c : Char) (cs : List Char) : Token × List Char :=
  let single := match singleSymbol? c with
    | some s => Token.symbol s
    | none => .otherOperator
  match cs with
  | [] => (single, [])
  | d :: rest =>
    match pairSymbol? c d with
    | some s => (.symbol s, rest)
    | none => if d ∈ otherAfter c then (.otherOperator, rest) else (single, d :: rest)

/-- Whether a letter and the text after it start a literal of a kind that no rule mentions, such as `N'a'`
and `U&'a'`. -/
def startsMarked (c : Char) : List Char → Bool
  | [] => false
  | d :: cs =>
    (d = '\'' && c.toLower ∈ ['b', 'e', 'n', 'r', 'x']) || (d = '"' && c.toLower ∈ ['b', 'r'])
      || (d = '&' && c.toLower = 'u' && cs.head? = some '\'')

/-- Reads a literal of a kind that no rule mentions, from its second character on. -/
def readMarked (cs : List Char) : Option (Token × List Char) :=
  match cs.dropWhile (· = '&') with
  | [] => none
  | quote :: cs => (readQuoted quote cs).map fun (_, rest) => (.otherLiteral, rest)

/--
Reads one token from its first character, which is no blank and starts no comment. Fails if a
quotation does not end.
-/
def readToken (c : Char) (cs : List Char) : Option (Token × List Char) :=
  if c = '\'' then
    (readQuoted c cs).map fun (s, rest) => (.text (String.ofList s), rest)
  else if c = '"' ∨ c = '`' then
    (readQuoted c cs).map fun (s, rest) => (.word ⟨String.ofList s, some c⟩ none, rest)
  else if c.isDigit ∨ c = '.' then some (readNumber (c :: cs))
  else if startsMarked c cs then readMarked cs
  else if c = '@' then some (readAt cs)
  else if c = '#' then some (readHash cs)
  else if c = '$' then
    let name := cs.takeWhile fun c => Text.isAlphanumeric c || c = '_'
    match cs.dropWhile fun c => Text.isAlphanumeric c || c = '_' with
    | '$' :: _ => none
    | rest => some (.placeholder (String.ofList ('$' :: name)), rest)
  else if c = '?' then
    some (.placeholder (String.ofList ('?' :: cs.takeWhile Text.isNumeric)),
      cs.dropWhile Text.isNumeric)
  else if isWordStart c then some (readWord [c] cs)
  else some (readSymbol c cs)

/-! ## The whole text -/

/-- The tokens of a text of at most `n` characters, or nothing if a quotation or comment is open. -/
def lexAtMost : Nat → List Char → Option (List Token)
  | _, [] => some []
  | 0, _ => none
  | n + 1, c :: cs =>
    if Text.isBlank c then lexAtMost n cs
    else if c = '-' ∧ cs.head? = some '-' then lexAtMost n (cs.dropWhile (· ≠ '\n'))
    else if c = '/' ∧ cs.head? = some '*' then (skipComment 0 ' ' cs.tail).bind (lexAtMost n)
    else do
      let (token, rest) ← readToken c cs
      let tokens ← lexAtMost n rest
      return token :: tokens

/-- The tokens of a text. Every token takes a character, so the length bounds their number. -/
def lex (cs : List Char) : Option (List Token) :=
  lexAtMost cs.length cs

end QueryTemplate.Sql
