import QueryTemplate.Sql.DataType

/-!
# Expressions of template SQL

An expression is an operand and the operators after it that bind tightly enough. What nests in it
is read one level deeper, by the readers of `Below`; so this module has no recursion of its own
beyond the length of the text.
-/

namespace QueryTemplate.Sql

open Reader

/-- The readers of what nests: expressions that bind tighter than a level, and queries. -/
structure Below where
  expr : Nat → Reader String
  query : Reader Query

namespace Below

def anyExpr (b : Below) : Reader String :=
  b.expr 0

def queryText (b : Below) : Reader String :=
  Query.written <$> b.query

end Below

/-- Whether a query starts here. -/
def startsQuery (ts : List Token) : Bool :=
  keyword? ts = some .SELECT || keyword? ts = some .WITH

/-! ## Operators -/

/-- The operators that symbols are, with how tightly they bind. -/
def Symbol.operator? : Symbol → Option (Nat × String)
  | .eq => some (20, "=")
  | .doubleEq => some (20, "=")
  | .notEq => some (20, "<>")
  | .lt => some (20, "<")
  | .ltEq => some (20, "<=")
  | .gt => some (20, ">")
  | .gtEq => some (20, ">=")
  | .pipe => some (21, "|")
  | .caret => some (22, "^")
  | .ampersand => some (23, "&")
  | .plus => some (30, "+")
  | .minus => some (30, "-")
  | .star => some (40, "*")
  | .slash => some (40, "/")
  | .percent => some (40, "%")
  | .concat => some (40, "||")
  | _ => none

/-- The operators that keywords are, with how tightly they bind. -/
def Keyword.operator? : Keyword → Option (Nat × String)
  | .OR => some (5, "OR")
  | .AND => some (10, "AND")
  | .OVERLAPS => some (20, "OVERLAPS")
  | .XOR => some (24, "XOR")
  | _ => none

/-- The operator between two operands that a token is. -/
def Token.operator? : Token → Option (Nat × String)
  | .symbol s => s.operator?
  | .word _ (some k) => k.operator?
  | _ => none

/-- The operators that can range over the rows of a query. -/
def comparisons : List String :=
  ["=", "<>", "<", "<=", ">", ">="]

/-- How tightly a test with words binds. No reader takes an operator by its name, a division without
remainder or a collation. -/
def Keyword.testLevel : Keyword → Nat
  | .IN | .BETWEEN | .OPERATOR => 20
  | .LIKE | .ILIKE | .RLIKE | .REGEXP | .SIMILAR => 19
  | .DIV => 40
  | .COLLATE => 50
  | _ => 0

/-- How tightly the operator in front binds; zero if there is none. -/
def nextLevel (ts : List Token) : Nat :=
  if startsWith .doubleColon ts then 50
  else match ts.head?.bind Token.operator? with
    | some (level, _) => level
    | none =>
      match keyword? ts with
      | some .IS => 17
      | some .NOT => ((keyword? ts.tail).map Keyword.testLevel).getD 0
      | some k => k.testLevel
      | none => 0

/-- The level of a sign in front of an operand, and of the operators that bind tighter. -/
def signLevel : Nat := 40

def notLevel : Nat := 15

/-! ## Orders -/

def orderTerm (b : Below) : Reader String := do
  let key ← b.anyExpr
  let direction ← acceptOneOf [(.ASC, "ASC"), (.DESC, "DESC")]
  let nulls ←
    if ← acceptWords [.NULLS, .FIRST] then pure ["NULLS FIRST"]
    else do
      if ← acceptWords [.NULLS, .LAST] then pure ["NULLS LAST"] else pure []
  return spaced (key :: direction.toList ++ nulls)

/-- Reads the elements of an order, if there is one. -/
def orderTerms (b : Below) : Reader (List String) :=
  return (← after [.ORDER, .BY] (list (orderTerm b))).getD []

/-! ## Calls -/

def starAtMost : Nat → Reader String
  | 0 => fail
  | n + 1 => do
    expect .period
    if ← accept .star then return ".*"
    else
      let part ← ident
      return "." ++ part.written ++ (← starAtMost n)

/-- Reads a star, or the star of a table. -/
def star : Reader String := do
  if ← accept .star then return "*"
  else
    let first ← ident
    return first.written ++ (← starAtMost (← get).length)

/-- Reads an argument, which may be a star. -/
def argument (b : Below) : Reader String := do
  match ← attempt star with
  | some s => return s
  | none => b.anyExpr

def arguments (b : Below) : Reader String := do
  expect .opening
  if ← accept .closing then return "()"
  let all ← acceptWord .ALL
  let distinct ← acceptWord .DISTINCT
  if all && distinct then fail
  let items ← list (argument b)
  expect .closing
  let multiplicity := if all then ["ALL"] else if distinct then ["DISTINCT"] else []
  return parenthesized (spaced (multiplicity ++ [listed items]))

/-- Reads the window that a call ranges over, if there is one. -/
def window (b : Below) : Reader (List String) := do
  if ← acceptWord .OVER then
    if startsWith .opening (← get) then
      let text ← parens do
        let partition ← after [.PARTITION, .BY] (list b.anyExpr)
        let order ← orderTerms b
        return spaced (clause "PARTITION BY" (partition.map listed)
          ++ clause "ORDER BY" (if order.isEmpty then none else some (listed order)))
      return ["OVER", parenthesized text]
    else return ["OVER", (← ident).written]
  else return []

/-- The words that go on with a call and that no reader takes. -/
def Keyword.callTails : List Keyword :=
  [.FILTER, .IGNORE, .RESPECT, .WITHIN]

def call (b : Below) (function : String) : Reader String := do
  let first ← arguments b
  let second ← if startsWith .opening (← get) then arguments b else pure ""
  if (keyword? (← get)).any Keyword.callTails.contains then fail
  let windowed ← window b
  return spaced ((function ++ first ++ second) :: windowed)

/-! ## Forms with a syntax of their own -/

def dateFields : List String :=
  ["YEAR", "MONTH", "WEEK", "DAY", "DAYOFWEEK", "DAYOFYEAR", "DATE", "DATETIME", "HOUR", "MINUTE",
   "SECOND", "CENTURY", "DECADE", "DOY", "DOW", "EPOCH", "ISODOW", "ISOYEAR", "ISOWEEK", "JULIAN",
   "MICROSECOND", "MICROSECONDS", "MILLENIUM", "MILLENNIUM", "MILLISECOND", "MILLISECONDS",
   "NANOSECOND", "NANOSECONDS", "QUARTER", "TIME", "TIMEZONE", "TIMEZONE_ABBR", "TIMEZONE_HOUR",
   "TIMEZONE_MINUTE", "TIMEZONE_REGION"]

def intervalUnits : List String :=
  ["YEAR", "MONTH", "WEEK", "DAY", "HOUR", "MINUTE", "SECOND", "CENTURY", "DECADE", "DOW", "DOY",
   "EPOCH", "ISODOW", "ISOYEAR", "JULIAN", "MICROSECOND", "MICROSECONDS", "MILLENIUM",
   "MILLENNIUM", "MILLISECOND", "MILLISECONDS", "NANOSECOND", "NANOSECONDS", "QUARTER", "TIMEZONE",
   "TIMEZONE_HOUR", "TIMEZONE_MINUTE"]

/-- The normal form of a field of dates and times; a name that is none stays as it is. -/
def Token.dateField? (t : Token) : Option String :=
  match t.capitals?.filter dateFields.contains with
  | some field => some field
  | none => t.ident?.map Ident.written

def dateField : Reader String :=
  take Token.dateField?

/-- Reads a text of a known type, such as a date. -/
def typedText : Reader String := do
  if keyword? (← get) = some .INTERVAL then fail
  let type ← knownType
  let text ← take Token.text?
  return spaced [type, quoted '\'' text]

/-- Reads the branches of a case, of which there are at most `n`, from their first condition on. -/
def branchesAtMost (b : Below) : Nat → Reader (List String)
  | 0 => fail
  | n + 1 => do
    let condition ← b.anyExpr
    expectWord .THEN
    let result ← b.anyExpr
    let branch := ["WHEN", condition, "THEN", result]
    if ← acceptWord .WHEN then return branch ++ (← branchesAtMost b n)
    else return branch

def caseForm (b : Below) : Reader String := do
  let operand ←
    if ← acceptWord .WHEN then pure none
    else do
      let e ← b.anyExpr
      expectWord .WHEN
      pure (some e)
  let branches ← branchesAtMost b ((← get).length + 1)
  let otherwise ← after [.ELSE] b.anyExpr
  expectWord .END
  return spaced (["CASE"] ++ operand.toList ++ branches ++ clause "ELSE" otherwise ++ ["END"])

def castForm (b : Below) (function : String) : Reader String := do
  let text ← parens do
    let e ← b.anyExpr
    expectWord .AS
    return spaced [e, "AS", ← dataType]
  return function ++ parenthesized text

/-- Reads the set of characters of a type. -/
def characterSet : Reader (List Ident) := do
  let _ ← take fun t => t.capitals?.filter (· = "CHARACTER")
  expectWord .SET
  path

/-- Reads a conversion to a type or to a set of characters. -/
def convertForm (b : Below) (function : String) : Reader String := do
  let text ← parens do
    let e ← b.anyExpr
    if ← acceptWord .USING then return spaced [e, "USING", writtenPath (← path)]
    else
      expect .comma
      let type ← dataType
      let characters ← attempt characterSet
      return listed [e, spaced (type :: clause "CHARACTER SET" (characters.map writtenPath))]
  return function ++ parenthesized text

/-- Reads a part of a structure, which may have a name. -/
def structPart (b : Below) : Reader String := do
  let e ← b.anyExpr
  let name ← after [.AS] ident
  return spaced (e :: clause "AS" (name.map Ident.written))

def structForm (b : Below) : Reader String := do
  return "STRUCT" ++ parenthesized (listed (← parens (list (structPart b))))

def existsForm (b : Below) : Reader String := do
  let q ← parens b.queryText
  return spaced ["EXISTS", parenthesized q]

def extractForm (b : Below) : Reader String := do
  let text ← parens do
    let field ← dateField
    if ← acceptWord .FROM then return spaced [field, "FROM", ← b.anyExpr]
    else
      expect .comma
      return listed [field, ← b.anyExpr]
  return "EXTRACT" ++ parenthesized text

def roundingForm (b : Below) (function : String) : Reader String := do
  let text ← parens do
    let e ← b.anyExpr
    if ← acceptWord .TO then return spaced [e, "TO", ← dateField]
    else if ← accept .comma then return listed [e, ← take Token.number?]
    else return e
  return function ++ parenthesized text

/-- Reads the position of a text in another after the name of the function, or a call of it. -/
def positionForm (b : Below) (function : Ident) : Reader String := do
  let form ← attempt <| parens do
    let part ← b.expr 20
    expectWord .IN
    return spaced [part, "IN", ← b.anyExpr]
  match form with
  | some text => return "POSITION" ++ parenthesized text
  | none => call b function.written

def substringForm (b : Below) : Reader String := do
  let text ← parens do
    let e ← b.anyExpr
    let commas ← accept .comma
    let start ← if commas then some <$> b.anyExpr else after [.FROM] b.anyExpr
    let length ←
      if ← acceptWord .FOR then some <$> b.anyExpr
      else do
        if ← accept .comma then some <$> b.anyExpr else pure none
    if commas then return listed (e :: start.toList ++ length.toList)
    else return spaced (e :: clause "FROM" start ++ clause "FOR" length)
  return "SUBSTRING" ++ parenthesized text

def trimForm (b : Below) : Reader String := do
  let text ← parens do
    let side ← acceptOneOf [(.BOTH, "BOTH"), (.LEADING, "LEADING"), (.TRAILING, "TRAILING")]
    let e ← b.anyExpr
    if ← acceptWord .FROM then return spaced (side.toList ++ [e, "FROM", ← b.anyExpr])
    else if ← accept .comma then return listed (e :: (← list b.anyExpr))
    else return spaced (side.toList ++ [e])
  return "TRIM" ++ parenthesized text

def intervalForm (operand : Reader String) : Reader String := do
  let value ← operand
  match ← attempt (take fun t => t.capitals?.filter intervalUnits.contains) with
  | none => return spaced ["INTERVAL", value]
  | some unit =>
    let last ← if unit = "SECOND" then pure none else after [.TO] dateField
    return spaced (["INTERVAL", value, unit] ++ clause "TO" last)

def notForm (b : Below) : Reader String := do
  if ← acceptWord .EXISTS then return spaced ["NOT", ← existsForm b]
  else return spaced ["NOT", ← b.expr notLevel]

/-! ## Operands -/

/-- Reads an operand from its first word, which has no special meaning. -/
def plainOperand (b : Below) (name : Ident) : Reader String := do
  let ts ← get
  if startsWith .period ts || startsWith .opening ts then
    let path := writtenPath (name :: (← furtherParts))
    if startsWith .opening (← get) then call b path else return path
  else if name.text.toList.head? = some '_' then
    match ← attempt (take fun t => match t with | .text s => some s | _ => none) with
    | some s => return spaced [name.text, quoted '\'' s]
    | none => return name.written
  else return name.written

/-- The reader of what a keyword starts, if it has a special meaning in front of an operand. -/
def specialOperand? (b : Below) (operand : Reader String) (name : Ident) :
    Keyword → Option (Reader String)
  | .TRUE => some (return "true")
  | .FALSE => some (return "false")
  | .NULL => some (return "NULL")
  | .CURRENT_CATALOG | .CURRENT_USER | .SESSION_USER | .USER => some (return name.written)
  | .CURRENT_TIMESTAMP | .CURRENT_TIME | .CURRENT_DATE | .LOCALTIME | .LOCALTIMESTAMP => some do
    if startsWith .opening (← get) then return name.written ++ (← arguments b)
    else return name.written
  | .CASE => some (caseForm b)
  | .CAST => some (castForm b "CAST")
  | .TRY_CAST => some (castForm b "TRY_CAST")
  | .SAFE_CAST => some (castForm b "SAFE_CAST")
  | .CONVERT => some (convertForm b "CONVERT")
  | .TRY_CONVERT => some (convertForm b "TRY_CONVERT")
  | .STRUCT => some (structForm b)
  | .EXISTS => some (existsForm b)
  | .EXTRACT => some (extractForm b)
  | .CEIL => some (roundingForm b "CEIL")
  | .FLOOR => some (roundingForm b "FLOOR")
  | .POSITION => some do
    if startsWith .opening (← get) then positionForm b name else plainOperand b name
  | .SUBSTRING => some (substringForm b)
  | .TRIM => some (trimForm b)
  | .INTERVAL => some (intervalForm operand)
  | .NOT => some (notForm b)
  | _ => none

/-- The keywords that cannot be names where their special meaning does not fit. -/
def alwaysSpecial : List Keyword :=
  [.EXISTS, .INTERVAL, .STRUCT, .TRIM]

/-- Reads an operand from its first word. A special meaning goes before a name. -/
def wordOperand (b : Below) (operand : Reader String) (name : Ident) (k : Option Keyword) :
    Reader String :=
  match k.bind (specialOperand? b operand name) with
  | none => plainOperand b name
  | some special =>
    if k.any alwaysSpecial.contains then special else orElse special (plainOperand b name)

/-- Reads what is in parentheses, from after the first one: a query, or expressions. -/
def groupOperand (b : Below) : Reader String := do
  let inner ← if startsQuery (← get) then b.queryText else listed <$> list b.anyExpr
  expect .closing
  if ← accept .period then
    let component ← take fun
      | .word name _ => some name
      | _ => none
    return parenthesized inner ++ "." ++ component.written
  else return parenthesized inner

/-- Reads an operand; an interval in an interval counts against `n`. -/
def operandAtMost (b : Below) : Nat → Reader String
  | 0 => fail
  | n + 1 => do
    match ← attempt typedText with
    | some text => return text
    | none =>
      match ← take some with
      | .word name k => wordOperand b (operandAtMost b n) name k
      | .number digits long => return if long then digits ++ "L" else digits
      | .text s => return quoted '\'' s
      | .placeholder s => return s
      | .symbol .colon => return ":" ++ (← take Token.placeholderName?)
      | .symbol .at => return "@" ++ (← take Token.placeholderName?)
      | .symbol .minus => return "-" ++ (← b.expr signLevel)
      | .symbol .plus => return "+" ++ (← b.expr signLevel)
      | .symbol .opening => groupOperand b
      | _ => fail

/-! ## Operators and what follows them -/

/-- Whether the parenthesis that `depth` is counted from is closed by the last token. -/
def closesLast : Nat → List Token → Bool
  | _, [] => false
  | depth, t :: ts =>
    if t = .symbol .opening then closesLast (depth + 1) ts
    else if t = .symbol .closing then
      if depth ≤ 1 then ts.isEmpty else closesLast (depth - 1) ts
    else closesLast depth ts

def isSubquery (ts : List Token) : Bool :=
  startsWith .opening ts && startsQuery ts.tail && closesLast 0 ts

/-- Reads what a comparison ranges over; parentheses are written only where none are around it. -/
def rangeOperand (b : Below) (level : Nat) : Reader String := do
  let ts ← get
  unless startsWith .opening ts do fail
  let inner := !startsQuery ts.tail
  if inner then expect .opening
  let start ← get
  let text ← b.expr level
  let read := start.take (start.length - (← get).length)
  if inner then expect .closing
  return if isSubquery read then text else parenthesized text

def afterOperator (b : Below) (left : String) (level : Nat) (op : String) : Reader String := do
  match ← acceptOneOf [(.ANY, "ANY"), (.ALL, "ALL"), (.SOME, "SOME")] with
  | none => return spaced [left, op, ← b.expr level]
  | some quantifier =>
    let right ← rangeOperand b level
    unless comparisons.contains op do fail
    return spaced [left, op, quantifier ++ right]

/-- Reads what follows `IS`. -/
def isForm (b : Below) (left : String) : Reader String := do
  let word := if ← acceptWord .NOT then "IS NOT" else "IS"
  match ← acceptOneOf [(.NULL, "NULL"), (.TRUE, "TRUE"), (.FALSE, "FALSE"),
      (.UNKNOWN, "UNKNOWN")] with
  | some test => return spaced [left, word, test]
  | none =>
    unless ← acceptWords [.DISTINCT, .FROM] do fail
    return spaced [left, word, "DISTINCT FROM", ← b.anyExpr]

/-- Reads what follows `IN`. -/
def inForm (b : Below) (left : List String) : Reader String := do
  let items ← parens do
    if startsQuery (← get) then b.queryText else listed <$> list b.anyExpr
  return spaced (left ++ ["IN", parenthesized items])

/-- Reads what follows `BETWEEN`. -/
def betweenForm (b : Below) (left : List String) : Reader String := do
  let low ← b.expr (Keyword.testLevel .BETWEEN)
  expectWord .AND
  let high ← b.expr (Keyword.testLevel .BETWEEN)
  return spaced (left ++ ["BETWEEN", low, "AND", high])

/-- Reads what follows the words of a test for a pattern. The escape is written as it is. -/
def patternForm (b : Below) (left : List String) : Reader String := do
  let pattern ← b.expr (Keyword.testLevel .LIKE)
  let escape ← after [.ESCAPE] (take Token.text?)
  return spaced (left ++ [pattern] ++ clause "ESCAPE" (escape.map fun s => "'" ++ s ++ "'"))

/-- Reads what follows `LIKE` or `ILIKE`. -/
def likeForm (b : Below) (left : List String) (word : String) : Reader String := do
  if ← acceptWord .ANY then patternForm b (left ++ [word, "ANY"])
  else patternForm b (left ++ [word])

/-- Reads what follows `RLIKE` or `REGEXP`. -/
def regexForm (b : Below) (left : List String) (word : String) : Reader String := do
  return spaced (left ++ [word, ← b.expr (Keyword.testLevel .RLIKE)])

/-- Reads a test with words, which may be negated. -/
def testForm (b : Below) (left : String) : Reader String := do
  let left := if ← acceptWord .NOT then [left, "NOT"] else [left]
  if ← acceptWord .IN then inForm b left
  else if ← acceptWord .BETWEEN then betweenForm b left
  else if ← acceptWord .LIKE then likeForm b left "LIKE"
  else if ← acceptWord .ILIKE then likeForm b left "ILIKE"
  else if ← acceptWord .RLIKE then regexForm b left "RLIKE"
  else if ← acceptWord .REGEXP then regexForm b left "REGEXP"
  else if ← acceptWords [.SIMILAR, .TO] then patternForm b (left ++ ["SIMILAR TO"])
  else fail

/-- Reads the operator in front, which binds at a level, and what follows it. -/
def operation (b : Below) (left : String) (level : Nat) : Reader String := do
  if ← accept .doubleColon then return left ++ "::" ++ (← dataType)
  else
    match (← get).head?.bind Token.operator? with
    | some (_, op) =>
      modify List.tail
      afterOperator b left level op
    | none => if ← acceptWord .IS then isForm b left else testForm b left

/-- Reads on while the next operator binds tighter than a level, for at most `n` operators. -/
def operationsAtMost (b : Below) (level : Nat) : Nat → String → Reader String
  | 0, left => return left
  | n + 1, left => do
    let next := nextLevel (← get)
    if next ≤ level then return left
    else operationsAtMost b level n (← operation b left next)

/-- Reads an expression whose operators bind tighter than a level. -/
def expression (b : Below) (level : Nat) : Reader String := do
  let n := (← get).length + 1
  let first ← operandAtMost b n
  operationsAtMost b level n first

end QueryTemplate.Sql
