import QueryTemplate.Filter.Token

/-!
# Reading filters

A condition is a disjunction of conjunctions of negations, groups and predicates. Each reader takes
tokens from the front and returns the rest; a fault comes with the tokens from the offending one on.

How deep `NOT`s and groups may still nest is a number that the reader of a nested condition is given
one less of, so that conditions side by side do not use up each other's depth.
-/

namespace QueryTemplate.Filter

/-- Takes something off the front of the tokens, or reports a fault where it lies. -/
abbrev Reader (α : Type) := List Token → Except (Fault × List Token) (α × List Token)

/-- The tokens after a keyword in front. -/
def eat? (k : Keyword) : List Token → Option (List Token)
  | [] => none
  | t :: ts => if t.keyword? = some k then some ts else none

/-- Requires a token. -/
def expect (t : Token) (fault : Fault) : List Token → Except (Fault × List Token) (List Token)
  | [] => .error (fault, [])
  | u :: ts => if u = t then .ok ts else .error (fault, u :: ts)

/-! ## Predicates -/

/-- The operand that a word stands for. Three keywords are literals, the others are none. -/
def ofWord (spelling : String) : Except Fault Operand :=
  match Keyword.ofWord? spelling with
  | none => .ok (.field spelling)
  | some .true_ => .ok (.literal (.boolean true))
  | some .false_ => .ok (.literal (.boolean false))
  | some .null => .ok (.literal .null)
  | some _ => .error (.unexpectedKeyword spelling)

/-- The operand that a token stands for. -/
def ofToken : Token → Except Fault Operand
  | .text s => .ok (.literal (.text s))
  | .number v => .ok (.literal v)
  | .param name => .ok (.param name)
  | .word spelling => ofWord spelling
  | _ => .error .expectedOperand

/-- Reads an operand. -/
def operand : Reader Operand
  | [] => .error (.expectedOperand, [])
  | t :: ts =>
    match ofToken t with
    | .ok o => .ok (o, ts)
    | .error fault => .error (fault, t :: ts)

/-- Reads the further items of a list, each after a comma. -/
def moreItems : List Token → Except (Fault × List Token) (List Operand × List Token)
  | .comma :: t :: ts =>
    match ofToken t with
    | .ok o => (moreItems ts).map fun (os, rest) => (o :: os, rest)
    | .error fault => .error (fault, t :: ts)
  | [.comma] => .error (.expectedOperand, [])
  | ts => .ok ([], ts)

/-- Reads the items of a list and the parentheses around them. -/
def itemList : Reader (List Operand) := fun ts => do
  let ts ← expect .opening .expectedListStart ts
  let (o, ts) ← operand ts
  let (os, ts) ← moreItems ts
  let ts ← expect .closing .expectedListEnd ts
  .ok (o :: os, ts)

/-- Reads what follows `IS` after an operand. -/
def nullTest (left : Operand) : Reader Filter := fun ts =>
  let (negated, ts) := match eat? .not_ ts with
    | some rest => (true, rest)
    | none => (false, ts)
  match eat? .null ts with
  | some rest => .ok (.isNull left negated, rest)
  | none => .error (.expectedNull, ts)

/-- Reads `LIKE` or `IN` and what follows it after an operand. -/
def membership (left : Operand) (negated : Bool) : Reader Filter := fun ts =>
  match eat? .like ts with
  | some rest => do
    let (right, rest) ← operand rest
    .ok (.compare left (if negated then .notLike else .like) right, rest)
  | none =>
    match eat? .in_ ts with
    | some rest => do
      let (items, rest) ← itemList rest
      .ok (.isIn left items negated, rest)
    | none => .error (if negated then .expectedLikeOrIn else .expectedComparison, ts)

/-- Reads what follows an operand in a predicate. -/
def predicateAfter (left : Operand) : Reader Filter
  | .op o :: ts => do
    let (right, rest) ← operand ts
    .ok (.compare left o right, rest)
  | ts =>
    match eat? .is_ ts with
    | some rest => nullTest left rest
    | none =>
      match eat? .not_ ts with
      | some rest => membership left true rest
      | none => membership left false ts

/-- Reads a comparison, a test for null, or a test for membership in a list. -/
def predicate : Reader Filter := fun ts => do
  let (left, ts) ← operand ts
  predicateAfter left ts

/-! ## Combinations -/

/--
Reads on while the keyword joins another condition, and joins from the left. Each round takes a
keyword away, so the number of tokens bounds the rounds.
-/
def chain (k : Keyword) (join : Filter → Filter → Filter) (one : Reader Filter) :
    Nat → Filter → Reader Filter
  | 0, left, ts => .ok (left, ts)
  | n + 1, left, ts =>
    match eat? k ts with
    | none => .ok (left, ts)
    | some rest => do
      let (right, rest) ← one rest
      chain k join one n (join left right) rest

/-- Reads conditions joined by `AND`. -/
def conjunction (one : Reader Filter) : Reader Filter := fun ts => do
  let (left, rest) ← one ts
  chain .and_ .and one rest.length left rest

/-- Reads conjunctions joined by `OR`. -/
def disjunction (one : Reader Filter) : Reader Filter := fun ts => do
  let (left, rest) ← conjunction one ts
  chain .or_ .or (conjunction one) rest.length left rest

/-- How deep `NOT`s and groups may nest. -/
def maxNesting : Nat := 64

/-- Reads a negation, a group or a predicate, with `depth` levels of nesting left. -/
def unary : Nat → Reader Filter
  | 0, ts =>
    if (eat? .not_ ts).isSome || ts.head? = some .opening then .error (.nestedTooDeeply, ts)
    else predicate ts
  | depth + 1, ts =>
    match eat? .not_ ts with
    | some rest => do
      let (inner, rest) ← unary depth rest
      .ok (.not inner, rest)
    | none =>
      match ts with
      | .opening :: rest => do
        let (inner, rest) ← disjunction (unary depth) rest
        let rest ← expect .closing .expectedClosing rest
        .ok (inner, rest)
      | ts => predicate ts

/-- The filter that all the tokens make up. -/
def ofTokens (ts : List Token) : Except (Fault × List Token) Filter := do
  let (f, rest) ← disjunction (unary maxNesting) ts
  if rest.isEmpty then .ok f else .error (.trailingInput, rest)

/-! ## Text -/

/-- A fault where only `rest` is left of the text. -/
def faultAt (text : List Char) (fault : Fault) (rest : List Char) : TextError where
  position := Text.byteLength text - Text.byteLength rest
  remainder := String.ofList rest
  fault := fault

/-- The text from the last `n` tokens on, or its end. -/
def lastStart (lexemes : List Lexeme) (n : Nat) : List Char :=
  match lexemes.drop (lexemes.length - n) with
  | [] => []
  | l :: _ => l.start

/-- Reads a filter. The whole text is cut into tokens first, so its first lexical fault wins. -/
def read (text : List Char) : Except TextError Filter :=
  match lex text with
  | .error (fault, rest) => .error (faultAt text fault rest)
  | .ok lexemes =>
    match ofTokens (lexemes.map Lexeme.token) with
    | .error (fault, ts) => .error (faultAt text fault (lastStart lexemes ts.length))
    | .ok f => .ok f

/-- Reads filter text such as `age > :minAge AND name LIKE 'A%'`. -/
def parse (text : String) : Except TextError Filter :=
  read text.toList

end QueryTemplate.Filter
