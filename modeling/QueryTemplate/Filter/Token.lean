import QueryTemplate.Error
import QueryTemplate.Filter.Basic

/-!
# Tokens of filter text

The lexer cuts a filter text into tokens and keeps with each the text from its first character on.
That suffix is its place: the byte offset of the token is what the suffix is shorter than the text.
-/

namespace QueryTemplate.Filter

open QueryTemplate.Number

/-- The words with a meaning of their own. -/
inductive Keyword
  | and_
  | or_
  | not_
  | like
  | in_
  | is_
  | null
  | true_
  | false_
  deriving DecidableEq, Repr

/-- The keyword that a word is, in any mix of ASCII cases. -/
def Keyword.ofWord? (word : String) : Option Keyword :=
  match Text.lower word with
  | "and" => some .and_
  | "or" => some .or_
  | "not" => some .not_
  | "like" => some .like
  | "in" => some .in_
  | "is" => some .is_
  | "null" => some .null
  | "true" => some .true_
  | "false" => some .false_
  | _ => none

/-- A token of filter text. A word may be a keyword or name a field. -/
inductive Token
  | word (spelling : String)
  | param (name : String)
  | text (s : String)
  | number (v : Value)
  | op (o : CompareOp)
  | opening
  | closing
  | comma
  deriving DecidableEq, Repr

/-- The keyword that a token is. -/
def Token.keyword? : Token → Option Keyword
  | .word spelling => Keyword.ofWord? spelling
  | _ => none

/-- A token with the text from its first character on. -/
structure Lexeme where
  token : Token
  start : List Char
  deriving DecidableEq, Repr

/-! ## One token -/

/-- The characters of words and parameter names; a point allows qualified names. -/
def isWordChar (c : Char) : Bool :=
  Text.isAlphanumeric c || c = '_' || c = '.'

/-- Reads a string after its opening quote; two quotes in a row stand for one. -/
def readText : List Char → Option (List Char × List Char)
  | [] => none
  | '\'' :: '\'' :: cs => (readText cs).map fun (s, rest) => ('\'' :: s, rest)
  | c :: cs =>
    if c = '\'' then some ([], cs) else (readText cs).map fun (s, rest) => (c :: s, rest)

/-- Splits a number without its sign off the front: digits with at most one point among them. -/
def spanNumber (cs : List Char) : List Char × List Char :=
  let whole := cs.takeWhile Char.isDigit
  match cs.dropWhile Char.isDigit with
  | '.' :: rest => (whole ++ '.' :: rest.takeWhile Char.isDigit, rest.dropWhile Char.isDigit)
  | rest => (whole, rest)

/-- The value of a number: with a point a floating point number, else an integer. -/
def numberValue? (text : List Char) : Option Value :=
  if text.contains '.' then (Binary64.read? text).map .float else (readInt64? text).map .integer

/-- The token for the text of a number. -/
def numberToken (text rest : List Char) : Except Fault (Token × List Char) :=
  match numberValue? text with
  | some v => .ok (.number v, rest)
  | none => .error (.invalidNumber (String.ofList text))

/-- Reads one token from its first character, which is no blank, and the text after it. -/
def readToken (c : Char) (cs : List Char) : Except Fault (Token × List Char) :=
  if c = '(' then .ok (.opening, cs)
  else if c = ')' then .ok (.closing, cs)
  else if c = ',' then .ok (.comma, cs)
  else if c = '=' then .ok (.op .eq, cs)
  else if c = '!' then
    match cs with
    | '=' :: rest => .ok (.op .notEq, rest)
    | _ => .error .expectedNotEqual
  else if c = '<' then
    match cs with
    | '=' :: rest => .ok (.op .ltEq, rest)
    | '>' :: rest => .ok (.op .notEq, rest)
    | rest => .ok (.op .lt, rest)
  else if c = '>' then
    match cs with
    | '=' :: rest => .ok (.op .gtEq, rest)
    | rest => .ok (.op .gt, rest)
  else if c = '\'' then
    match readText cs with
    | some (s, rest) => .ok (.text (String.ofList s), rest)
    | none => .error .unterminatedText
  else if c = ':' then
    match cs.takeWhile isWordChar with
    | [] => .error .expectedParameterName
    | name => .ok (.param (String.ofList name), cs.dropWhile isWordChar)
  else if c = '-' then
    let (digits, rest) := spanNumber cs
    numberToken ('-' :: digits) rest
  else if c.isDigit then
    let (digits, rest) := spanNumber (c :: cs)
    numberToken digits rest
  else if Text.isAlphabetic c || c = '_' then
    .ok (.word (String.ofList (c :: cs.takeWhile isWordChar)), cs.dropWhile isWordChar)
  else .error (.unexpectedCharacter c)

/-! ### Nothing but the end of the text is left -/

theorem isSuffix_of_readText {cs s rest : List Char} (h : readText cs = some (s, rest)) :
    rest <:+ cs := by
  fun_induction readText cs generalizing s with
  | case1 => simp at h
  | case2 cs ih =>
    obtain ⟨⟨s', r⟩, hr, he⟩ := Option.map_eq_some_iff.1 h
    cases he
    exact (ih hr).trans ⟨['\'', '\''], rfl⟩
  | case3 cs =>
    cases h
    exact List.suffix_cons _ _
  | case4 c cs _ _ ih =>
    obtain ⟨⟨s', r⟩, hr, he⟩ := Option.map_eq_some_iff.1 h
    cases he
    exact (ih hr).trans (List.suffix_cons _ _)

theorem isSuffix_spanNumber (cs : List Char) : (spanNumber cs).2 <:+ cs := by
  have hd := List.dropWhile_suffix (l := cs) Char.isDigit
  unfold spanNumber
  split
  · rename_i rest h
    exact (List.dropWhile_suffix _).trans ((List.suffix_cons '.' rest).trans (h ▸ hd))
  · exact hd

theorem spanNumber_cons_suffix {c : Char} (cs : List Char) (h : c.isDigit = true) :
    (spanNumber (c :: cs)).2 <:+ cs := by
  have hd := List.dropWhile_suffix (l := cs) Char.isDigit
  unfold spanNumber
  rw [List.dropWhile_cons_of_pos h]
  split
  · rename_i rest h
    exact (List.dropWhile_suffix _).trans ((List.suffix_cons '.' rest).trans (h ▸ hd))
  · exact hd

theorem rest_eq_of_numberToken {text rest rest' : List Char} {t : Token}
    (h : numberToken text rest = .ok (t, rest')) : rest' = rest := by
  cases hv : numberValue? text with
  | none => rw [numberToken, hv] at h; cases h
  | some v => rw [numberToken, hv] at h; cases h; rfl

theorem isSuffix_of_readToken {c : Char} {cs rest : List Char} {t : Token}
    (h : readToken c cs = .ok (t, rest)) : rest <:+ cs := by
  revert h
  fun_cases readToken c cs <;> intro h
  case case12 hr => cases h; exact isSuffix_of_readText hr
  case case15 => cases h; exact List.dropWhile_suffix _
  case case16 hs =>
    have := isSuffix_spanNumber cs
    rw [hs] at this
    exact rest_eq_of_numberToken h ▸ this
  case case17 hd _ _ hs =>
    have := spanNumber_cons_suffix cs hd
    rw [hs] at this
    exact rest_eq_of_numberToken h ▸ this
  case case18 => cases h; exact List.dropWhile_suffix _
  all_goals cases h
  all_goals first
    | exact List.suffix_rfl
    | exact List.suffix_cons _ _

/-! ## The whole text -/

/-- The tokens of a text, or the first fault with the text from it on. -/
def lex : List Char → Except (Fault × List Char) (List Lexeme)
  | [] => .ok []
  | c :: cs =>
    if Text.isBlank c then lex cs
    else
      match _h : readToken c cs with
      | .error fault => .error (fault, c :: cs)
      | .ok (token, rest) => (lex rest).map (⟨token, c :: cs⟩ :: ·)
termination_by cs => cs.length
decreasing_by
  · simp
  · exact Nat.lt_succ_of_le (isSuffix_of_readToken _h).length_le

/-- What the lexer does at a character that is no blank. -/
theorem lex_cons_of_not_blank {c : Char} (hc : Text.isBlank c = false) (cs : List Char) :
    lex (c :: cs) = match readToken c cs with
      | .error fault => .error (fault, c :: cs)
      | .ok (token, rest) => (lex rest).map (⟨token, c :: cs⟩ :: ·) := by
  rw [lex, if_neg (Bool.eq_false_iff.1 hc)]
  split <;> simp only [*]

end QueryTemplate.Filter
