/-!
# Errors

Why a template, a filter text, a sort list or a request is refused. Every error names the
identifier or the text at fault; its wording is in `message` alone.
-/

namespace QueryTemplate

/-- What is wrong at one place of a filter text or a sort list. -/
inductive Fault
  | expectedNotEqual
  | unterminatedText
  | expectedParameterName
  | invalidNumber (text : String)
  | unexpectedCharacter (c : Char)
  | trailingInput
  | nestedTooDeeply
  | expectedClosing
  | expectedNull
  | expectedListStart
  | expectedListEnd
  | expectedLikeOrIn
  | expectedComparison
  | unexpectedKeyword (word : String)
  | expectedOperand
  | expectedSortField
  | expectedSortDirection
  deriving DecidableEq, Repr

/-- The wording of a fault. -/
def Fault.message : Fault → String
  | .expectedNotEqual => "expected `!=`"
  | .unterminatedText => "unterminated string literal"
  | .expectedParameterName => "expected a parameter name after `:`"
  | .invalidNumber text => "invalid number `" ++ text ++ "`"
  | .unexpectedCharacter c => "unexpected character `" ++ String.singleton c ++ "`"
  | .trailingInput => "unexpected input after expression"
  | .nestedTooDeeply => "expression nested too deeply"
  | .expectedClosing => "expected `)`"
  | .expectedNull => "expected NULL"
  | .expectedListStart => "expected `(` after IN"
  | .expectedListEnd => "expected `)` to close IN list"
  | .expectedLikeOrIn => "expected LIKE or IN after NOT"
  | .expectedComparison => "expected a comparison operator"
  | .unexpectedKeyword word => "unexpected keyword " ++ word
  | .expectedOperand => "expected a value, parameter or field"
  | .expectedSortField => "expected a field to sort by"
  | .expectedSortDirection => "expected `<field> [asc|desc]`"

/-- A fault with its place: the byte offset, and the text from there on. -/
structure TextError where
  position : Nat
  remainder : String
  fault : Fault
  deriving DecidableEq, Repr

/-- The wording of a fault with its place. -/
def TextError.message (e : TextError) : String :=
  "filter parse error at position " ++ toString e.position ++ ": " ++ e.fault.message
    ++ " (near `" ++ e.remainder ++ "`)"

/-- How deep a filter may nest when it is compiled. -/
def maxFilterDepth : Nat := 256

/-- Why a definition cannot be built or a request not be compiled. -/
inductive Error
  | unsupportedStatement (reason : String)
  | missingAlias (expression : String)
  | unsupportedType (tag : String)
  | duplicateAlias (name : String)
  | templateSyntax
  | text (e : TextError)
  | unknownField (name : String)
  | unboundParameter (name : String)
  | filterTooDeep
  | zeroLimit
  deriving DecidableEq, Repr

/-- The wording of an error. -/
def Error.message : Error → String
  | .unsupportedStatement reason => "unsupported statement: " ++ reason
  | .missingAlias expression => "select item `" ++ expression ++ "` has no alias"
  | .unsupportedType tag => "unsupported type tag: " ++ tag
  | .duplicateAlias name => "duplicate field alias: " ++ name
  | .templateSyntax => "template SQL parsing error"
  | .text e => e.message
  | .unknownField name => "unknown field: " ++ name
  | .unboundParameter name => "no value bound for parameter :" ++ name
  | .filterTooDeep => "filter nested deeper than " ++ toString maxFilterDepth ++ " levels"
  | .zeroLimit => "limit must be at least 1"

end QueryTemplate
