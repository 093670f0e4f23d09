import QueryTemplate.Text.Basic

/-!
# Decimal numerals

Reading signed digits within a fixed range, and reading a decimal numeral with a fraction and an
exponent into its exact value `± coefficient · 10 ^ exponent`.
-/

namespace QueryTemplate.Number

def ofDigits (ds : List Char) : Nat :=
  Nat.ofDigitChars 10 ds 0

/-- Takes a sign off the front; the flag says whether it is a minus. -/
def splitSign : List Char → Bool × List Char
  | '-' :: cs => (true, cs)
  | '+' :: cs => (false, cs)
  | cs => (false, cs)

def readNat? (cs : List Char) : Option Nat :=
  if !cs.isEmpty && cs.all Char.isDigit then some (ofDigits cs) else none

/-- Reads an optional sign and digits whose value is a 64-bit signed integer. -/
def readInt64? (cs : List Char) : Option Int64 :=
  let (negative, ds) := splitSign cs
  match readNat? ds with
  | none => none
  | some n =>
    let v : Int := if negative then -n else n
    if Int64.minValue.toInt ≤ v ∧ v ≤ Int64.maxValue.toInt then some (Int64.ofInt v) else none

/-- Reads an optional plus and digits whose value is a 64-bit unsigned integer. -/
def readUInt64? (cs : List Char) : Option UInt64 :=
  let ds := match cs with
    | '+' :: ds => ds
    | ds => ds
  match readNat? ds with
  | none => none
  | some n => if n < UInt64.size then some (UInt64.ofNat n) else none

/-- The exact value `± coefficient · 10 ^ exponent`. -/
structure Decimal where
  negative : Bool
  coefficient : Nat
  exponent : Int
  deriving DecidableEq, Repr

/-- Reads the exponent part of a numeral, or nothing at all, which stands for zero. -/
def readExponent? : List Char → Option Int
  | [] => some 0
  | c :: cs =>
    if c = 'e' || c = 'E' then
      let (negative, ds) := splitSign cs
      (readNat? ds).map fun n => if negative then -(n : Int) else n
    else none

/--
Reads a numeral without its sign: digits, then a point with digits, then an exponent. The point,
the exponent and the digits on one side of the point may be missing, but not all digits.
-/
def readMagnitude? (negative : Bool) (cs : List Char) : Option Decimal :=
  let whole := cs.takeWhile Char.isDigit
  let rest := cs.dropWhile Char.isDigit
  let (fraction, rest) := match rest with
    | '.' :: more => (more.takeWhile Char.isDigit, more.dropWhile Char.isDigit)
    | _ => ([], rest)
  if whole.isEmpty && fraction.isEmpty then none
  else (readExponent? rest).map fun e =>
    ⟨negative, ofDigits (whole ++ fraction), e - fraction.length⟩

end QueryTemplate.Number
