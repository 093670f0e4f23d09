import QueryTemplate.Json.Reader

/-!
# The values of JSON numbers

A number without a fraction and an exponent is an integer if 64 bits hold it. Any other is a
floating point number, found from a 64-bit significand and a power of ten with one rounding for
each of the steps: the significand, the power, and their product or quotient.
-/

namespace QueryTemplate.Json

open QueryTemplate.Number

/-- The value of a number. -/
inductive Numeral
  | integer (n : Int)
  | float (x : Binary64)
  deriving DecidableEq, Repr

/-- Appends digits to a significand while it fits into 64 bits; the other digits are left over. -/
def extend : Nat → List Char → Nat × List Char
  | s, [] => (s, [])
  | s, d :: ds =>
    let longer := 10 * s + (d.toNat - '0'.toNat)
    if longer < UInt64.size then extend longer ds else (s, d :: ds)

/--
Multiplies or divides by a power of ten. A power beyond the range is applied in steps of 308
places, of which three make any significand zero. Fails if the result is too large.
-/
def scale? : Nat → Binary64 → Int → Option Binary64
  | 0, _, _ => some (Binary64.zero false)
  | n + 1, x, e =>
    let power (k : Nat) := Binary64.ofDecimal ⟨false, 1, k⟩
    if e.natAbs ≤ 308 then
      if 0 ≤ e then
        let y := x.mul (power e.natAbs)
        if y.isFinite then some y else none
      else some (x.div (power e.natAbs))
    else if x.numEq (Binary64.zero false) then some x
    else if 0 ≤ e then none
    else scale? n (x.div (power 308)) (e + 308)

/-- A floating point number from its sign, significand and power of ten. -/
def float? (negative : Bool) (significand : Nat) (exponent : Int) : Option Numeral :=
  (scale? 4 (Binary64.ofNat significand) exponent).map fun x =>
    .float (if negative then x.neg else x)

/--
The value of a well-formed number; none if it is too large. Digits that the significand cannot
take are dropped, those before the point with a higher power of ten in their place.
-/
def numeral? (spelling : String) : Option Numeral :=
  let (negative, cs) := splitSign spelling.toList
  let (whole, rest) := spanDigits cs
  let (significand, dropped) := extend 0 whole
  match rest with
  | [] =>
    if !dropped.isEmpty then float? negative significand dropped.length
    else if !negative then some (.integer significand)
    else if 0 < significand && significand ≤ 0x8000000000000000 then some (.integer (-significand))
    else some (.float (Binary64.ofNat significand).neg)
  | c :: more =>
    let (fraction, rest) := if c = '.' then spanDigits more else ([], c :: more)
    let (significand, unused) := extend significand fraction
    let start : Int := dropped.length - (fraction.length - unused.length : Nat)
    match rest with
    | _ :: exponent =>
      let (below, ds) := splitSign exponent
      let n := ofDigits ds
      if 0x80000000 ≤ n then
        if significand ≠ 0 && !below then none else some (.float (Binary64.zero negative))
      else float? negative significand (start + if below then -(n : Int) else n)
    | [] => float? negative significand start

end QueryTemplate.Json
