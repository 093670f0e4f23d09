import QueryTemplate.Number.Binary64

/-!
# Shortest decimals

The decimal with the fewest digits that is nearest to no other binary value. A decimal reads back
as a value when it lies in the interval of the numbers that round to it, and the interval meets the
grid `c · 10 ^ p` only if one of the value's two neighbours on that grid lies in it; so the grids
are tried from coarse to fine and the first with a hit decides.
-/

namespace QueryTemplate.Number

/-- Which of two equally near decimals is taken. -/
inductive Tie
  | up
  | even
  deriving DecidableEq, Repr

namespace Shortest

/--
The numbers that round to a value, in units of a quarter of its last place: `value` itself, the
ends `low` and `high`, whether these belong to it, and the unit as a quotient.
-/
structure Interval where
  low : Nat
  value : Nat
  high : Nat
  closed : Bool
  unit : Nat × Nat

/--
The interval of `m · 2 ^ q`. It ends halfway to the neighbours; below the least mantissa of a power
the neighbour is twice as near. A tie goes to the even mantissa, so its ends belong to it.
-/
def interval (m : Nat) (q : Int) : Interval where
  low := 4 * m - (if m = fractionCount ∧ q ≠ -1074 then 1 else 2)
  value := 4 * m
  high := 4 * m + 2
  closed := m % 2 = 0
  unit := Binary64.toQuotient 1 (q - 2)

/-- The neighbour of the value on the grid of step `10 ^ p` that lies in the interval, if any. -/
def hit? (tie : Tie) (i : Interval) (p : Int) : Option Nat :=
  let grow := if p ≤ 0 then Nat.pow 10 (-p).toNat else 1
  let step := i.unit.2 * if p ≤ 0 then 1 else Nat.pow 10 p.toNat
  let scale := i.unit.1 * grow
  let c := i.value * scale / step
  let before (x y : Nat) : Bool := if i.closed then x ≤ y else x < y
  let lower := before (i.low * scale) (c * step)
  let upper := before ((c + 1) * step) (i.high * scale)
  let twice := 2 * (i.value * scale % step)
  match lower, upper with
  | false, false => none
  | true, false => some c
  | false, true => some (c + 1)
  | true, true =>
    if twice < step then some c
    else if step < twice then some (c + 1)
    else match tie with
      | .up => some (c + 1)
      | .even => some (if c % 2 = 0 then c else c + 1)

/-- Tries the grids of step `10 ^ p`, `10 ^ (p - 1)` and so on. -/
def search (tie : Tie) (i : Interval) : Nat → Int → Nat × Int
  | 0, p => (0, p)
  | n + 1, p =>
    match hit? tie i p with
    | some c => (c, p)
    | none => search tie i n (p - 1)

end Shortest

/--
The shortest decimal `c · 10 ^ p` of the positive value `m · 2 ^ q`. With `0.30103` for the decimal
logarithm of two, the first grid tried is coarser than the value; seventeen digits always suffice.
-/
def shortest (tie : Tie) (m : Nat) (q : Int) : Nat × Int :=
  let p := ((m.log2 : Int) + 1 + q) * 30103 / 100000 + 1
  Shortest.search tie (Shortest.interval m q) 20 p

/-- How a floating point number is written. -/
structure FloatStyle where
  tie : Tie
  /-- Whether a decimal exponent is written as places before or after the point. -/
  positional : Int → Bool
  /-- What follows a number that has no digit after the point. -/
  whole : String
  nan : String
  infinity : String
  negativeInfinity : String

namespace FloatStyle

/-- The digits with the point put where the exponent `p` of the last digit says. -/
def place (style : FloatStyle) (ds : List Char) (p : Int) : String :=
  if 0 ≤ p then
    String.ofList (ds ++ List.replicate p.toNat '0') ++ style.whole
  else
    let places := (-p).toNat
    if places < ds.length then
      String.ofList (ds.take (ds.length - places)) ++ "."
        ++ String.ofList (ds.drop (ds.length - places))
    else "0." ++ String.ofList (List.replicate (places - ds.length) '0' ++ ds)

/-- The digits with a point after the first and the exponent `e`, whose sign is always set. -/
def scientific (ds : List Char) (e : Int) : String :=
  let mantissa := match ds with
    | d :: rest@(_ :: _) => d :: '.' :: rest
    | ds => ds
  let sign := if e < 0 then "e-" else "e+"
  String.ofList mantissa ++ sign ++ toString e.natAbs

def write (style : FloatStyle) : Binary64 → String
  | .nan => style.nan
  | .infinite false => style.infinity
  | .infinite true => style.negativeInfinity
  | .finite negative exponent fraction =>
    let sign := if negative then "-" else ""
    let (m, q) := Binary64.scaled exponent fraction
    if m = 0 then sign ++ "0" ++ style.whole
    else
      let (c, p) := shortest style.tie m q
      let ds := Nat.toDigits 10 c
      let e := p + ds.length - 1
      sign ++ if style.positional e then style.place ds p else scientific ds e

end FloatStyle

end QueryTemplate.Number
