import QueryTemplate.Number.Decimal

/-!
# Binary floating point numbers

The values of the 64-bit binary format, each with one representation, and the roundings into it:
of a quotient, of a decimal numeral, of a product and of a quotient of two such values. All of it
is exact arithmetic on natural numbers with one rounding, to the nearest value and on a tie to the
even one.
-/

namespace QueryTemplate.Number

/-- The number of fraction fields, which is the 52nd power of two. -/
abbrev fractionCount : Nat := 0x10000000000000

/-- A value of the 64-bit binary format. -/
inductive Binary64
  | nan
  | infinite (negative : Bool)
  /-- The exponent field and the fraction field of a finite value. -/
  | finite (negative : Bool) (exponent : Fin 2047) (fraction : Fin fractionCount)
  deriving DecidableEq, Repr

namespace Binary64

def zero (negative : Bool) : Binary64 :=
  .finite negative 0 0

def isFinite : Binary64 → Bool
  | .finite .. => true
  | _ => false

def neg : Binary64 → Binary64
  | .nan => .nan
  | .infinite s => .infinite (!s)
  | .finite s e f => .finite (!s) e f

/-- The mantissa `m` and the power `q` for which a finite value has the magnitude `m · 2 ^ q`. -/
def scaled (exponent : Fin 2047) (fraction : Fin fractionCount) : Nat × Int :=
  if exponent.val = 0 then (fraction.val, -1074)
  else (fraction.val + fractionCount, (exponent.val : Int) - 1075)

/--
The finite value of magnitude `m · 2 ^ (e - 1074)`, for `m` at most `2 ^ 53` and, if `e` is not
zero, at least `2 ^ 52`; infinite if it is too large. The exponent field and the fraction field
read as one number are `e · 2 ^ 52 + m`, also where a carry moves `m` to the next power.
-/
def ofFields (negative : Bool) (e m : Nat) : Binary64 :=
  let fields := e * fractionCount + m
  if h : fields / fractionCount < 2047 then
    .finite negative ⟨fields / fractionCount, h⟩ ⟨fields % fractionCount, Nat.mod_lt _ (by decide)⟩
  else .infinite negative

/-- The natural number nearest to `num / den`, the even one of two. -/
def roundDiv (num den : Nat) : Nat :=
  let q := num / den
  let twice := 2 * (num % den)
  if twice < den then q
  else if den < twice then q + 1
  else if q % 2 = 0 then q else q + 1

/-- The value nearest to `± num / den`. -/
def ofQuotient (negative : Bool) (num den : Nat) : Binary64 :=
  if num = 0 then zero negative
  else
    let q : Int := (num.log2 : Int) - den.log2 - 52
    let below := if 0 ≤ q then num < fractionCount * (den * Nat.pow 2 q.toNat)
      else num * Nat.pow 2 (-q).toNat < fractionCount * den
    let q := max (if below then q - 1 else q) (-1074)
    let m := if 0 ≤ q then roundDiv num (den * Nat.pow 2 q.toNat)
      else roundDiv (num * Nat.pow 2 (-q).toNat) den
    ofFields negative (q + 1074).toNat m

/--
The value nearest to a decimal. A coefficient of `d` digits with an exponent `e` is at least
`10 ^ (d + e - 1)` and less than `10 ^ (d + e)`, so it is too large for `d + e > 310` and nearest
to zero for `d + e < -330`; only in between is the power of ten computed.
-/
def ofDecimal (x : Decimal) : Binary64 :=
  let order := (Nat.toDigits 10 x.coefficient).length + x.exponent
  if x.coefficient = 0 then zero x.negative
  else if 310 < order then .infinite x.negative
  else if order < -330 then zero x.negative
  else if 0 ≤ x.exponent then
    ofQuotient x.negative (x.coefficient * Nat.pow 10 x.exponent.toNat) 1
  else ofQuotient x.negative x.coefficient (Nat.pow 10 (-x.exponent).toNat)

/-- The value nearest to a natural number. -/
def ofNat (n : Nat) : Binary64 :=
  ofQuotient false n 1

/-- The number `m · 2 ^ q` as a quotient. -/
def toQuotient (m : Nat) (q : Int) : Nat × Nat :=
  if 0 ≤ q then (m * Nat.pow 2 q.toNat, 1) else (m, Nat.pow 2 (-q).toNat)

/-- The product of two finite values; no number if one is not finite. -/
def mul : Binary64 → Binary64 → Binary64
  | .finite s e f, .finite s' e' f' =>
    let (m, q) := scaled e f
    let (m', q') := scaled e' f'
    let (num, den) := toQuotient (m * m') (q + q')
    ofQuotient (s != s') num den
  | _, _ => .nan

/-- The quotient of two finite values; no number if one is not finite or the divisor is zero. -/
def div : Binary64 → Binary64 → Binary64
  | .finite s e f, .finite s' e' f' =>
    let (m, q) := scaled e f
    let (m', q') := scaled e' f'
    if m' = 0 then .nan
    else
      let (num, den) := toQuotient m (q - q')
      ofQuotient (s != s') num (den * m')
  | _, _ => .nan

/-- Numeric equality: no number equals nothing, and the two zeros are equal. -/
def numEq : Binary64 → Binary64 → Bool
  | .nan, _ => false
  | _, .nan => false
  | .finite s e f, .finite s' e' f' =>
    e = e' && f = f' && (s = s' || (e.val = 0 && f.val = 0))
  | .infinite s, .infinite s' => s = s'
  | _, _ => false

/--
Reads a numeral with an optional sign, or one of the words `inf`, `infinity` and `nan` in any mix
of cases; a numeral out of range is infinite.
-/
def read? (cs : List Char) : Option Binary64 :=
  let (negative, body) := splitSign cs
  let word := String.ofList (body.map Char.toLower)
  if word = "inf" || word = "infinity" then some (.infinite negative)
  else if word = "nan" then some .nan
  else (readMagnitude? negative body).map ofDecimal

end Binary64

end QueryTemplate.Number
