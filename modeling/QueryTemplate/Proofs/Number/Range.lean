import QueryTemplate.Number.Binary64
import Mathlib.Data.Rat.Cast.Order
import Mathlib.Tactic.Linarith
import Mathlib.Tactic.Ring

/-!
# Which numbers are finite

Rounding to 64 bits makes a number infinite exactly if it is at least half a last place above the greatest
finite value, which is the bound `Binary64.limit`.

* **`exists_power`**: a quotient is rounded in units of a power of two, of which it has `2 ^ 52` up to `2 ^ 53`.
* **`roundDiv_le_iff`**: where the rounding passes an odd number, such as the greatest mantissa.
* **`isFinite_ofQuotient`**: below the greatest power a quotient is finite, above it infinite, and at it the
  rounding decides.
* **`isFinite_ofDecimal`**: the same for decimals, whose power of ten is not computed if it is far off.
-/

namespace QueryTemplate.Number

/-- The size of a decimal. -/
def Decimal.magnitude (x : Decimal) : ℚ :=
  x.coefficient * 10 ^ x.exponent

namespace Binary64

section

variable {num den : Nat}

/-! ## Rounding a quotient -/

theorem le_roundDiv {k : Nat} (hden : 0 < den) (h : k * den ≤ num) : k ≤ roundDiv num den := by
  have hk : k ≤ num / den := (Nat.le_div_iff_mul_le hden).2 h
  unfold roundDiv
  dsimp only
  split_ifs <;> omega

theorem roundDiv_le_succ (num den : Nat) : roundDiv num den ≤ num / den + 1 := by
  unfold roundDiv
  dsimp only
  split_ifs <;> omega

/-- **An odd number is passed half a place above it**, for there a tie goes to the next, which is even. -/
theorem roundDiv_le_iff {k : Nat} (hden : 0 < den) (hk : k % 2 = 1) :
    roundDiv num den ≤ k ↔ 2 * num < (2 * k + 1) * den := by
  have hsplit : num = den * (num / den) + num % den := (Nat.div_add_mod num den).symm
  have hrest : num % den < den := Nat.mod_lt num hden
  have hright : (2 * k + 1) * den = 2 * (den * k) + den := by ring
  rw [hright]
  unfold roundDiv
  dsimp only
  generalize num / den = q at *
  generalize num % den = r at *
  rcases Nat.lt_trichotomy q k with hq | rfl | hq
  · have hmul : den * q + den ≤ den * k := Nat.mul_le_mul_left den hq
    apply iff_of_true
    · split_ifs <;> omega
    · omega
  · split_ifs <;> omega
  · have hmul : den * k + den ≤ den * q := Nat.mul_le_mul_left den hq
    apply iff_of_false
    · split_ifs <;> omega
    · omega

/-- The fields read as one number, so a carry of the mantissa counts like the exponent it moves on to. -/
theorem isFinite_ofFields (negative : Bool) (e m : Nat) :
    (ofFields negative e m).isFinite = true ↔ e * fractionCount + m < 2047 * fractionCount := by
  rw [← Nat.div_lt_iff_lt_mul (by decide)]
  unfold ofFields
  dsimp only
  split
  case isTrue h => exact iff_of_true rfl h
  case isFalse h => exact iff_of_false Bool.false_ne_true h

/-! ## The power of a quotient -/

/-- The quotient `num / den` has at least `2 ^ n` units of `2 ^ q`. -/
def Reaches (num den n : Nat) (q : Int) : Prop :=
  2 ^ n * (den * 2 ^ q.toNat) ≤ num * 2 ^ (-q).toNat

/-- The number of units of `2 ^ q` that is nearest to the quotient. -/
def nearest (num den : Nat) (q : Int) : Nat :=
  roundDiv (num * 2 ^ (-q).toNat) (den * 2 ^ q.toNat)

-- at most one side of the quotient carries a power of two
theorem two_pow_toNat {q : Int} (hq : q ≤ 0) : 2 ^ q.toNat = 1 := by
  rw [Int.toNat_of_nonpos hq, Nat.pow_zero]

/-- Units half as large are twice as many. -/
theorem reaches_pred (num den n : Nat) (q : Int) : Reaches num den (n + 1) (q - 1) ↔ Reaches num den n q := by
  unfold Reaches
  by_cases hq : q ≤ 0
  · have hpow : (-(q - 1)).toNat = (-q).toNat + 1 := by omega
    have hleft : 2 ^ (n + 1) * (den * 2 ^ (q - 1).toNat) = 2 * (2 ^ n * (den * 2 ^ q.toNat)) := by
      rw [two_pow_toNat hq, two_pow_toNat (by omega)]
      ring
    have hright : num * 2 ^ ((-q).toNat + 1) = 2 * (num * 2 ^ (-q).toNat) := by ring
    rw [hpow, hleft, hright, Nat.mul_le_mul_left_iff (by decide)]
  · have hpow : q.toNat = (q - 1).toNat + 1 := by omega
    have hone : 2 ^ (-q).toNat = 1 := two_pow_toNat (by omega)
    have hone' : 2 ^ (-(q - 1)).toNat = 1 := two_pow_toNat (by omega)
    have hleft : 2 ^ (n + 1) * (den * 2 ^ (q - 1).toNat) = 2 ^ n * (den * 2 ^ ((q - 1).toNat + 1)) := by ring
    rw [hleft, hpow, hone, hone']

theorem Reaches.mono {n : Nat} {p q : Int} (hpq : p ≤ q) (h : Reaches num den n q) : Reaches num den n p := by
  have hdown : p.toNat ≤ q.toNat := by omega
  have hup : (-q).toNat ≤ (-p).toNat := by omega
  calc 2 ^ n * (den * 2 ^ p.toNat) ≤ 2 ^ n * (den * 2 ^ q.toNat) := by gcongr; decide
    _ ≤ num * 2 ^ (-q).toNat := h
    _ ≤ num * 2 ^ (-p).toNat := by gcongr; decide

theorem le_nearest {n : Nat} {q : Int} (hden : 0 < den) (h : Reaches num den n q) : 2 ^ n ≤ nearest num den q :=
  le_roundDiv (Nat.mul_pos hden (Nat.two_pow_pos _)) h

theorem nearest_le {n : Nat} {q : Int} (h : ¬Reaches num den n q) : nearest num den q ≤ 2 ^ n := by
  have hless : num * 2 ^ (-q).toNat < den * 2 ^ q.toNat * 2 ^ n := by
    rw [Nat.mul_comm _ (2 ^ n)]
    exact Nat.not_le.1 h
  exact (roundDiv_le_succ _ _).trans (Nat.div_lt_of_lt_mul hless)

/-- The first guess at the power leaves about 53 binary places. -/
theorem reaches_guess (hnum : num ≠ 0) (hden : 0 < den) :
    Reaches num den 51 ((num.log2 : Int) - den.log2 - 52)
      ∧ ¬Reaches num den 53 ((num.log2 : Int) - den.log2 - 52) := by
  have hlow : 2 ^ num.log2 ≤ num := Nat.log2_self_le hnum
  have hhigh : num < 2 ^ (num.log2 + 1) := Nat.lt_log2_self
  have hlow' : 2 ^ den.log2 ≤ den := Nat.log2_self_le hden.ne'
  have hhigh' : den < 2 ^ (den.log2 + 1) := Nat.lt_log2_self
  generalize num.log2 = a at *
  generalize den.log2 = b at *
  obtain ⟨q, hq⟩ : ∃ q : Int, (a : Int) - b - 52 = q := ⟨_, rfl⟩
  have hexp : b + 52 + q.toNat = a + (-q).toNat := by omega
  rw [hq]
  constructor
  · calc 2 ^ 51 * (den * 2 ^ q.toNat) ≤ 2 ^ 51 * (2 ^ (b + 1) * 2 ^ q.toNat) := by gcongr
      _ = 2 ^ (b + 52 + q.toNat) := by ring
      _ = 2 ^ a * 2 ^ (-q).toNat := by rw [hexp, Nat.pow_add]
      _ ≤ num * 2 ^ (-q).toNat := by gcongr
  · apply Nat.not_le.2
    calc num * 2 ^ (-q).toNat < 2 ^ (a + 1) * 2 ^ (-q).toNat := by gcongr
      _ = 2 * 2 ^ (a + (-q).toNat) := by ring
      _ = 2 ^ 53 * (2 ^ b * 2 ^ q.toNat) := by rw [← hexp]; ring
      _ ≤ 2 ^ 53 * (den * 2 ^ q.toNat) := by gcongr

theorem lt_fractionCount_iff (num den : Nat) (q : Int) :
    (if 0 ≤ q then num < fractionCount * (den * Nat.pow 2 q.toNat)
      else num * Nat.pow 2 (-q).toNat < fractionCount * den) ↔ ¬Reaches num den 52 q := by
  rw [Reaches, Nat.not_le]
  split
  case isTrue hq =>
    rw [two_pow_toNat (Int.neg_nonpos_of_nonneg hq), Nat.mul_one]
    rfl
  case isFalse hq =>
    rw [two_pow_toNat (Int.not_le.1 hq).le, Nat.mul_one]
    rfl

theorem roundDiv_eq_nearest (num den : Nat) (q : Int) :
    (if 0 ≤ q then roundDiv num (den * Nat.pow 2 q.toNat) else roundDiv (num * Nat.pow 2 (-q).toNat) den)
      = nearest num den q := by
  rw [nearest]
  split
  case isTrue hq =>
    rw [two_pow_toNat (Int.neg_nonpos_of_nonneg hq), Nat.mul_one]
    rfl
  case isFalse hq =>
    rw [two_pow_toNat (Int.not_le.1 hq).le, Nat.mul_one]
    rfl

/-- **The power of a quotient.** It is rounded in units of it, of which it has `2 ^ 52` up to `2 ^ 53`, or
fewer of the least. -/
theorem exists_power (negative : Bool) (hnum : num ≠ 0) (hden : 0 < den) :
    ∃ q : Int, -1074 ≤ q ∧ (-1074 < q → Reaches num den 52 q) ∧ ¬Reaches num den 53 q
      ∧ ofQuotient negative num den = ofFields negative (q + 1074).toNat (nearest num den q) := by
  -- the guess is right or one too high
  obtain ⟨q, hq, hleast, hmost⟩ : ∃ q, ofQuotient negative num den
        = ofFields negative (max q (-1074) + 1074).toNat (nearest num den (max q (-1074)))
      ∧ Reaches num den 52 q ∧ ¬Reaches num den 53 q := by
    obtain ⟨hlow, hhigh⟩ := reaches_guess hnum hden
    unfold ofQuotient
    simp only [if_neg hnum, roundDiv_eq_nearest]
    generalize (num.log2 : Int) - den.log2 - 52 = guess at *
    have hfew := lt_fractionCount_iff num den guess
    by_cases h : Reaches num den 52 guess
    · have hright := mt hfew.1 (not_not.2 h)
      exact ⟨guess, by rw [if_neg hright], h, hhigh⟩
    · have hhalf : Reaches num den 52 (guess - 1) := (reaches_pred num den 51 guess).2 hlow
      exact ⟨guess - 1, by rw [if_pos (hfew.2 h)], hhalf, mt (reaches_pred num den 52 guess).1 h⟩
  refine ⟨max q (-1074), le_max_right _ _, fun hmax => ?_, fun h => hmost (h.mono (le_max_left _ _)), hq⟩
  have hright : max q (-1074) = q := by omega
  rwa [hright]

/-! ## The bound -/

/-- The power of half of the last place of the greatest finite values. -/
def halfPower : Nat :=
  970

def halfPlace : Nat :=
  2 ^ halfPower

theorem halfPlace_pos : 0 < halfPlace :=
  Nat.two_pow_pos halfPower

/-- The least magnitude that is rounded to infinity: the greatest finite one, which is `2 ^ 53 - 1` last places,
and a half. -/
def limit : Nat :=
  (2 ^ 54 - 1) * halfPlace

theorem limit_pos : 0 < limit :=
  Nat.mul_pos (by decide) halfPlace_pos

theorem limit_mul (den : Nat) : limit * den = (2 ^ 54 - 1) * (den * halfPlace) := by
  rw [limit, Nat.mul_assoc, Nat.mul_comm den]

theorem reaches_natCast (num den n k : Nat) : Reaches num den n (k : Int) ↔ 2 ^ n * (den * 2 ^ k) ≤ num := by
  rw [Reaches, Int.toNat_natCast, two_pow_toNat (Int.neg_nonpos_of_nonneg (Int.natCast_nonneg k)), Nat.mul_one]

theorem lt_limit_of_not_reaches (h : ¬Reaches num den 53 (halfPower : Int)) : num < limit * den := by
  rw [reaches_natCast, ← halfPlace] at h
  rw [limit_mul]
  omega

theorem limit_le_of_reaches (h : Reaches num den 52 ((halfPower + 2 : Nat) : Int)) : limit * den ≤ num := by
  have hpow : 2 ^ 52 * (den * 2 ^ (halfPower + 2)) = 2 ^ 54 * (den * halfPlace) := by
    rw [Nat.pow_add, ← halfPlace]
    ring
  rw [reaches_natCast, hpow] at h
  rw [limit_mul]
  omega

/-- At the greatest power the mantissa that is passed is the greatest one, an odd number. -/
theorem nearest_le_iff (hden : 0 < den) :
    nearest num den ((halfPower + 1 : Nat) : Int) ≤ 2 ^ 53 - 1 ↔ num < limit * den := by
  have hpos : 0 < den * 2 ^ (halfPower + 1) := Nat.mul_pos hden (Nat.two_pow_pos _)
  have hright : (2 * (2 ^ 53 - 1) + 1) * (den * 2 ^ (halfPower + 1)) = 2 * (limit * den) := by
    rw [limit_mul, pow_succ 2 halfPower, ← halfPlace]
    ring
  rw [nearest, Int.toNat_natCast, two_pow_toNat (Int.neg_nonpos_of_nonneg (Int.natCast_nonneg _)), Nat.mul_one,
    roundDiv_le_iff hpos (by decide), hright, Nat.mul_lt_mul_left (by decide)]

/-- **A quotient is finite exactly below the bound.** -/
theorem isFinite_ofQuotient (negative : Bool) (num : Nat) (hden : 0 < den) :
    (ofQuotient negative num den).isFinite = true ↔ num < limit * den := by
  by_cases hnum : num = 0
  · rw [hnum]
    exact iff_of_true rfl (Nat.mul_pos limit_pos hden)
  obtain ⟨q, hq, hlow, hhigh, hfields⟩ := exists_power negative hnum hden
  have hpower : halfPower = 970 := rfl
  rw [hfields, isFinite_ofFields, fractionCount]
  rcases lt_trichotomy q ((halfPower + 1 : Nat) : Int) with hlt | rfl | hgt
  · -- even a carry to the next power leaves room
    have hfew : nearest num den q ≤ 2 ^ 53 := nearest_le hhigh
    have hbelow : ¬Reaches num den 53 (halfPower : Int) := fun h => hhigh (h.mono (by omega))
    apply iff_of_true _ (lt_limit_of_not_reaches hbelow)
    omega
  · -- the rounding decides
    rw [← nearest_le_iff hden]
    omega
  · have hreach : Reaches num den 52 q := hlow (by omega)
    have hmany : 2 ^ 52 ≤ nearest num den q := le_nearest hden hreach
    apply iff_of_false _ (Nat.not_lt.2 (limit_le_of_reaches (hreach.mono (by omega))))
    omega

/-- The whole numbers on the two sides of the bound. -/
example : (ofQuotient false (limit - 1) 1).isFinite = true ∧ (ofQuotient true limit 1).isFinite = false := by
  decide +kernel

end

/-! ## Decimals -/

theorem limit_le_pow : limit ≤ 10 ^ 310 := by
  decide +kernel

/-- The digits of a coefficient tell its size. -/
theorem pow_le_of_digits {c n : Nat} (hc : c ≠ 0) (hn : (Nat.toDigits 10 c).length = n + 1) :
    10 ^ n ≤ c ∧ c < 10 ^ (n + 1) := by
  constructor
  · rcases Nat.eq_zero_or_pos n with rfl | hpos
    · exact Nat.pos_of_ne_zero hc
    · have hlong : ¬ (Nat.toDigits 10 c).length ≤ n := by omega
      rw [Nat.length_toDigits_le_iff (by decide) hpos] at hlong
      exact Nat.not_lt.1 hlong
  · exact (Nat.length_toDigits_le_iff (by decide) (Nat.succ_pos n)).1 hn.le

theorem magnitude_bounds {x : Decimal} (hx : x.coefficient ≠ 0) :
    (10 : ℚ) ^ ((Nat.toDigits 10 x.coefficient).length + x.exponent - 1) ≤ x.magnitude
      ∧ x.magnitude < (10 : ℚ) ^ ((Nat.toDigits 10 x.coefficient).length + x.exponent) := by
  obtain ⟨n, hn⟩ : ∃ n, (Nat.toDigits 10 x.coefficient).length = n + 1 :=
    Nat.exists_eq_succ_of_ne_zero Nat.length_toDigits_pos.ne'
  have hpos : (0 : ℚ) < 10 ^ x.exponent := zpow_pos (by norm_num) _
  obtain ⟨hlow, hhigh⟩ := pow_le_of_digits hx hn
  have hlow' : (10 : ℚ) ^ n ≤ x.coefficient := by exact_mod_cast hlow
  have hhigh' : (x.coefficient : ℚ) < 10 ^ (n + 1) := by exact_mod_cast hhigh
  have hless : ((n + 1 : Nat) : Int) + x.exponent - 1 = (n : Int) + x.exponent := by push_cast; ring
  rw [hn, hless, zpow_add₀ (by norm_num), zpow_add₀ (by norm_num), zpow_natCast, zpow_natCast]
  exact ⟨mul_le_mul_of_nonneg_right hlow' hpos.le, mul_lt_mul_of_pos_right hhigh' hpos⟩

/-- **A decimal is finite exactly below the bound**, also where its order of magnitude alone decides. -/
theorem isFinite_ofDecimal (x : Decimal) : (ofDecimal x).isFinite = true ↔ x.magnitude < limit := by
  have hlimit : (1 : ℚ) ≤ limit := by exact_mod_cast limit_pos
  have hten : (1 : ℚ) ≤ 10 := by norm_num
  unfold ofDecimal
  dsimp only
  split_ifs with hzero hlarge hsmall hexp
  · have hmag : x.magnitude = 0 := by rw [Decimal.magnitude, hzero, Nat.cast_zero, zero_mul]
    exact iff_of_true rfl (by linarith)
  · have hmany : (10 : ℚ) ^ (310 : Int) ≤ x.magnitude :=
      (zpow_le_zpow_right₀ hten (by omega)).trans (magnitude_bounds hzero).1
    have hbound : (limit : ℚ) ≤ 10 ^ (310 : Int) := by exact_mod_cast limit_le_pow
    exact iff_of_false Bool.false_ne_true (by linarith)
  · have hfew : x.magnitude < (10 : ℚ) ^ (0 : Int) :=
      (magnitude_bounds hzero).2.trans_le (zpow_le_zpow_right₀ hten (by omega))
    rw [zpow_zero] at hfew
    exact iff_of_true rfl (by linarith)
  · obtain ⟨n, hn⟩ := Int.eq_ofNat_of_zero_le hexp
    have hmag : x.magnitude = ((x.coefficient * 10 ^ n : Nat) : ℚ) := by
      rw [Decimal.magnitude, hn]
      push_cast
      rfl
    rw [isFinite_ofQuotient _ _ Nat.one_pos, hmag, Nat.cast_lt, Nat.mul_one, hn]
    rfl
  · obtain ⟨n, hn⟩ : ∃ n : Nat, x.exponent = -n := ⟨(-x.exponent).toNat, by omega⟩
    have hpos : 0 < 10 ^ n := Nat.pow_pos (by decide)
    have hmag : x.magnitude = x.coefficient / ((10 ^ n : Nat) : ℚ) := by
      rw [Decimal.magnitude, hn, zpow_neg, zpow_natCast, ← div_eq_mul_inv, Nat.cast_pow, Nat.cast_ofNat]
    have hpow : Nat.pow 10 (-x.exponent).toNat = 10 ^ n := by
      rw [hn, neg_neg, Int.toNat_natCast]
      rfl
    rw [hpow, isFinite_ofQuotient _ _ hpos, hmag, div_lt_iff₀ (Nat.cast_pos.2 hpos), ← Nat.cast_mul, Nat.cast_lt]

end Binary64

end QueryTemplate.Number
