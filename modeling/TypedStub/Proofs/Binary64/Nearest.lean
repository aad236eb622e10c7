import Mathlib.Tactic.NormNum
import Mathlib.Tactic.Ring
import TypedStub.Binary64

/-! The nearest number to a decimal.

It depends on the value of the decimal alone, and a number is the nearest one to itself. So the shortest decimal of
a number, which is nearest to it by its choice, leads back to the number in whatever form it is written.
-/

set_option autoImplicit false

namespace TypedStub

/-- The same decimal with more zeros at the end of its coefficient. -/
def Decimal.withZeros (decimal : Decimal) (count : Nat) : Decimal :=
  ⟨decimal.negative, decimal.coefficient * 10 ^ count, decimal.exponent - count⟩

namespace Binary64

/-- The numbers in the one form in which 64 bits hold them: the mantissa has as many bits as possible. -/
def IsNormal : Binary64 → Prop
  | .nan | .infinite _ => True
  | .finite _ mantissa scale =>
    mantissa < 2 ^ mantissaBits ∧ scale ≤ maxScale ∧ (scale = 0 ∨ 2 ^ (mantissaBits - 1) ≤ mantissa)

/-! ### Quotients of units -/

theorem roundQuotient_mul_left {k den : Nat} (positive : 0 < k) (num : Nat) :
    roundQuotient (k * num) (k * den) = roundQuotient num den := by
  have below : 2 * (k * (num % den)) < k * den ↔ 2 * (num % den) < den := by
    rw [Nat.mul_left_comm]
    exact Nat.mul_lt_mul_left positive
  have above : k * den < 2 * (k * (num % den)) ↔ den < 2 * (num % den) := by
    rw [Nat.mul_left_comm]
    exact Nat.mul_lt_mul_left positive
  simp only [roundQuotient, Nat.mul_div_mul_left _ _ positive, Nat.mul_mod_mul_left, below, above]

theorem nearestUnits_mul_left {negative : Bool} {k num den : Nat} (positive : 0 < k) :
    nearestUnits negative (k * num) (k * den) = nearestUnits negative num den := by
  simp only [nearestUnits, Nat.mul_div_mul_left _ _ positive, Nat.mul_assoc, roundQuotient_mul_left positive]

theorem nearestUnits_eq {negative : Bool} {num den scale mantissa : Nat}
    (scaled : (num / den).log2 + 1 - mantissaBits = scale)
    (rounded : roundQuotient num (den * 2 ^ scale) = mantissa) (fits : mantissa ≠ 2 ^ mantissaBits) :
    nearestUnits negative num den =
      if scale ≤ maxScale then .finite negative mantissa scale else .infinite negative := by
  subst scaled
  simp only [nearestUnits, Nat.pow_eq, rounded, if_neg fits]

theorem nearestUnits_of_large {negative : Bool} {num : Nat} (large : 2 ^ (maxScale + mantissaBits) ≤ num) :
    nearestUnits negative num 1 = .infinite negative := by
  have filled : num ≠ 0 := Nat.ne_of_gt (Nat.lt_of_lt_of_le (Nat.two_pow_pos _) large)
  have bits : maxScale + mantissaBits ≤ num.log2 := (Nat.le_log2 filled).2 large
  have beyond : ¬ num.log2 + 1 - mantissaBits ≤ maxScale := by omega
  have further : ¬ num.log2 + 1 - mantissaBits + 1 ≤ maxScale := by omega
  by_cases carried : roundQuotient num (1 * 2 ^ (num.log2 + 1 - mantissaBits)) = 2 ^ mantissaBits
  · simp only [nearestUnits, Nat.div_one, Nat.pow_eq, if_pos carried, if_neg further]
  · simp only [nearestUnits, Nat.div_one, Nat.pow_eq, if_neg carried, if_neg beyond]

theorem nearestUnits_of_small {negative : Bool} {num den : Nat} (small : 2 * num < den) :
    nearestUnits negative num den = .finite negative 0 0 := by
  have below : num < den := by omega
  have scaled : (num / den).log2 + 1 - mantissaBits = 0 := by
    rw [Nat.div_eq_of_lt below]
    rfl
  have rounded : roundQuotient num (den * 2 ^ 0) = 0 := by
    simp [roundQuotient, Nat.div_eq_of_lt below, Nat.mod_eq_of_lt below, small]
  rw [nearestUnits_eq scaled rounded (by decide), if_pos (Nat.zero_le _)]

theorem nearestUnits_of_isNormal {negative : Bool} {mantissa scale : Nat}
    (normal : (finite negative mantissa scale).IsNormal) :
    nearestUnits negative (mantissa * 2 ^ scale) 1 = .finite negative mantissa scale := by
  obtain ⟨fits, inRange, full⟩ := normal
  -- A number has as many bits beyond its mantissa as its scale says, because the mantissa is full unless the scale is 0.
  have bits : (mantissa * 2 ^ scale / 1).log2 + 1 - mantissaBits = scale := by
    rw [Nat.div_one]
    by_cases zero : mantissa = 0
    · have unscaled : scale = 0 :=
        full.resolve_right fun full => absurd (zero ▸ full) (Nat.not_le_of_lt (Nat.two_pow_pos _))
      rw [zero, Nat.zero_mul, unscaled]
      decide
    have filled : mantissa * 2 ^ scale ≠ 0 := Nat.mul_ne_zero zero (Nat.ne_of_gt (Nat.two_pow_pos scale))
    have upper : (mantissa * 2 ^ scale).log2 < mantissaBits + scale := by
      rw [Nat.log2_lt filled, Nat.pow_add]
      exact Nat.mul_lt_mul_of_pos_right fits (Nat.two_pow_pos scale)
    rcases full with rfl | full
    · omega
    · have lower : mantissaBits - 1 + scale ≤ (mantissa * 2 ^ scale).log2 := by
        rw [Nat.le_log2 filled, Nat.pow_add]
        exact Nat.mul_le_mul_right _ full
      have positive : 0 < mantissaBits := by decide
      omega
  have rounded : roundQuotient (mantissa * 2 ^ scale) (1 * 2 ^ scale) = mantissa := by
    simp [roundQuotient, Nat.mul_div_cancel _ (Nat.two_pow_pos scale)]
  rw [nearestUnits_eq bits rounded (Nat.ne_of_lt fits), if_pos inRange]

theorem nearestUnits_congr {negative : Bool} {num den otherNum otherDen : Nat} (positive : 0 < den)
    (otherPositive : 0 < otherDen) (same : num * otherDen = otherNum * den) :
    nearestUnits negative num den = nearestUnits negative otherNum otherDen := by
  rw [← nearestUnits_mul_left otherPositive, ← @nearestUnits_mul_left _ den otherNum otherDen positive,
    Nat.mul_comm otherDen num, same, Nat.mul_comm den otherNum, Nat.mul_comm den otherDen]

/-! ### Decimals -/

/-- A power of two and a power of ten are compared in equal parts of both. -/
theorem two_pow_le_ten_pow {bits digits times twos tens : Nat} (part : 2 ^ bits ≤ 10 ^ digits)
    (fewer : twos ≤ bits * times) (more : digits * times ≤ tens) : 2 ^ twos ≤ 10 ^ tens :=
  calc 2 ^ twos
    _ ≤ 2 ^ (bits * times) := Nat.pow_le_pow_right (by decide) fewer
    _ = (2 ^ bits) ^ times := Nat.pow_mul ..
    _ ≤ (10 ^ digits) ^ times := Nat.pow_le_pow_left part times
    _ = 10 ^ (digits * times) := (Nat.pow_mul ..).symm
    _ ≤ 10 ^ tens := Nat.pow_le_pow_right (by decide) more

theorem units_of_far {coefficient : Nat} {exponent : Int} (filled : coefficient ≠ 0)
    (far : farExponent ≤ exponent) :
    2 ^ (maxScale + mantissaBits) ≤ coefficient * 10 ^ exponent.toNat * 2 ^ unitBits := by
  have split : maxScale + mantissaBits = 1024 + unitBits := rfl
  have shifted : 62 * 5 ≤ exponent.toNat := by
    simp only [farExponent] at far
    omega
  rw [split, Nat.pow_add]
  apply Nat.mul_le_mul_right
  calc 2 ^ 1024
    _ ≤ 10 ^ exponent.toNat := two_pow_le_ten_pow (show 2 ^ 205 ≤ 10 ^ 62 by decide) (by decide) shifted
    _ ≤ coefficient * 10 ^ exponent.toNat := Nat.le_mul_of_pos_left _ (Nat.pos_of_ne_zero filled)

theorem units_of_near {coefficient : Nat} {exponent : Int}
    (near : exponent + coefficient.log2 + 1 ≤ -2 * farExponent) :
    2 * (coefficient * 10 ^ exponent.toNat * 2 ^ unitBits) < 10 ^ (-exponent).toNat := by
  simp only [farExponent] at near
  have whole : exponent.toNat = 0 := by omega
  obtain ⟨places, shifted⟩ := Nat.exists_eq_add_of_le (show coefficient.log2 + 1 ≤ (-exponent).toNat by omega)
  have enough : 124 * 5 ≤ places := by omega
  calc 2 * (coefficient * 10 ^ exponent.toNat * 2 ^ unitBits)
    _ = coefficient * 2 ^ (unitBits + 1) := by rw [whole]; ring
    _ < 2 ^ (coefficient.log2 + 1) * 2 ^ (unitBits + 1) :=
      Nat.mul_lt_mul_of_pos_right Nat.lt_log2_self (Nat.two_pow_pos _)
    _ ≤ 10 ^ (coefficient.log2 + 1) * 10 ^ places :=
      Nat.mul_le_mul (Nat.pow_le_pow_left (by decide) _)
        (two_pow_le_ten_pow (show 2 ^ 215 ≤ 10 ^ 124 by decide) (by decide) enough)
    _ = 10 ^ (-exponent).toNat := by rw [shifted, Nat.pow_add _ _ places]

/-- The bounds that spare the work on very large and very small decimals do not change what is nearest. -/
theorem nearest_eq_nearestUnits {decimal : Decimal} (filled : decimal.coefficient ≠ 0) :
    nearest decimal = nearestUnits decimal.negative
      (decimal.coefficient * 10 ^ decimal.exponent.toNat * 2 ^ unitBits) (10 ^ (-decimal.exponent).toNat) := by
  unfold nearest
  rw [if_neg filled]
  split
  · rename_i far
    have noFraction : (-decimal.exponent).toNat = 0 := by
      simp only [farExponent] at far
      omega
    rw [noFraction, Nat.pow_zero, nearestUnits_of_large (units_of_far filled far)]
  split
  · rename_i near
    rw [nearestUnits_of_small (units_of_near near)]
  split
  · rename_i whole
    have noFraction : (-decimal.exponent).toNat = 0 := by omega
    simp only [Nat.pow_eq, noFraction, Nat.pow_zero]
  · rename_i fraction
    have noWhole : decimal.exponent.toNat = 0 := by omega
    simp only [Nat.pow_eq, noWhole, Nat.pow_zero, Nat.mul_one]

theorem nearest_withZeros (decimal : Decimal) (count : Nat) : nearest (decimal.withZeros count) = nearest decimal := by
  by_cases zero : decimal.coefficient = 0
  · simp [nearest, Decimal.withZeros, zero]
  have filled : (decimal.withZeros count).coefficient ≠ 0 :=
    Nat.mul_ne_zero zero (Nat.ne_of_gt (Nat.pow_pos (by decide)))
  rw [nearest_eq_nearestUnits zero, nearest_eq_nearestUnits filled]
  refine nearestUnits_congr (Nat.pow_pos (by decide)) (Nat.pow_pos (by decide)) ?_
  obtain ⟨negative, coefficient, exponent⟩ := decimal
  simp only [Decimal.withZeros]
  have powers : count + (exponent - count).toNat + (-exponent).toNat =
      exponent.toNat + (-(exponent - count)).toNat := by omega
  calc coefficient * 10 ^ count * 10 ^ (exponent - count).toNat * 2 ^ unitBits * 10 ^ (-exponent).toNat
    _ = coefficient * 2 ^ unitBits * 10 ^ (count + (exponent - count).toNat + (-exponent).toNat) := by ring
    _ = coefficient * 10 ^ exponent.toNat * 2 ^ unitBits * 10 ^ (-(exponent - count)).toNat := by rw [powers]; ring

theorem nearest_exactDecimal {negative : Bool} {mantissa scale : Nat} (filled : mantissa ≠ 0)
    (normal : (finite negative mantissa scale).IsNormal) :
    nearest (exactDecimal negative mantissa scale) = .finite negative mantissa scale := by
  have digits : (exactDecimal negative mantissa scale).coefficient ≠ 0 := by
    simp only [exactDecimal, Nat.pow_eq]
    exact Nat.mul_ne_zero (Nat.mul_ne_zero filled (Nat.ne_of_gt (Nat.two_pow_pos scale)))
      (Nat.ne_of_gt (Nat.pow_pos (by decide)))
  rw [nearest_eq_nearestUnits digits, ← nearestUnits_of_isNormal normal]
  refine nearestUnits_congr (Nat.pow_pos (by decide)) Nat.one_pos ?_
  simp only [exactDecimal, Nat.pow_eq]
  -- The number of units is large, so it is kept out of the arithmetic.
  generalize unitBits = bits
  have noWhole : (-(bits : Int)).toNat = 0 := by omega
  have fraction : (- -(bits : Int)).toNat = bits := by omega
  have tens : (10 : Nat) ^ bits = 5 ^ bits * 2 ^ bits := Nat.mul_pow 5 2 bits
  rw [noWhole, fraction, tens]
  ring

theorem nearest_neighbour? {negative : Bool} {num den : Nat} {exponent : Int} {number : Binary64} {decimal : Decimal}
    (found : neighbour? (fun decimal => decide (nearest decimal = number)) negative num den exponent = some decimal) :
    nearest decimal = number ∧ decimal.negative = negative := by
  simp only [neighbour?] at found
  generalize lowEq : (if 0 ≤ exponent then num else num * Nat.pow 10 (-exponent).toNat) /
    (if 0 ≤ exponent then den * Nat.pow 10 exponent.toNat else den) = below at found
  cases low : decide (nearest ⟨negative, below, exponent⟩ = number) <;>
    cases high : decide (nearest ⟨negative, below + 1, exponent⟩ = number) <;>
    simp only [low, high, reduceCtorEq, Option.some.injEq] at found
  · rw [← found]
    exact ⟨of_decide_eq_true high, rfl⟩
  · rw [← found]
    exact ⟨of_decide_eq_true low, rfl⟩
  · rcases ite_eq_iff.1 found with ⟨-, rfl⟩ | ⟨-, rfl⟩
    · exact ⟨of_decide_eq_true low, rfl⟩
    · exact ⟨of_decide_eq_true high, rfl⟩

theorem nearest_shortest {negative : Bool} {mantissa scale : Nat} (filled : mantissa ≠ 0)
    (normal : (finite negative mantissa scale).IsNormal) :
    nearest (shortest negative mantissa scale) = .finite negative mantissa scale ∧
      (shortest negative mantissa scale).negative = negative := by
  unfold shortest
  dsimp only
  cases found : (List.range maxDigits).findSome? fun count => neighbour?
      (fun decimal => decide (nearest decimal = finite negative mantissa scale)) negative
      (mantissa * Nat.pow 2 scale) (Nat.pow 2 unitBits)
      (decimalPoint (mantissa * Nat.pow 2 scale) (Nat.pow 2 unitBits) - (count + 1 : Nat)) with
  | none => exact ⟨nearest_exactDecimal filled normal, rfl⟩
  | some decimal =>
    obtain ⟨count, -, near⟩ := List.exists_of_findSome?_eq_some found
    exact nearest_neighbour? near

theorem nearest_shortest_of_isNormal {negative : Bool} {mantissa scale : Nat}
    (normal : (finite negative mantissa scale).IsNormal) :
    nearest (shortest negative mantissa scale) = .finite negative mantissa scale := by
  by_cases filled : mantissa = 0
  · subst filled
    have unscaled : scale = 0 :=
      normal.2.2.resolve_right fun full => absurd full (Nat.not_le_of_lt (Nat.two_pow_pos _))
    subst unscaled
    unfold shortest
    dsimp only
    cases found : (List.range maxDigits).findSome? fun count => neighbour?
        (fun decimal => decide (nearest decimal = finite negative 0 0)) negative
        (0 * Nat.pow 2 0) (Nat.pow 2 unitBits)
        (decimalPoint (0 * Nat.pow 2 0) (Nat.pow 2 unitBits) - (count + 1 : Nat)) with
    | none =>
      rw [Option.getD_none, nearest, if_pos (by simp [exactDecimal])]
      rfl
    | some decimal =>
      obtain ⟨count, -, near⟩ := List.exists_of_findSome?_eq_some found
      exact (nearest_neighbour? near).1
  · exact (nearest_shortest filled normal).1

end Binary64

end TypedStub
