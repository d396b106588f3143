import Mathlib.Algebra.Order.Field.Power
import Mathlib.Data.Rat.Cast.Order
import Mathlib.Tactic.FieldSimp
import Mathlib.Tactic.Linarith
import Mathlib.Tactic.NormNum
import WorkspaceGraph.Number.Binary64
/-!
Values of binary numbers. A fraction that is a number of the format is rounded to that number, so
that doubling a positive number is exact until the result is too great for the format, and from then
on it is infinite. Numbers compare as their values do.
-/

namespace WorkspaceGraph.Binary64

def value : Binary64 → ℚ
  | finite negative mantissa exponent =>
      (if negative then -1 else 1) * mantissa * (2 : ℚ) ^ exponent
  | _ => 0

inductive IsPositive : Binary64 → Prop
  | intro {mantissa : Nat} {exponent : Int} (positive : 0 < mantissa)
      (bounded : mantissa < mantissaBound) (least : leastExponent ≤ exponent)
      (greatest : exponent ≤ greatestExponent) : IsPositive (finite false mantissa exponent)

def overflow : ℚ := 2 ^ (1024 : ℤ)

/-! ## Powers of two -/

theorem cast_pow_toNat {exponent : Int} (natural : 0 ≤ exponent) :
    ((Nat.pow 2 exponent.toNat : Nat) : ℚ) = 2 ^ exponent := by
  have same : ((exponent.toNat : Nat) : ℤ) = exponent := Int.toNat_of_nonneg natural
  rw [Nat.pow_eq, Nat.cast_pow, ← zpow_natCast, same]
  rfl

theorem two_zpow_pos (exponent : Int) : (0 : ℚ) < 2 ^ exponent := by positivity

theorem value_finite (mantissa : Nat) (exponent : Int) :
    (finite false mantissa exponent).value = mantissa * 2 ^ exponent := by
  simp [value]

theorem cast_mantissaBound : (mantissaBound : ℚ) = 2 ^ (53 : ℤ) := by
  rw [mantissaBound]
  norm_num

/-! ## Rounding -/

variable {numerator denominator mantissa : Nat} {exponent : Int}

theorem roundDiv_mul (positive : 0 < denominator) :
    roundDiv (mantissa * denominator) denominator = mantissa := by
  rw [roundDiv]
  simp [Nat.mul_div_cancel _ positive, positive]

theorem unscale_spec (numerator : Nat) (exponent : Int) (positive : 0 < denominator) :
    0 < (unscale numerator denominator exponent).2 ∧
      ((unscale numerator denominator exponent).1 : ℚ) =
        numerator / denominator / 2 ^ exponent * (unscale numerator denominator exponent).2 := by
  have denominatorPositive : (0 : ℚ) < denominator := by exact_mod_cast positive
  have power := two_zpow_pos exponent
  rw [unscale]
  split
  · rename_i natural
    refine ⟨Nat.mul_pos positive (Nat.pow_pos Nat.two_pos), ?_⟩
    rw [Nat.cast_mul, cast_pow_toNat natural]
    field_simp
  · rename_i negative
    refine ⟨positive, ?_⟩
    rw [Nat.cast_mul, cast_pow_toNat (by omega), zpow_neg]
    field_simp

theorem fraction_bounds (numeratorPositive : 0 < numerator) (positive : 0 < denominator) :
    (2 : ℚ) ^ ((numerator.log2 : Int) - denominator.log2 - 1) ≤ numerator / denominator ∧
      (numerator : ℚ) / denominator < 2 ^ ((numerator.log2 : Int) - denominator.log2 + 1) := by
  have denominatorPositive : (0 : ℚ) < denominator := by exact_mod_cast positive
  have bits : ∀ {number : Nat}, 0 < number →
      (2 : ℚ) ^ (number.log2 : Int) ≤ number ∧ (number : ℚ) < 2 ^ ((number.log2 : Int) + 1) := by
    intro number some
    constructor
    · exact_mod_cast Nat.log2_self_le some.ne'
    · exact_mod_cast (Nat.lt_log2_self : number < 2 ^ (number.log2 + 1))
  have above := bits numeratorPositive
  have below := bits positive
  constructor
  · rw [le_div_iff₀ denominatorPositive]
    calc (2 : ℚ) ^ ((numerator.log2 : Int) - denominator.log2 - 1) * denominator
        ≤ 2 ^ ((numerator.log2 : Int) - denominator.log2 - 1) *
            2 ^ ((denominator.log2 : Int) + 1) := by
          have power := two_zpow_pos ((numerator.log2 : Int) - denominator.log2 - 1)
          exact mul_le_mul_of_nonneg_left below.2.le power.le
      _ = 2 ^ (numerator.log2 : Int) := by
          rw [← zpow_add₀ two_ne_zero]
          congr 1
          omega
      _ ≤ numerator := above.1
  · rw [div_lt_iff₀ denominatorPositive]
    calc (numerator : ℚ) < 2 ^ ((numerator.log2 : Int) + 1) := above.2
      _ = 2 ^ ((numerator.log2 : Int) - denominator.log2 + 1) * 2 ^ (denominator.log2 : Int) := by
          rw [← zpow_add₀ two_ne_zero]
          congr 1
          omega
      _ ≤ 2 ^ ((numerator.log2 : Int) - denominator.log2 + 1) * denominator := by
          have power := two_zpow_pos ((numerator.log2 : Int) - denominator.log2 + 1)
          exact mul_le_mul_of_nonneg_left below.1 power.le

theorem unscale_lt_iff (bits numerator : Nat) (exponent : Int) (positive : 0 < denominator) :
    (unscale numerator denominator exponent).1 / (unscale numerator denominator exponent).2 <
        2 ^ bits ↔ (numerator : ℚ) / denominator < 2 ^ ((bits : Int) + exponent) := by
  rcases unscale_spec numerator exponent positive with
    ⟨scaledPositive, scaled⟩
  have someScaled : (0 : ℚ) < (unscale numerator denominator exponent).2 := by
    exact_mod_cast scaledPositive
  rw [Nat.div_lt_iff_lt_mul scaledPositive, ← Nat.cast_lt (α := ℚ), Nat.cast_mul, scaled,
    Nat.cast_pow, Nat.cast_ofNat, mul_lt_mul_iff_left₀ someScaled,
    div_lt_iff₀ (two_zpow_pos exponent), zpow_add₀ two_ne_zero, zpow_natCast]

/-- At the exponent that is chosen a fraction has a mantissa below the bound, and one of full length
unless the exponent is the least. -/
theorem exponentOf_spec (numeratorPositive : 0 < numerator) (positive : 0 < denominator) :
    leastExponent ≤ exponentOf numerator denominator ∧
      (numerator : ℚ) / denominator < 2 ^ (53 + exponentOf numerator denominator) ∧
      (exponentOf numerator denominator = leastExponent ∨
        (2 : ℚ) ^ (52 + exponentOf numerator denominator) ≤ numerator / denominator) := by
  have bounds := fraction_bounds numeratorPositive positive
  have fits := unscale_lt_iff 53 numerator ((numerator.log2 : Int) - denominator.log2 - 53)
    positive
  -- The estimate from the bits is right or one too small.
  obtain ⟨exact, chosen, above, below⟩ : ∃ exact : Int,
      exponentOf numerator denominator = (if exact < leastExponent then leastExponent else exact) ∧
      (numerator : ℚ) / denominator < 2 ^ (53 + exact) ∧
      (2 : ℚ) ^ (52 + exact) ≤ numerator / denominator := by
    refine ⟨_, rfl, ?_⟩
    split
    · rename_i less
      refine ⟨fits.mp less, le_trans ?_ bounds.1⟩
      exact zpow_le_zpow_right₀ one_le_two (by omega)
    · rename_i notLess
      refine ⟨lt_of_lt_of_le bounds.2 ?_, le_trans ?_ (not_lt.mp (mt fits.mpr notLess))⟩
      · exact zpow_le_zpow_right₀ one_le_two (by omega)
      · exact zpow_le_zpow_right₀ one_le_two (by omega)
  rw [chosen]
  split
  · refine ⟨le_refl _, lt_of_lt_of_le above ?_, .inl rfl⟩
    exact zpow_le_zpow_right₀ one_le_two (by omega)
  · exact ⟨by omega, above, .inr below⟩

/-- What comes of a fraction that is a number of the format, or would be one if the format had
greater exponents. -/
inductive Rounded (fraction : ℚ) : Binary64 → Prop
  | number {number : Binary64} (positive : number.IsPositive) (exact : number.value = fraction) :
      Rounded fraction number
  | infinite (great : overflow ≤ fraction) : Rounded fraction (infinite false)

/-- The chosen exponent is at most one at which the fraction has a mantissa: a mantissa of full
length leaves no room for a greater one. -/
theorem exponentOf_le (numeratorPositive : 0 < numerator) (positive : 0 < denominator)
    (bounded : mantissa < mantissaBound) (least : leastExponent ≤ exponent)
    (represented : (numerator : ℚ) / denominator = mantissa * 2 ^ exponent) :
    exponentOf numerator denominator ≤ exponent := by
  rcases (exponentOf_spec numeratorPositive positive).2.2 with chosen | below
  · rw [chosen]
    exact least
  · have less : (2 : ℚ) ^ (52 + exponentOf numerator denominator) < 2 ^ (53 + exponent) := by
      refine lt_of_le_of_lt below ?_
      rw [represented, zpow_add₀ two_ne_zero, ← cast_mantissaBound]
      exact mul_lt_mul_of_pos_right (by exact_mod_cast bounded) (two_zpow_pos exponent)
    have exponents := (zpow_lt_zpow_iff_right₀ one_lt_two).mp less
    omega

theorem mul_zpow_add (mantissa places : Nat) (exponent : Int) :
    (mantissa : ℚ) * 2 ^ ((places : Int) + exponent) =
      (mantissa * 2 ^ places : Nat) * 2 ^ exponent := by
  rw [zpow_add₀ two_ne_zero, zpow_natCast, Nat.cast_mul, Nat.cast_pow, Nat.cast_ofNat, mul_assoc]

theorem rounded_ofFraction (numeratorPositive : 0 < numerator) (positive : 0 < denominator)
    (bounded : mantissa < mantissaBound) (least : leastExponent ≤ exponent)
    (represented : (numerator : ℚ) / denominator = mantissa * 2 ^ exponent) :
    Rounded (numerator / denominator) (ofFraction false numerator denominator) := by
  rcases exponentOf_spec numeratorPositive positive with ⟨leastChosen, above, below⟩
  have order := exponentOf_le numeratorPositive positive bounded least represented
  have scaled := unscale_spec numerator (exponentOf numerator denominator) positive
  rw [ofFraction, if_neg (by simpa using numeratorPositive.ne')]
  generalize exponentOf numerator denominator = chosen at leastChosen above below order scaled ⊢
  obtain ⟨places, rfl⟩ : ∃ places : Nat, exponent = places + chosen :=
    ⟨(exponent - chosen).toNat, by omega⟩
  rw [mul_zpow_add] at represented
  rw [represented] at above below scaled ⊢
  rw [mul_div_cancel_right₀ _ (two_zpow_pos chosen).ne'] at scaled
  have whole : (unscale numerator denominator chosen).1 =
      mantissa * 2 ^ places * (unscale numerator denominator chosen).2 := by
    exact_mod_cast scaled.2
  have short : mantissa * 2 ^ places < mantissaBound := by
    rw [zpow_add₀ two_ne_zero, ← cast_mantissaBound] at above
    exact_mod_cast lt_of_mul_lt_mul_right above (two_zpow_pos chosen).le
  have some : 0 < mantissa * 2 ^ places := by
    have fraction : (0 : ℚ) < numerator / denominator :=
      div_pos (by exact_mod_cast numeratorPositive) (by exact_mod_cast positive)
    rw [represented] at fraction
    exact_mod_cast pos_of_mul_pos_left fraction (two_zpow_pos chosen).le
  have unchanged : (mantissa * 2 ^ places == mantissaBound) = false := by
    simpa using short.ne
  dsimp only
  rw [whole, roundDiv_mul scaled.1, unchanged]
  simp only [Bool.false_eq_true, if_false]
  split
  · rename_i great
    have full := below.resolve_left (by rw [greatestExponent] at great; rw [leastExponent]; omega)
    refine .infinite (le_trans ?_ full)
    rw [greatestExponent] at great
    exact zpow_le_zpow_right₀ one_le_two (by omega)
  · exact .number (.intro some short leastChosen (by omega)) (value_finite _ _)

theorem roundDiv_bounds (numerator denominator : Nat) :
    numerator / denominator ≤ roundDiv numerator denominator ∧
      roundDiv numerator denominator ≤ numerator / denominator + 1 := by
  rw [roundDiv]
  split <;> omega

/-- Any fraction that is not too small is rounded to a positive number, if there is one for it. -/
theorem isPositive_ofFraction (positive : 0 < denominator)
    (normal : (2 : ℚ) ^ (53 + leastExponent) ≤ numerator / denominator)
    (notInfinite : ofFraction false numerator denominator ≠ infinite false) :
    (ofFraction false numerator denominator).IsPositive := by
  have numeratorPositive : 0 < numerator := by
    refine Nat.pos_of_ne_zero fun zero => ?_
    rw [zero, Nat.cast_zero, zero_div] at normal
    exact absurd (two_zpow_pos _) (not_lt.mpr normal)
  rcases exponentOf_spec numeratorPositive positive with ⟨least, above, below⟩
  have notLeast : exponentOf numerator denominator ≠ leastExponent := by
    intro same
    rw [same] at above
    exact absurd above (not_lt.mpr normal)
  have short := (unscale_lt_iff 53 numerator _ positive).mpr above
  have long := mt (unscale_lt_iff 52 numerator _ positive).mp
    (not_lt.mpr (below.resolve_left notLeast))
  revert notInfinite
  rw [ofFraction, if_neg (by simpa using numeratorPositive.ne')]
  dsimp only
  generalize exponentOf numerator denominator = chosen at least short long ⊢
  generalize unscale numerator denominator chosen = scaled at short long ⊢
  have bounds := roundDiv_bounds scaled.1 scaled.2
  generalize roundDiv scaled.1 scaled.2 = mantissa at bounds ⊢
  have bound : mantissaBound = 2 ^ 53 := rfl
  -- Rounding up may reach the bound; then the mantissa is halved.
  by_cases carried : mantissa = mantissaBound
  · have half : mantissaBound / 2 = 2 ^ 52 := rfl
    simp only [carried, beq_self_eq_true, if_true, half]
    split
    · exact fun notInfinite => absurd rfl notInfinite
    · exact fun _ => .intro (by norm_num) (by rw [bound]; norm_num) (by omega) (by omega)
  · simp only [beq_iff_eq, carried, if_false]
    split
    · exact fun notInfinite => absurd rfl notInfinite
    · exact fun _ => .intro (by omega) (by omega) least (by omega)

/-! ## Doubling -/

variable {number other : Binary64}

theorem IsPositive.value_pos (positive : number.IsPositive) : 0 < number.value := by
  cases positive with
  | @intro mantissa exponent some bounded least greatest =>
      rw [value_finite]
      exact mul_pos (by exact_mod_cast some) (two_zpow_pos exponent)

theorem IsPositive.value_lt (positive : number.IsPositive) : number.value < overflow := by
  cases positive with
  | @intro mantissa exponent some bounded least greatest =>
      rw [value_finite, overflow]
      calc (mantissa : ℚ) * 2 ^ exponent
          < 2 ^ (53 : ℤ) * 2 ^ exponent := by
            rw [← cast_mantissaBound]
            exact mul_lt_mul_of_pos_right (by exact_mod_cast bounded) (two_zpow_pos exponent)
        _ = 2 ^ (53 + exponent) := (zpow_add₀ two_ne_zero _ _).symm
        _ ≤ 2 ^ (1024 : ℤ) := by
            rw [greatestExponent] at greatest
            exact zpow_le_zpow_right₀ one_le_two (by omega)

theorem IsPositive.rounded_scale (positive : number.IsPositive) (steps : Nat) :
    Rounded (number.value * 2 ^ steps) (number.scale steps) := by
  cases positive with
  | @intro mantissa exponent some bounded least greatest =>
      have represented : (finite false mantissa exponent).value * 2 ^ steps =
          mantissa * 2 ^ (exponent + steps) := by
        rw [value_finite, zpow_add₀ two_ne_zero, zpow_natCast, mul_assoc]
      have power : ∀ count, 0 < Nat.pow 2 count := fun count => Nat.pow_pos Nat.two_pos
      rw [scale]
      split
      · rename_i natural
        have fraction : ((mantissa * Nat.pow 2 (exponent.toNat + steps) : Nat) : ℚ) / (1 : Nat) =
            mantissa * 2 ^ (exponent + steps) := by
          have same : exponent.toNat + steps = (exponent + steps).toNat := by omega
          rw [same, Nat.cast_mul, cast_pow_toNat (by omega), Nat.cast_one, div_one]
        rw [represented, ← fraction]
        exact rounded_ofFraction (Nat.mul_pos some (power _)) Nat.one_pos bounded (by omega)
          fraction
      · rename_i negative
        have fraction : ((mantissa * Nat.pow 2 steps : Nat) : ℚ) /
            (Nat.pow 2 (-exponent).toNat : Nat) = mantissa * 2 ^ (exponent + steps) := by
          rw [cast_pow_toNat (by omega), Nat.cast_mul, Nat.pow_eq, Nat.cast_pow, zpow_neg,
            zpow_add₀ two_ne_zero, zpow_natCast, div_inv_eq_mul, Nat.cast_ofNat,
            mul_right_comm, mul_assoc]
        rw [represented, ← fraction]
        exact rounded_ofFraction (Nat.mul_pos some (power _)) (power _) bounded (by omega) fraction

/-! ## Comparing -/

theorem fraction?_finite (mantissa : Nat) (exponent : Int) :
    ∃ numerator denominator, (finite false mantissa exponent).fraction? =
        some (numerator, denominator) ∧ 0 < denominator ∧
      (finite false mantissa exponent).value = (numerator : ℚ) / (denominator : Nat) := by
  refine ⟨_, _, rfl, ?_, ?_⟩
  · split
    · exact Nat.one_pos
    · exact Nat.pow_pos Nat.two_pos
  · rw [value_finite]
    simp only [Bool.false_eq_true, if_false]
    split
    · rename_i natural
      have power := cast_pow_toNat natural
      push_cast at power ⊢
      rw [power, div_one]
    · rename_i negative
      have power : ((Nat.pow 2 (-exponent).toNat : Nat) : ℚ) = 2 ^ (-exponent) :=
        cast_pow_toNat (by omega)
      rw [zpow_neg] at power
      push_cast at power ⊢
      rw [power, div_inv_eq_mul]

theorem IsPositive.lt_iff (positive : number.IsPositive) (otherPositive : other.IsPositive) :
    number.lt other = true ↔ number.value < other.value := by
  cases positive with
  | @intro mantissa exponent =>
      cases otherPositive with
      | @intro otherMantissa otherExponent =>
          rcases fraction?_finite mantissa exponent with
            ⟨numerator, denominator, read, positive, value⟩
          rcases fraction?_finite otherMantissa otherExponent with
            ⟨otherNumerator, otherDenominator, otherRead, otherPositive, otherValue⟩
          have positive : (0 : ℚ) < denominator := by exact_mod_cast positive
          have otherPositive : (0 : ℚ) < otherDenominator := by exact_mod_cast otherPositive
          rw [value, otherValue, div_lt_div_iff₀ positive otherPositive, lt, read, otherRead]
          simp only [decide_eq_true_eq]
          exact_mod_cast Iff.rfl

theorem IsPositive.lt_infinite (positive : number.IsPositive) :
    number.lt (.infinite false) = true := by
  cases positive with
  | intro => rfl

end WorkspaceGraph.Binary64
