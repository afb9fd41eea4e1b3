import EntityModel.Text.Real
import Mathlib.Algebra.Order.Field.Power
import Mathlib.Data.Int.Log
import Mathlib.Data.Rat.Floor
import Mathlib.Tactic.Linarith
import Mathlib.Tactic.Positivity
import Mathlib.Tactic.Ring

/-!
# Rounding to binary floats

A number is rounded to a float by rounding its multiple of a power of two to the nearest integer, a
tie to the even one.  The power leaves as many bits as the precision of the format, and is never
below the one that the smallest floats are multiples of.  The result is too large for the format if
it is above the largest finite value; then the float is infinite.

* `le_roundEven_iff`         what is rounded to an integer or above
* `roundsToFinite_iff`       the magnitudes that do not become infinite
-/

namespace EntityModel.Text

/-- The nearest integer, of two the even one. -/
def roundEven (x : ℚ) : ℤ :=
  if Int.fract x < 1 / 2 then ⌊x⌋
  else if 1 / 2 < Int.fract x then ⌊x⌋ + 1
  else if Even ⌊x⌋ then ⌊x⌋ else ⌊x⌋ + 1

/-- An integer is at most the rounded number if the number is nearer to it than to the integer below
    it, or as near and the integer is even. -/
theorem le_roundEven_iff {n : ℤ} {x : ℚ} :
    n ≤ roundEven x ↔ (n : ℚ) - 1 / 2 < x ∨ (n : ℚ) - 1 / 2 = x ∧ Even n := by
  have hx : (⌊x⌋ : ℚ) + Int.fract x = x := Int.floor_add_fract x
  have hfract := Int.fract_nonneg x
  have hlt := Int.fract_lt_one x
  have hle : ∀ m : ℤ, n ≤ m → (n : ℚ) ≤ m := fun m h => by exact_mod_cast h
  have hge : ∀ m : ℤ, m < n → (m : ℚ) + 1 ≤ n := fun m h => by exact_mod_cast h
  unfold roundEven
  split
  · refine ⟨fun h => .inl (by linarith [hle _ h]), fun h => ?_⟩
    by_contra hn
    have := hge _ (not_le.mp hn)
    obtain h | ⟨h, -⟩ := h <;> linarith
  split
  · refine ⟨fun h => .inl ?_, fun h => ?_⟩
    · have := hle _ h
      push_cast at this
      linarith
    · by_contra hn
      have := hge _ (not_le.mp hn)
      push_cast at this
      obtain h | ⟨h, -⟩ := h <;> linarith
  have hhalf : Int.fract x = 1 / 2 := by linarith
  split
  · rename_i heven
    refine ⟨fun h => .inl (by linarith [hle _ h]), fun h => ?_⟩
    by_contra hn
    have := hge _ (not_le.mp hn)
    obtain h | ⟨h, hn'⟩ := h
    · linarith
    · -- at a tie the integer above an even one is odd
      have hsucc : (n : ℚ) = (⌊x⌋ + 1 : ℤ) := by
        push_cast
        linarith
      rw [Int.cast_inj.mp hsucc] at hn'
      exact absurd heven (by grind)
  · rename_i hodd
    refine ⟨fun h => ?_, fun h => ?_⟩
    · obtain hlt | rfl := lt_or_eq_of_le h
      · exact .inl (by linarith [hle _ (Int.lt_add_one_iff.mp hlt)])
      · refine .inr ⟨?_, by grind⟩
        push_cast
        linarith
    · by_contra hn
      have := hge _ (not_le.mp hn)
      push_cast at this
      obtain h | ⟨h, -⟩ := h <;> linarith

namespace FloatFormat

/-- The power of two that all floats of the format are multiples of. -/
def leastScale (f : FloatFormat) : ℤ := 2 - f.maxExponent - f.precision

/-- The power of two of the last bit that is kept of a number. -/
def scaleOf (f : FloatFormat) (x : ℚ) : ℤ :=
  max f.leastScale (Int.log 2 |x| + 1 - f.precision)

/-- The number rounded to the precision of the format, its exponent as large as need be. -/
def round (f : FloatFormat) (x : ℚ) : ℚ :=
  roundEven (x / (2 : ℚ) ^ f.scaleOf x) * (2 : ℚ) ^ f.scaleOf x

/-- The largest finite value: all bits of the precision set, at the largest exponent. -/
def largest (f : FloatFormat) : ℚ :=
  ((2 : ℚ) ^ f.precision - 1) * (2 : ℚ) ^ ((f.maxExponent : ℤ) + 1 - f.precision)

/-- The magnitude of a number is rounded to a finite value. -/
def RoundsToFinite (f : FloatFormat) (x : ℚ) : Prop := f.round |x| ≤ f.largest

variable {f : FloatFormat} {a : ℚ}

/-- The point from which rounding gives infinity is the middle between the largest finite value and
    the next one. -/
theorem cast_overflowBound (h : f.precision ≤ f.maxExponent) :
    (f.overflowBound : ℚ) =
      ((2 : ℚ) ^ f.precision - 1 / 2) * (2 : ℚ) ^ ((f.maxExponent : ℤ) + 1 - f.precision) := by
  have hscale : (2 : ℚ) ^ ((f.maxExponent : ℤ) + 1 - f.precision) =
      2 * 2 ^ (f.maxExponent - f.precision) := by
    rw [← zpow_natCast, ← zpow_one_add₀ two_ne_zero]
    congr 1
    omega
  have hbound : f.overflowBound =
      (2 ^ (f.precision + 1) - 1) * 2 ^ (f.maxExponent - f.precision) := rfl
  rw [hbound, hscale, Nat.cast_mul, Nat.cast_sub Nat.one_le_two_pow]
  push_cast
  ring

/-- A number below a power of two is not rounded above it. -/
private theorem round_le_zpow {n : ℤ} (hn : f.leastScale + f.precision ≤ n) (ha : 0 ≤ a)
    (h : a < (2 : ℚ) ^ n) : f.round a ≤ (2 : ℚ) ^ n := by
  obtain rfl | hpos := ha.eq_or_lt
  · have hzero : f.round 0 = 0 := by simp [round, roundEven]
    rw [hzero]
    positivity
  have hlog : Int.log 2 a < n :=
    (Int.lt_zpow_iff_log_lt (by decide) hpos).mp (by exact_mod_cast h)
  have hscale : f.scaleOf a + f.precision ≤ n := by
    unfold scaleOf
    rw [abs_of_nonneg ha]
    omega
  obtain ⟨k, hk⟩ := Int.eq_ofNat_of_zero_le (show 0 ≤ n - f.scaleOf a by omega)
  have hsplit : (2 : ℚ) ^ n = 2 ^ k * (2 : ℚ) ^ f.scaleOf a := by
    rw [← zpow_natCast, ← zpow_add₀ two_ne_zero]
    congr 1
    omega
  have hbelow : a / (2 : ℚ) ^ f.scaleOf a < 2 ^ k := by
    rwa [div_lt_iff₀ (by positivity), ← hsplit]
  have hround : roundEven (a / (2 : ℚ) ^ f.scaleOf a) ≤ 2 ^ k := by
    by_contra habove
    have hnear := le_roundEven_iff.mp (Int.add_one_le_iff.mpr (not_le.mp habove))
    push_cast at hnear
    obtain hnear | ⟨hnear, -⟩ := hnear <;> linarith
  rw [round, hsplit]
  exact mul_le_mul_of_nonneg_right (by exact_mod_cast hround) (by positivity)

/-- A number is not rounded below the power of two under it. -/
private theorem zpow_log_le_round (hprecision : 0 < f.precision) (hpos : 0 < a)
    (h : f.leastScale ≤ Int.log 2 a) : (2 : ℚ) ^ Int.log 2 a ≤ f.round a := by
  have hscale : f.scaleOf a ≤ Int.log 2 a := by
    unfold scaleOf
    rw [abs_of_pos hpos]
    omega
  obtain ⟨k, hk⟩ := Int.eq_ofNat_of_zero_le (show 0 ≤ Int.log 2 a - f.scaleOf a by omega)
  have hsplit : (2 : ℚ) ^ Int.log 2 a = 2 ^ k * (2 : ℚ) ^ f.scaleOf a := by
    rw [← zpow_natCast, ← zpow_add₀ two_ne_zero]
    congr 1
    omega
  have hle : (2 : ℚ) ^ k ≤ a / (2 : ℚ) ^ f.scaleOf a := by
    rw [le_div_iff₀ (by positivity), ← hsplit]
    exact_mod_cast Int.zpow_log_le_self (by decide) hpos
  have hround : (2 : ℤ) ^ k ≤ roundEven (a / (2 : ℚ) ^ f.scaleOf a) := by
    refine le_roundEven_iff.mpr (.inl ?_)
    push_cast
    linarith
  rw [round, hsplit]
  exact mul_le_mul_of_nonneg_right (by exact_mod_cast hround) (by positivity)

/-- Between the last two powers of two the numbers that are rounded to a finite value are those
    below the middle between the largest one and the power above it. -/
private theorem round_le_largest_iff_of_log_eq (hprecision : 0 < f.precision)
    (h : f.precision ≤ f.maxExponent) (hpos : 0 < a) (hlog : Int.log 2 a = f.maxExponent) :
    f.round a ≤ f.largest ↔ a < f.overflowBound := by
  have hscale : f.scaleOf a = (f.maxExponent : ℤ) + 1 - f.precision := by
    unfold scaleOf leastScale
    rw [abs_of_pos hpos, hlog]
    omega
  have heven : Even ((2 : ℤ) ^ f.precision) :=
    (even_two : Even (2 : ℤ)).pow_of_ne_zero hprecision.ne'
  have hunit : (0 : ℚ) < (2 : ℚ) ^ ((f.maxExponent : ℤ) + 1 - f.precision) := by positivity
  rw [round, largest, hscale, cast_overflowBound h, mul_le_mul_iff_left₀ hunit,
    ← div_lt_iff₀ hunit]
  generalize a / (2 : ℚ) ^ ((f.maxExponent : ℤ) + 1 - f.precision) = y
  have hcast : ((roundEven y : ℤ) : ℚ) ≤ (2 : ℚ) ^ f.precision - 1 ↔
      ¬ (2 : ℤ) ^ f.precision ≤ roundEven y := by
    rw [not_le, ← Int.le_sub_one_iff]
    exact_mod_cast Iff.rfl
  rw [hcast, le_roundEven_iff, and_iff_left heven, ← le_iff_lt_or_eq, not_le]
  push_cast
  rfl

/-- The largest finite value and the point from which rounding gives infinity lie between the last
    two powers of two. -/
private theorem largest_bounds (hprecision : 0 < f.precision) (h : f.precision ≤ f.maxExponent) :
    (2 : ℚ) ^ (f.maxExponent : ℤ) ≤ f.largest ∧ f.largest < f.overflowBound ∧
      (f.overflowBound : ℚ) < (2 : ℚ) ^ ((f.maxExponent : ℤ) + 1) := by
  have hunit : (0 : ℚ) < (2 : ℚ) ^ ((f.maxExponent : ℤ) + 1 - f.precision) := by positivity
  have htop : (2 : ℚ) ^ ((f.maxExponent : ℤ) + 1) =
      2 ^ f.precision * (2 : ℚ) ^ ((f.maxExponent : ℤ) + 1 - f.precision) := by
    rw [← zpow_natCast, ← zpow_add₀ two_ne_zero]
    congr 1
    omega
  have hhalf : (2 : ℚ) ^ ((f.maxExponent : ℤ) + 1) = (2 : ℚ) ^ (f.maxExponent : ℤ) * 2 :=
    zpow_add_one₀ two_ne_zero _
  have htwo : (2 : ℚ) ≤ 2 ^ f.precision := by
    calc (2 : ℚ) = 2 ^ 1 := (pow_one 2).symm
      _ ≤ 2 ^ f.precision := pow_le_pow_right₀ (by norm_num) hprecision
  rw [largest, cast_overflowBound h]
  refine ⟨?_, ?_, ?_⟩ <;> nlinarith

/-- A magnitude is rounded to a finite value exactly if it is below the point from which rounding
    gives infinity. -/
theorem roundsToFinite_iff (hprecision : 0 < f.precision) (h : f.precision ≤ f.maxExponent)
    {x : ℚ} : f.RoundsToFinite x ↔ |x| < f.overflowBound := by
  obtain ⟨hlargest, hbound, htop⟩ := largest_bounds hprecision h
  have hleast : f.leastScale + f.precision ≤ f.maxExponent := by
    unfold leastScale
    omega
  unfold RoundsToFinite
  have hnonneg : 0 ≤ |x| := abs_nonneg x
  generalize |x| = a at hnonneg ⊢
  obtain hsmall | hlarge := lt_or_ge a ((2 : ℚ) ^ (f.maxExponent : ℤ))
  · exact iff_of_true ((round_le_zpow hleast hnonneg hsmall).trans hlargest)
      (hsmall.trans_le (hlargest.trans hbound.le))
  have hpos : 0 < a := lt_of_lt_of_le (by positivity) hlarge
  have hlog : (f.maxExponent : ℤ) ≤ Int.log 2 a :=
    (Int.zpow_le_iff_le_log (by decide) hpos).mp (by exact_mod_cast hlarge)
  obtain hlog | hlog := hlog.eq_or_lt
  · exact round_le_largest_iff_of_log_eq hprecision h hpos hlog.symm
  · -- beyond the last power of two nothing is finite
    have hbeyond : (2 : ℚ) ^ ((f.maxExponent : ℤ) + 1) ≤ (2 : ℚ) ^ Int.log 2 a :=
      zpow_le_zpow_right₀ (by norm_num) hlog
    have hself : (2 : ℚ) ^ Int.log 2 a ≤ a := by
      exact_mod_cast Int.zpow_log_le_self (by decide) hpos
    have hround := zpow_log_le_round hprecision hpos (by omega)
    exact iff_of_false (by linarith) (by linarith)

end FloatFormat

end EntityModel.Text
