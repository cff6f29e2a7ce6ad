import EntityMachine.Single
import Mathlib.Algebra.Order.Ring.Rat
import Mathlib.Tactic.FieldSimp
import Mathlib.Tactic.NormNum
import Mathlib.Tactic.Ring

/-!
Exact values of singles. A finite single is a significand times a power of two, and there is only one way to
write it so, apart from its sign. Hence numeric equality is equality of values, and rounding keeps what a single
can hold. All whole numbers of up to 24 bits are among that.
-/
namespace EntityMachine

theorem roundHalfEven_whole (quotient : Nat) {denominator : Nat} (some_ : 0 < denominator) :
    roundHalfEven (quotient * denominator) denominator = quotient := by
  unfold roundHalfEven
  dsimp only
  rw [Nat.mul_mod_left, Nat.mul_div_cancel _ some_, Nat.mul_zero, if_pos some_]

namespace Single

def size (x : Single) : ℚ :=
  if x.exponentField = 0 then x.fractionField / 2 ^ 23 * 2 ^ (-126 : ℤ)
  else (1 + x.fractionField / 2 ^ 23) * 2 ^ ((x.exponentField : ℤ) - 127)

/-- The number that the bits of a finite single stand for. -/
def value (x : Single) : ℚ := if x.isNegative then -x.size else x.size

theorem unitsPerOne_eq : unitsPerOne = 2 ^ 149 := rfl

theorem size_eq (x : Single) : x.size = x.magnitude / 2 ^ 149 := by
  unfold size magnitude
  split
  · rw [zpow_neg]
    norm_num
    ring
  · rename_i normal
    obtain ⟨scale, field⟩ := Nat.exists_eq_succ_of_ne_zero normal
    have place : (2 : ℚ) ^ ((x.exponentField : ℤ) - 127) = 2 ^ scale / 2 ^ 126 := by
      rw [field, zpow_sub₀ two_ne_zero, Nat.cast_succ, zpow_add_one₀ two_ne_zero]
      norm_num
      ring
    rw [place, field, Nat.succ_sub_one, Nat.pow_eq]
    push_cast
    field_simp
    ring

theorem value_eq (x : Single) : x.value = x.units / 2 ^ 149 := by
  unfold value units
  rw [size_eq]
  split
  · rw [Int.cast_neg, Int.cast_natCast, neg_div]
  · rw [Int.cast_natCast]

theorem value_eq_iff (x : Single) (n : ℤ) : x.value = n ↔ x.units = n * unitsPerOne := by
  rw [value_eq, div_eq_iff (by positivity), unitsPerOne_eq]
  norm_cast

/-! ## Significand and scale -/

theorem exponentField_eq (x : Single) : x.exponentField = x.pattern / 0x800000 := by
  unfold exponentField pattern
  omega

theorem fractionField_eq (x : Single) : x.fractionField = x.pattern % 0x800000 := by
  unfold fractionField pattern
  omega

def significand (x : Single) : Nat :=
  if x.exponentField = 0 then x.fractionField else 0x800000 + x.fractionField

def scale (x : Single) : Nat := x.exponentField - 1

theorem magnitude_eq (x : Single) : x.magnitude = x.significand * 2 ^ x.scale := by
  unfold magnitude significand scale
  split
  · rename_i least
    rw [least, pow_zero, Nat.mul_one]
  · rfl

theorem pattern_eq (x : Single) : x.pattern = x.scale * 0x800000 + x.significand := by
  have exponent := x.exponentField_eq
  have fraction := x.fractionField_eq
  unfold significand scale
  split <;> omega

/-- Only at the least scale a significand may lack its leading bit. -/
structure Normal (significand scale : Nat) : Prop where
  bounded : significand < 0x1000000
  leading : 0x800000 ≤ significand ∨ scale = 0

theorem normal (x : Single) : Normal x.significand x.scale := by
  have fraction : x.fractionField < 0x800000 := Nat.mod_lt _ (by decide)
  unfold significand scale
  split
  · rename_i least
    exact ⟨by omega, .inr (by rw [least])⟩
  · exact ⟨by omega, .inl (Nat.le_add_right _ _)⟩

section
variable {significand scale : Nat} (normal : Normal significand scale)
include normal

theorem Normal.shift : (significand * 2 ^ scale).log2 - 23 = scale := by
  have bounded := normal.bounded
  rcases normal.leading with leading | rfl
  · have positive : 0 < 2 ^ scale := Nat.two_pow_pos scale
    have place : (significand * 2 ^ scale).log2 = 23 + scale := by
      rw [Nat.log2_eq_iff (Nat.mul_ne_zero (by omega) positive.ne'), Nat.pow_add, Nat.add_right_comm, Nat.pow_add]
      exact ⟨Nat.mul_le_mul_right _ leading, Nat.mul_lt_mul_of_pos_right bounded positive⟩
    rw [place, Nat.add_sub_cancel_left]
  · rw [Nat.pow_zero, Nat.mul_one]
    rcases Nat.eq_zero_or_pos significand with rfl | positive
    · rfl
    · have := (Nat.log2_lt positive.ne').mpr (show significand < 2 ^ 24 from bounded)
      omega

theorem Normal.nearest (negative : Bool) :
    nearest negative (significand * 2 ^ scale) 1 =
      ofPattern negative (min (scale * 0x800000 + significand) infinitePattern) := by
  unfold Single.nearest
  dsimp only
  rw [Nat.div_one, normal.shift, Nat.one_mul, Nat.pow_eq, roundHalfEven_whole _ (Nat.two_pow_pos scale)]

end

/-! ## Patterns -/

theorem ofPattern_bits (negative : Bool) {pattern : Nat} (small : pattern < 0x80000000) :
    (ofPattern negative pattern).bits.toNat = pattern + if negative then 0x80000000 else 0 := by
  rw [ofPattern, UInt32.toNat_ofNat']
  refine Nat.mod_eq_of_lt ?_
  split <;> omega

theorem ofPattern_pattern (negative : Bool) {pattern : Nat} (small : pattern < 0x80000000) :
    (ofPattern negative pattern).pattern = pattern := by
  rw [Single.pattern, ofPattern_bits negative small]
  split <;> omega

theorem ofPattern_isNegative (negative : Bool) {pattern : Nat} (small : pattern < 0x80000000) :
    (ofPattern negative pattern).isNegative = negative := by
  rw [isNegative, ofPattern_bits negative small]
  cases negative
  · exact decide_eq_false (Nat.not_le.mpr small)
  · exact decide_eq_true (Nat.le_add_left _ _)

theorem ofPattern_isFinite (negative : Bool) {pattern : Nat} (finite : pattern < infinitePattern) :
    (ofPattern negative pattern).isFinite = true := by
  rw [isFinite, ofPattern_pattern negative (Nat.lt_trans finite (by decide))]
  exact decide_eq_true finite

theorem isFinite_iff (x : Single) : x.isFinite = true ↔ x.pattern < infinitePattern := decide_eq_true_iff

theorem isNaN_of_finite {x : Single} (finite : x.isFinite = true) : x.isNaN = false :=
  decide_eq_false (Nat.lt_asymm ((isFinite_iff x).mp finite))

theorem magnitude_of_pattern {x y : Single} (same : x.pattern = y.pattern) : x.magnitude = y.magnitude := by
  unfold magnitude
  rw [exponentField_eq, exponentField_eq, fractionField_eq, fractionField_eq, same]

theorem Normal.magnitude {significand scale : Nat} (normal : Normal significand scale) (negative : Bool)
    (finite : scale * 0x800000 + significand < infinitePattern) :
    (ofPattern negative (scale * 0x800000 + significand)).magnitude = significand * 2 ^ scale := by
  have place := ofPattern_pattern negative (Nat.lt_trans finite (by decide))
  have bounded := normal.bounded
  unfold Single.magnitude
  rw [exponentField_eq, fractionField_eq, place]
  rcases normal.leading with leading | rfl
  · have exponent : (scale * 0x800000 + significand) / 0x800000 = scale + 1 := by omega
    have fraction : 0x800000 + (scale * 0x800000 + significand) % 0x800000 = significand := by omega
    rw [exponent, fraction, if_neg (Nat.succ_ne_zero scale), Nat.add_sub_cancel, Nat.pow_eq]
  · rw [Nat.zero_mul, Nat.zero_add, Nat.pow_zero, Nat.mul_one]
    split
    · omega
    · have fraction : 0x800000 + significand % 0x800000 = significand := by omega
      have exponent : significand / 0x800000 - 1 = 0 := by omega
      rw [fraction, exponent, Nat.pow_eq, Nat.pow_zero, Nat.mul_one]

/-! ## Rounding what a single can hold -/

theorem nearest_magnitude {x : Single} (finite : x.isFinite = true) (negative : Bool) :
    nearest negative x.magnitude 1 = ofPattern negative x.pattern := by
  rw [magnitude_eq, x.normal.nearest, ← pattern_eq,
    Nat.min_eq_left (Nat.le_of_lt ((isFinite_iff x).mp finite))]

theorem magnitude_eq_iff {x y : Single} (finite : x.isFinite = true) (finite' : y.isFinite = true) :
    x.magnitude = y.magnitude ↔ x.pattern = y.pattern := by
  refine ⟨fun same => ?_, magnitude_of_pattern⟩
  have rounded := nearest_magnitude finite false
  rw [same, nearest_magnitude finite' false] at rounded
  have patterns := congrArg pattern rounded
  have small {z : Single} : z.pattern < 0x80000000 := Nat.mod_lt _ (by decide)
  rw [ofPattern_pattern false small, ofPattern_pattern false small] at patterns
  exact patterns.symm

theorem eq_iff_units {x y : Single} (finite : x.isFinite = true) (finite' : y.isFinite = true) :
    x.eq y = true ↔ x.units = y.units := by
  have zero {z : Single} (finite : z.isFinite = true) : z.magnitude = 0 ↔ z.pattern = 0 :=
    magnitude_eq_iff finite (y := Single.zero) rfl
  have same := magnitude_eq_iff finite finite'
  have left := zero finite
  have right := zero finite'
  rw [eq, isNaN_of_finite finite, isNaN_of_finite finite']
  simp only [Bool.not_false, Bool.true_and, decide_eq_true_iff]
  unfold rank units
  split <;> split <;> omega

theorem units_natAbs (x : Single) : x.units.natAbs = x.magnitude := by
  unfold units
  split <;> omega

theorem ofUnits_units {x : Single} (finite : x.isFinite = true) :
    (ofUnits x.units).isFinite = true ∧ (ofUnits x.units).units = x.units := by
  have below := (isFinite_iff x).mp finite
  have small := Nat.lt_trans below (show infinitePattern < 0x80000000 by decide)
  rw [ofUnits, units_natAbs, nearest_magnitude finite]
  refine ⟨ofPattern_isFinite _ below, ?_⟩
  have distance := x.units_natAbs
  rw [units, ofPattern_isNegative _ small, magnitude_of_pattern (ofPattern_pattern _ small)]
  simp only [decide_eq_true_iff]
  split <;> omega

/-- A whole number of up to twenty-four bits, in units, shifted until its leading bit is in place. -/
theorem exists_normal {whole : Nat} (short : whole < 0x1000000) : ∃ significand scale : Nat,
    Normal significand scale ∧ scale ≤ 149 ∧ significand * 2 ^ scale = whole * unitsPerOne := by
  rcases Nat.eq_zero_or_pos whole with rfl | positive
  · exact ⟨0, 0, ⟨by decide, .inr rfl⟩, by decide, by rw [Nat.zero_mul, Nat.zero_mul]⟩
  · have last : whole.log2 < 24 := (Nat.log2_lt positive.ne').mpr short
    have room : 0 < 2 ^ (23 - whole.log2) := Nat.two_pow_pos _
    have low := Nat.mul_le_mul_right (2 ^ (23 - whole.log2)) (Nat.log2_self_le positive.ne')
    have high := Nat.mul_lt_mul_of_pos_right (Nat.lt_log2_self (n := whole)) room
    rw [← Nat.pow_add, Nat.add_sub_cancel' (Nat.le_of_lt_succ last)] at low
    rw [← Nat.pow_add, Nat.add_right_comm, Nat.add_sub_cancel' (Nat.le_of_lt_succ last)] at high
    refine ⟨whole * 2 ^ (23 - whole.log2), 126 + whole.log2, ⟨high, .inl low⟩, by omega, ?_⟩
    have exponent : 23 - whole.log2 + (126 + whole.log2) = 149 := by omega
    rw [Nat.mul_assoc, ← Nat.pow_add, exponent, unitsPerOne_eq]

theorem exists_whole {n : ℤ} (short : n.natAbs < 0x1000000) :
    ∃ x : Single, x.isFinite = true ∧ x.units = n * unitsPerOne := by
  obtain ⟨significand, scale, normal, fits, same⟩ := exists_normal short
  have bounded := normal.bounded
  have finite : scale * 0x800000 + significand < infinitePattern := by
    unfold infinitePattern
    omega
  refine ⟨ofPattern (decide (n < 0)) (scale * 0x800000 + significand), ofPattern_isFinite _ finite, ?_⟩
  rw [units, ofPattern_isNegative _ (Nat.lt_trans finite (by decide)), normal.magnitude _ finite, same]
  simp only [decide_eq_true_iff]
  split
  · rw [Nat.cast_mul, ← neg_mul, Int.ofNat_natAbs_of_nonpos (by omega), neg_neg]
  · rw [Nat.cast_mul, Int.natAbs_of_nonneg (by omega)]

theorem ofInt_units {n : ℤ} (short : n.natAbs < 0x1000000) :
    (ofInt n).isFinite = true ∧ (ofInt n).units = n * unitsPerOne := by
  obtain ⟨x, finite, whole⟩ := exists_whole short
  rw [ofInt, ← whole]
  exact ofUnits_units finite

end Single
end EntityMachine
