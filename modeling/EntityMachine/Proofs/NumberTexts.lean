import EntityMachine.Natives
import EntityMachine.Proofs.SingleValues
import Mathlib

/-!
Texts of numbers. A single is cut to a whole number of 32 bits, and where that converts back to the single it is
written without a point. It converts back just where the single was whole and in range, and at the first single
past the range: there the cut stops at the greatest whole number, which is rounded up again.
-/
namespace EntityMachine
namespace Single

/-! ## Cut and converted back -/

theorem whole_of_far {x : Single} (far : 0x800000 * unitsPerOne ≤ x.magnitude) : unitsPerOne ∣ x.magnitude := by
  rw [magnitude_eq, unitsPerOne_eq] at far ⊢
  have bounded := x.normal.bounded
  have high : 149 ≤ x.scale := by
    refine Nat.le_of_not_lt fun low => ?_
    have least : 2 ^ x.scale ≤ 2 ^ 148 := Nat.pow_le_pow_right (by decide) (Nat.le_of_lt_succ low)
    have short : x.significand * 2 ^ x.scale < 0x1000000 * 2 ^ 148 :=
      Nat.mul_lt_mul_of_lt_of_le bounded least (by decide)
    omega
  exact Dvd.dvd.mul_left (Nat.pow_dvd_pow 2 high) _

theorem truncate_eq {x : Single} (finite : x.isFinite = true) :
    x.truncate = Max.max (-0x80000000) (min 0x7fffffff (x.units.tdiv unitsPerOne)) := by
  rw [truncate, isNaN_of_finite finite]
  rfl

theorem truncate_whole {x : Single} (finite : x.isFinite = true) {n : ℤ} (whole : x.units = n * unitsPerOne) :
    x.truncate = Max.max (-0x80000000) (min 0x7fffffff n) := by
  rw [truncate_eq finite, whole, Int.mul_tdiv_cancel _ (by decide +kernel)]

theorem ofInt_greatest : ofInt 0x7fffffff = ⟨0x4f000000⟩ := by decide +kernel

theorem ofInt_least : ofInt (-0x80000000) = ⟨0xcf000000⟩ := by decide +kernel

theorem whole_units_inj {n m : ℤ} : n * (unitsPerOne : ℤ) = m * unitsPerOne ↔ n = m :=
  mul_left_inj' (by decide +kernel)

section
variable {x : Single} (finite : x.isFinite = true)
include finite

theorem ofInt_truncate_near (near : x.magnitude < 0x800000 * unitsPerOne) :
    (ofInt x.truncate).eq x = true ↔ x.units = x.truncate * unitsPerOne := by
  have small : (x.units.tdiv unitsPerOne).natAbs < 0x800000 := by
    rw [Int.natAbs_tdiv, units_natAbs]
    exact Nat.div_lt_of_lt_mul (Nat.mul_comm _ _ ▸ near)
  have cut := truncate_eq finite
  obtain ⟨finite', units⟩ := ofInt_units (n := x.truncate) (by omega)
  rw [eq_iff_units finite' finite, units]
  exact eq_comm

theorem ofInt_truncate_far {n : ℤ} (whole : x.units = n * unitsPerOne) :
    (ofInt x.truncate).eq x = true ↔ -0x80000000 ≤ n ∧ n ≤ 0x80000000 := by
  have cut := truncate_whole finite whole
  rcases Int.lt_or_le n (-0x80000000) with below | low
  · have stopped : x.truncate = -0x80000000 := by omega
    have least : (⟨0xcf000000⟩ : Single).units = -0x80000000 * unitsPerOne := by decide +kernel
    rw [stopped, ofInt_least, eq_iff_units (by decide) finite, least, whole, whole_units_inj]
    omega
  · rcases Int.lt_or_le n 0x80000000 with high | above
    · have kept : x.truncate = n := by omega
      obtain ⟨finite', units⟩ := ofUnits_units finite
      rw [kept, ofInt, ← whole, eq_iff_units finite' finite]
      exact iff_of_true units ⟨low, Int.le_of_lt high⟩
    · have stopped : x.truncate = 0x7fffffff := by omega
      have greatest : (⟨0x4f000000⟩ : Single).units = 0x80000000 * unitsPerOne := by decide +kernel
      rw [stopped, ofInt_greatest, eq_iff_units (by decide) finite, greatest, whole, whole_units_inj]
      omega

/-- A single comes back from the cut if it is whole and in range, and one past the range does too. -/
theorem ofInt_truncate_iff : (ofInt x.truncate).eq x = true ↔
    ∃ n : ℤ, -0x80000000 ≤ n ∧ n ≤ 0x80000000 ∧ x.value = n := by
  constructor
  · intro back
    rcases Nat.lt_or_ge x.magnitude (0x800000 * unitsPerOne) with near | far
    · have cut := truncate_eq finite
      have whole := (ofInt_truncate_near finite near).mp back
      exact ⟨x.truncate, by omega, by omega, (value_eq_iff x _).mpr whole⟩
    · obtain ⟨n, whole⟩ : (unitsPerOne : ℤ) ∣ x.units := by
        rw [Int.natCast_dvd, units_natAbs]
        exact whole_of_far far
      rw [mul_comm] at whole
      obtain ⟨low, high⟩ := (ofInt_truncate_far finite whole).mp back
      exact ⟨n, low, high, (value_eq_iff x n).mpr whole⟩
  · rintro ⟨n, low, high, whole⟩
    exact (ofInt_truncate_far finite ((value_eq_iff x n).mp whole)).mpr ⟨low, high⟩

end

/-! ## Points -/

theorem repr_no_point (n : Nat) : '.' ∉ n.repr.toList := by
  rw [Nat.repr_eq_ofList_toDigits, String.toList_ofList]
  intro member
  exact absurd (Nat.isDigit_of_mem_toDigits (by decide) (by decide) member) (by decide)

theorem toString_no_point (n : ℤ) : '.' ∉ (toString n).toList := by
  cases n with
  | ofNat n => exact repr_no_point n
  | negSucc n =>
      intro member
      have parts : (toString (Int.negSucc n)).toList = '-' :: (n + 1).repr.toList := String.toList_append
      rw [parts] at member
      rcases List.mem_cons.mp member with sign | digit
      · cases sign
      · exact repr_no_point _ digit

theorem tenths_point (digits : Nat) : '.' ∈ (Decimal.positional ⟨digits, -1⟩).toList := by
  obtain ⟨whole, tenths, parts⟩ : ∃ whole tenths, Decimal.positional ⟨digits, -1⟩ = whole ++ "." ++ tenths :=
    ⟨_, _, rfl⟩
  simp [parts]

theorem signed_point (x : Single) {text : String} (point : '.' ∈ text.toList) : '.' ∈ (x.signed text).toList := by
  unfold signed
  split
  · rw [String.toList_append]
    exact List.mem_append_right _ point
  · exact point

theorem oneDecimal_point {x : Single} (finite : x.isFinite = true) : '.' ∈ x.oneDecimal.toList := by
  have bounded : x.isInfinite = false := beq_eq_false_iff_ne.mpr (Nat.ne_of_lt ((isFinite_iff x).mp finite))
  rw [oneDecimal, isNaN_of_finite finite, bounded, Text.alignRight, String.toList_append]
  exact List.mem_append_right _ (x.signed_point (tenths_point _))

/-! ## Numbers as texts -/

section
variable {x : Single} (finite : x.isFinite = true)
include finite

theorem no_point_iff : '.' ∉ x.numberText.toList ↔
    ∃ n : ℤ, -0x80000000 ≤ n ∧ n ≤ 0x80000000 ∧ x.value = n := by
  rw [← ofInt_truncate_iff finite, numberText]
  split
  · rename_i back
    exact iff_of_true (toString_no_point _) back
  · rename_i apart
    exact iff_of_false (not_not_intro (oneDecimal_point finite)) apart

theorem numberText_whole {n : ℤ} (whole : x.value = n) (low : -0x80000000 ≤ n) (high : n ≤ 0x80000000) :
    x.numberText = toString (min n 0x7fffffff) := by
  have cut : x.truncate = min n 0x7fffffff := by
    rw [truncate_whole finite ((value_eq_iff x n).mp whole)]
    omega
  rw [numberText, if_pos ((ofInt_truncate_iff finite).mpr ⟨n, low, high, whole⟩), cut]

end

/-- A finite number whose text has no point is the whole number that the text spells, unless it is 2^31. All whole
numbers from -2^31 on and below 2^31 are written in plain decimal, 2^31 is written as the number before it, and
every other finite number has a point in its text. -/
theorem whole_numbers_written_exactly {x : Single} (finite : x.isFinite = true) :
    (x.value ≠ 0x80000000 → '.' ∉ x.numberText.toList →
      ∃ n : ℤ, x.numberText.toInt? = some n ∧ x.value = n) ∧
    (∀ n : ℤ, -0x80000000 ≤ n → n < 0x80000000 → x.value = n → x.numberText = toString n) ∧
    (x.value = 0x80000000 → x.numberText = "2147483647") ∧
    ('.' ∉ x.numberText.toList ↔ ∃ n : ℤ, -0x80000000 ≤ n ∧ n ≤ 0x80000000 ∧ x.value = n) := by
  have plain : ∀ n : ℤ, -0x80000000 ≤ n → n < 0x80000000 → x.value = n → x.numberText = toString n := by
    intro n low high whole
    rw [numberText_whole finite whole low (Int.le_of_lt high), Int.min_eq_left (by omega)]
  refine ⟨fun other none => ?_, plain, fun next => ?_, no_point_iff finite⟩
  · obtain ⟨n, low, high, whole⟩ := (no_point_iff finite).mp none
    have apart : n ≠ 0x80000000 := fun same => other (by rw [whole, same]; norm_num)
    refine ⟨n, ?_, whole⟩
    rw [plain n low (lt_of_le_of_ne high apart) whole]
    exact Int.toInt?_repr n
  · exact (numberText_whole finite (n := 0x80000000) next (by decide) (by decide)).trans rfl

theorem least_written_exactly : (⟨0xcf000000⟩ : Single).isFinite = true ∧
    (⟨0xcf000000⟩ : Single).value = (-0x80000000 : ℤ) ∧ (⟨0xcf000000⟩ : Single).numberText = "-2147483648" := by
  have least : (⟨0xcf000000⟩ : Single).value = (-0x80000000 : ℤ) := (value_eq_iff _ _).mpr (by decide +kernel)
  have finite : (⟨0xcf000000⟩ : Single).isFinite = true := by decide
  obtain ⟨-, written, -, -⟩ := whole_numbers_written_exactly finite
  exact ⟨finite, least, written _ (by decide) (by decide) least⟩

/-- The text of 2^31 has no point and spells another number. -/
theorem next_written_short : (⟨0x4f000000⟩ : Single).isFinite = true ∧
    '.' ∉ (⟨0x4f000000⟩ : Single).numberText.toList ∧
    (⟨0x4f000000⟩ : Single).numberText.toInt? = some 2147483647 ∧ (⟨0x4f000000⟩ : Single).value = 2147483648 := by
  have next : (⟨0x4f000000⟩ : Single).value = (0x80000000 : ℤ) := (value_eq_iff _ _).mpr (by decide +kernel)
  have written := numberText_whole (x := ⟨0x4f000000⟩) (by decide) next (by decide) (by decide)
  rw [written]
  exact ⟨by decide, toString_no_point _, Int.toInt?_repr _, next⟩

end Single
end EntityMachine
