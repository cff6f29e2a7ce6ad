import EntityMachine.Segment

/-!
Reading a segment after it was written. A write changes exactly the cells it covers and never the
number of cells, so every later statement about a segment is one about single offsets.
-/
namespace EntityMachine.Segment

theorem storeAll_size (cells : List Cell) (offset : Nat) (target : Array Cell) :
    (storeAll cells offset target).size = target.size := by
  induction cells generalizing offset target with
  | nil => rfl
  | cons cell rest ih => rw [storeAll, ih, Array.size_setIfInBounds]

theorem storeAll_get (cells : List Cell) (offset : Nat) (target : Array Cell) (i : Nat) :
    (storeAll cells offset target)[i]? =
      if offset ≤ i ∧ i < offset + cells.length ∧ i < target.size then cells[i - offset]?
      else target[i]? := by
  induction cells generalizing offset target with
  | nil =>
      have outside : ¬ (offset ≤ i ∧ i < offset + ([] : List Cell).length ∧ i < target.size) := by
        simp only [List.length_nil]
        omega
      rw [if_neg outside]
      rfl
  | cons cell rest ih =>
      rw [storeAll, ih, Array.getElem?_setIfInBounds, Array.size_setIfInBounds, List.length_cons]
      by_cases here : offset = i
      · subst here
        have later : ¬ (offset + 1 ≤ offset ∧ offset < offset + 1 + rest.length ∧
            offset < target.size) := by omega
        by_cases inside : offset < target.size
        · rw [if_neg later, if_pos rfl, if_pos inside, if_pos (by omega), Nat.sub_self]
          rfl
        · rw [if_neg later, if_pos rfl, if_neg inside, if_neg (by omega)]
          exact (Array.getElem?_eq_none_iff.mpr (by omega)).symm
      · rw [if_neg here]
        by_cases covered : offset + 1 ≤ i ∧ i < offset + 1 + rest.length ∧ i < target.size
        · have shifted : i - offset = i - (offset + 1) + 1 := by omega
          rw [if_pos covered, if_pos (by omega), shifted, List.getElem?_cons_succ]
        · rw [if_neg covered, if_neg (by omega)]

@[simp] theorem overwrite_size (s : Segment) (offset : Nat) (cells : Array Cell) :
    (s.overwrite offset cells).size = s.size := storeAll_size _ _ _

theorem overwrite_get (s : Segment) (offset : Nat) (cells : Array Cell) (i : Nat) :
    (s.overwrite offset cells).get? i =
      if offset ≤ i ∧ i < offset + cells.size ∧ i < s.size then cells[i - offset]? else s.get? i := by
  simp only [overwrite, get?, storeAll_get, Array.length_toList, Array.getElem?_toList]
  rfl

@[simp] theorem move_size (s : Segment) (move : Move) : (s.move move).size = s.size :=
  overwrite_size _ _ _

theorem move_get {s : Segment} {m : Move} (admitted : s.admits m = true) (i : Nat) :
    (s.move m).get? i =
      if m.target ≤ i ∧ i < m.target + m.count then s.get? (m.source + (i - m.target)) else s.get? i := by
  obtain ⟨source, target⟩ := of_decide_eq_true admitted
  have extent : (s.cells.extract m.source (m.source + m.count)).size = m.count := by
    rw [Array.size_extract_of_le source, Nat.add_sub_cancel_left]
  rw [move, overwrite_get, extent]
  by_cases covered : m.target ≤ i ∧ i < m.target + m.count
  · rw [if_pos ⟨covered.1, covered.2, by omega⟩, if_pos covered, Array.getElem?_extract,
      if_pos (by simp only [size] at source; omega)]
    rfl
  · rw [if_neg (fun both => covered ⟨both.1, both.2.1⟩), if_neg covered]

@[simp] theorem moveAll_size (s : Segment) (moves : List Move) : (s.moveAll moves).size = s.size := by
  induction moves generalizing s with
  | nil => rfl
  | cons move rest ih => rw [moveAll, ih, move_size]

/-! ## Slices -/

theorem slice_iff (s : Segment) (first last : Nat) (cells : Array Cell) :
    s.slice? first last = some cells ↔
      first ≤ last ∧ last ≤ s.size ∧ cells.size = last - first ∧
        ∀ i, i < last - first → cells[i]? = s.get? (first + i) := by
  simp only [slice?, Option.ite_none_right_eq_some, Option.some.injEq]
  constructor
  · rintro ⟨⟨ordered, inside⟩, rfl⟩
    refine ⟨ordered, inside, Array.size_extract_of_le inside, fun i covered => ?_⟩
    rw [Array.getElem?_extract, if_pos (by simp only [size] at inside; omega)]
    rfl
  · rintro ⟨ordered, inside, extent, same⟩
    refine ⟨⟨ordered, inside⟩, Array.ext_getElem? fun i => ?_⟩
    by_cases covered : i < last - first
    · rw [same i covered, Array.getElem?_extract, if_pos (by simp only [size] at inside; omega)]
      rfl
    · rw [Array.getElem?_eq_none (by rw [Array.size_extract_of_le inside]; omega),
        Array.getElem?_eq_none (by omega)]

theorem slice_size {s : Segment} {first last : Nat} {cells : Array Cell}
    (found : s.slice? first last = some cells) : cells.size = last - first :=
  ((slice_iff s first last cells).mp found).2.2.1

theorem overwrite_slice (s : Segment) (offset : Nat) (cells : Array Cell)
    (inside : offset + cells.size ≤ s.size) :
    (s.overwrite offset cells).slice? offset (offset + cells.size) = some cells := by
  rw [slice_iff]
  refine ⟨Nat.le_add_right _ _, by rwa [overwrite_size], by omega, fun i covered => ?_⟩
  rw [overwrite_get, if_pos (by omega), Nat.add_sub_cancel_left]

end EntityMachine.Segment
