import EntityMachine.Entities
import EntityMachine.Proofs.Runs
import EntityMachine.Proofs.Segments

/-!
Records in their arena. A well-formed table has room for every record that its configuration allows, so
an address that was checked against one record lies in the arena.
-/
namespace EntityMachine.Entities

structure WellFormed (t : Entities) : Prop where
  reserved : 1 ≤ t.config.reserved
  started : t.config.reserved ≤ t.size
  room : t.size ≤ t.capacity
  addressable : t.capacity ≤ EntityConfig.maxRecords
  arena : t.cells.size = t.capacity * t.layout.fieldCount

/-- All of a table but the values in its cells. -/
structure Outline where
  layout : Layout
  config : EntityConfig
  states : Array RecordState
  arena : Nat

def outline (t : Entities) : Outline := ⟨t.layout, t.config, t.states, t.cells.size⟩

theorem layout_of_outline {t t' : Entities} (same : t'.outline = t.outline) : t'.layout = t.layout :=
  congrArg Outline.layout same

theorem size_of_outline {t t' : Entities} (same : t'.outline = t.outline) : t'.size = t.size :=
  congrArg (fun o : Outline => o.states.size) same

theorem WellFormed.of_sizes {t t' : Entities} (well : t.WellFormed) (layout : t'.layout = t.layout)
    (config : t'.config = t.config) (size : t'.size = t.size) (arena : t'.cells.size = t.cells.size) :
    t'.WellFormed := by
  constructor
  · rw [config]
    exact well.reserved
  · rw [config, size]
    exact well.started
  · rw [capacity, config, size]
    exact well.room
  · rw [capacity, config]
    exact well.addressable
  · rw [arena, capacity, config, layout]
    exact well.arena

theorem WellFormed.of_outline {t t' : Entities} (well : t.WellFormed) (same : t'.outline = t.outline) :
    t'.WellFormed :=
  well.of_sizes (congrArg Outline.layout same) (congrArg Outline.config same)
    (congrArg (fun o : Outline => o.states.size) same) (congrArg Outline.arena same)

theorem create_wellFormed (layout : Layout) (config : EntityConfig) :
    (create layout config).WellFormed := by
  have cap : EntityConfig.maxRecords = 0x10000 := rfl
  constructor
  · simp only [create, EntityConfig.clamped]
    omega
  · simp [create, size]
  · simp only [create, size, capacity, EntityConfig.clamped, Array.size_replicate]
    omega
  · simp only [create, capacity, EntityConfig.clamped]
    omega
  · simp [create, capacity]

@[simp] theorem overwrite_outline (t : Entities) (position : Nat) (values : Array Cell) :
    (t.overwrite position values).outline = t.outline := by
  simp [overwrite, outline, Segment.storeAll_size]

theorem WellFormed.record_inside {t : Entities} (well : t.WellFormed) {i : Nat} (exist : i < t.capacity) :
    i * t.layout.fieldCount + t.layout.fieldCount ≤ t.cells.size := by
  rw [well.arena, ← Nat.succ_mul]
  exact Nat.mul_le_mul_right _ exist

/-- A cell of a record, whether or not the record is in use. -/
def cellOf? (t : Entities) (i k : Nat) : Option Cell := t.cells[i * t.layout.fieldCount + k]?

theorem records_apart {count i j k : Nat} (other : j ≠ i) (inside : k < count) :
    j * count + k < i * count ∨ i * count + count ≤ j * count + k := by
  rcases Nat.lt_or_gt_of_ne other with below | above
  · have step : (j + 1) * count ≤ i * count := Nat.mul_le_mul_right count below
    rw [Nat.succ_mul] at step
    exact .inl (by omega)
  · have step : (i + 1) * count ≤ j * count := Nat.mul_le_mul_right count above
    rw [Nat.succ_mul] at step
    exact .inr (by omega)

theorem overwrite_cellOf? {t : Entities} (well : t.WellFormed) {i offset : Nat} (values : Array Cell)
    (known : i < t.capacity) (fits : offset + values.size ≤ t.layout.fieldCount) {j k : Nat}
    (low : k < t.layout.fieldCount) :
    (t.overwrite (i * t.layout.fieldCount + offset) values).cellOf? j k =
      if j = i ∧ offset ≤ k ∧ k < offset + values.size then values[k - offset]? else t.cellOf? j k := by
  have record := well.record_inside known
  change (t.overwrite _ values).cells[j * t.layout.fieldCount + k]? = _
  rw [overwrite, Segment.storeAll_get, Array.length_toList, Array.getElem?_toList]
  by_cases same : j = i
  · subst same
    by_cases covered : offset ≤ k ∧ k < offset + values.size
    · rw [if_pos (by omega), if_pos ⟨rfl, covered⟩, Nat.add_sub_add_left]
    · rw [if_neg (by omega), if_neg (by omega)]
      rfl
  · have apart := records_apart same low
    rw [if_neg (by omega), if_neg fun both => same both.1]
    rfl

theorem locate_iff (t : Entities) (e : EntityIndex) (field : UInt32) (width position : Nat) :
    t.locate e field width = .ok position ↔ e.toNat < t.size ∧
      field.toNat + width ≤ t.layout.fieldCount ∧ position = t.base e + field.toNat := by
  unfold locate
  by_cases unknown : t.size ≤ e.toNat
  · simp [unknown, Outcome.fail, Nat.not_lt.mpr unknown]
  · by_cases outside : t.layout.fieldCount < field.toNat + width
    · simp [unknown, outside, Outcome.fail, Nat.not_le.mpr outside]
    · simp [unknown, outside, Nat.lt_of_not_le unknown, Nat.le_of_not_lt outside, eq_comm]

theorem WellFormed.located_inside {t : Entities} (well : t.WellFormed) {e : EntityIndex}
    {field : UInt32} {width position : Nat} (found : t.locate e field width = .ok position) :
    position + width ≤ t.cells.size := by
  obtain ⟨known, inside, rfl⟩ := (locate_iff t e field width position).mp found
  have record := well.record_inside (Nat.lt_of_lt_of_le known well.room)
  have base : t.base e = e.toNat * t.layout.fieldCount := rfl
  omega

theorem locate_crossing {t : Entities} {e : EntityIndex} {field : UInt32} {width : Nat} (known : e.toNat < t.size)
    (crossing : t.layout.fieldCount < field.toNat + width) :
    t.locate e field width = .fail (.badField field) := by
  rw [locate, if_neg (Nat.not_le.mpr known), if_pos crossing]

theorem locate_outline {t t' : Entities} (same : t'.outline = t.outline) (e : EntityIndex) (field : UInt32)
    (width : Nat) : t'.locate e field width = t.locate e field width := by
  simp only [locate, base, size_of_outline same, layout_of_outline same]

theorem cell_iff (t : Entities) (position : Nat) (c : Cell) :
    t.cell position = .ok c ↔ t.cells[position]? = some c := by
  unfold cell
  cases t.cells[position]? <;> simp

theorem get_iff (t : Entities) (e : EntityIndex) (field : UInt32) (c : Cell) :
    t.get e field = .ok c ↔ e.toNat < t.size ∧ field.toNat + 1 ≤ t.layout.fieldCount ∧
      t.cellOf? e.toNat field.toNat = some c := by
  simp only [get, Outcome.bind_ok_iff, locate_iff, cell_iff]
  constructor
  · rintro ⟨_, ⟨known, inside, rfl⟩, found⟩
    exact ⟨known, inside, found⟩
  · rintro ⟨known, inside, found⟩
    exact ⟨_, ⟨known, inside, rfl⟩, found⟩

theorem get3_iff (t : Entities) (e : EntityIndex) (field : UInt32) (cells : Array Cell) :
    t.get3 e field = .ok cells ↔ e.toNat < t.size ∧ field.toNat + 3 ≤ t.layout.fieldCount ∧
      cells.size = 3 ∧ ∀ i, i < 3 → t.cellOf? e.toNat (field.toNat + i) = cells[i]? := by
  simp only [get3, Outcome.bind_ok_iff, locate_iff, cell_iff, Outcome.pure_eq, Except.ok.injEq]
  constructor
  · rintro ⟨_, ⟨known, inside, rfl⟩, x, first, y, second, z, third, rfl⟩
    refine ⟨known, inside, rfl, fun i covered => ?_⟩
    match i, covered with
    | 0, _ => exact first
    | 1, _ => exact second
    | 2, _ => exact third
  · rintro ⟨known, inside, sized, same⟩
    refine ⟨_, ⟨known, inside, rfl⟩, cells[0], ?_, cells[1], ?_, cells[2], ?_, ?_⟩
    · exact (same 0 (by decide)).trans (Array.getElem?_eq_getElem _)
    · exact (same 1 (by decide)).trans (Array.getElem?_eq_getElem _)
    · exact (same 2 (by decide)).trans (Array.getElem?_eq_getElem _)
    · refine Array.ext (by exact sized.symm) fun i below _ => ?_
      match i, below with
      | 0, _ | 1, _ | 2, _ => rfl

end EntityMachine.Entities
