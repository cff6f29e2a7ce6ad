import EntityMachine.Proofs.Executions

/-!
Addresses of fields. An address packs a record and a field into one cell, and the arena lays the records out one
behind the other; through both, different fields of different records stay different cells. So what is stored
through an address is found by a load of the same field, and by no other load.
-/
namespace EntityMachine
open Machine Run

/-! ## Packing -/

namespace FieldAddress

theorem parts_toNat (a : FieldAddress) :
    a.entity.toNat = a.bits.toNat / 65536 ∧ a.field.toNat = a.bits.toNat % 65536 := by
  constructor
  · change (a.bits >>> 16).toNat = _
    rw [UInt32.toNat_shiftRight]
    exact Nat.shiftRight_eq_div_pow a.bits.toNat 16
  · change (a.bits &&& 0xffff).toNat = _
    rw [UInt32.toNat_and]
    exact Nat.and_two_pow_sub_one_eq_mod a.bits.toNat 16

theorem packed_toNat {e field : UInt32} (low : e.toNat < 65536) (short : field.toNat < 65536) :
    (e <<< 16 ||| field).toNat = e.toNat * 65536 + field.toNat := by
  have room : e.toNat * 65536 < 4294967296 := by omega
  rw [UInt32.toNat_or, UInt32.toNat_shiftLeft]
  change (e.toNat <<< 16) % 4294967296 ||| field.toNat = _
  rw [Nat.shiftLeft_eq, Nat.mod_eq_of_lt room, ← Nat.shiftLeft_eq e.toNat 16,
    ← Nat.shiftLeft_add_eq_or_of_lt short]

theorem encode?_iff {e : EntityIndex} {field : UInt32} {a : FieldAddress} :
    encode? e field = some a ↔ a.entity = e ∧ a.field = field := by
  obtain ⟨high, low⟩ := a.parts_toNat
  have bits : a.bits.toNat < 4294967296 := a.bits.toNat_lt
  have bound : (0xffff : UInt32).toNat = 65535 := rfl
  simp only [encode?, Option.ite_none_right_eq_some, Option.some.injEq, UInt32.le_iff_toNat_le, bound]
  constructor
  · rintro ⟨⟨narrow, short⟩, rfl⟩
    have packed : (e.index <<< 16 ||| field).toNat = e.toNat * 65536 + field.toNat :=
      packed_toNat (Nat.lt_succ_of_le narrow) (Nat.lt_succ_of_le short)
    rw [packed] at high low
    have unpacked : (e.toNat * 65536 + field.toNat) / 65536 = e.toNat ∧
        (e.toNat * 65536 + field.toNat) % 65536 = field.toNat := by omega
    exact ⟨congrArg EntityIndex.mk (UInt32.toNat_inj.mp (high.trans unpacked.1)),
      UInt32.toNat_inj.mp (low.trans unpacked.2)⟩
  · rintro ⟨rfl, rfl⟩
    have narrow : a.entity.toNat < 65536 := by omega
    have short : a.field.toNat < 65536 := by omega
    refine ⟨⟨Nat.le_of_lt_succ narrow, Nat.le_of_lt_succ short⟩, congrArg FieldAddress.mk ?_⟩
    refine UInt32.toNat_inj.mp ((packed_toNat narrow short).trans ?_)
    change a.entity.toNat * 65536 + a.field.toNat = a.bits.toNat
    omega

theorem encode?_parts (a : FieldAddress) : encode? a.entity a.field = some a := encode?_iff.mpr ⟨rfl, rfl⟩

theorem encode?_isSome (e : EntityIndex) (field : UInt32) :
    (encode? e field).isSome = true ↔ e.toNat ≤ 65535 ∧ field.toNat ≤ 65535 := by
  have bound : (0xffff : UInt32).toNat = 65535 := rfl
  simp only [encode?, UInt32.le_iff_toNat_le, bound]
  change (if e.toNat ≤ 65535 ∧ field.toNat ≤ 65535 then some _ else none).isSome = true ↔ _
  split <;> simp [*]

end FieldAddress

/-! ## Loading and storing -/

namespace Machine
variable {m m' : Machine}

theorem loadField_iff (m : Machine) (kind : Kind) (e : EntityIndex) (field : UInt32) (cells : Array Cell) :
    m.loadField kind e field = .ok cells ↔ e.toNat < m.entities.size ∧
      field.toNat + kind.width ≤ m.entities.layout.fieldCount ∧ cells.size = kind.width ∧
        ∀ i, i < kind.width → m.entities.cellOf? e.toNat (field.toNat + i) = cells[i]? := by
  unfold loadField
  split
  · rename_i wide
    rw [wide]
    exact m.entities.get3_iff e field cells
  · rename_i thin
    have narrow : kind.width = 1 := by cases kind <;> first | rfl | exact absurd rfl thin
    simp only [narrow, Outcome.bind_ok_iff, Entities.get_iff, Outcome.pure_eq, Except.ok.injEq]
    constructor
    · rintro ⟨c, ⟨known, inside, found⟩, rfl⟩
      refine ⟨known, inside, rfl, fun i covered => ?_⟩
      obtain rfl : i = 0 := Nat.lt_one_iff.mp covered
      exact found
    · rintro ⟨known, inside, sized, same⟩
      obtain ⟨c, rfl⟩ := Array.size_eq_one_iff.mp sized
      exact ⟨c, ⟨known, inside, same 0 Nat.one_pos⟩, rfl⟩

theorem loadField_error {kind : Kind} {e : EntityIndex} {field : UInt32} {stop : Stop}
    (lost : m.entities.locate e field kind.width = .error stop) : m.loadField kind e field = .error stop := by
  unfold loadField
  split
  · rename_i wide
    rw [wide] at lost
    rw [Entities.get3, lost]
    rfl
  · rename_i thin
    have narrow : kind.width = 1 := by cases kind <;> first | rfl | exact absurd rfl thin
    rw [narrow] at lost
    rw [Entities.get, lost]
    rfl

theorem loadField_reads {kind : Kind} {e : EntityIndex} {field : UInt32} (well : m.entities.WellFormed)
    (known : e.toNat < m.entities.size)
    (inside : field.toNat + kind.width ≤ m.entities.layout.fieldCount) :
    ∃ cells, m.loadField kind e field = .ok cells := by
  have record := well.record_inside (Nat.lt_of_lt_of_le known well.room)
  let start := e.toNat * m.entities.layout.fieldCount + field.toNat
  have row : (Segment.mk m.entities.cells).slice? start (start + kind.width) =
      some (m.entities.cells.extract start (start + kind.width)) :=
    if_pos ⟨Nat.le_add_right _ _, show start + kind.width ≤ m.entities.cells.size by omega⟩
  obtain ⟨-, -, extent, same⟩ := (Segment.slice_iff _ _ _ _).mp row
  rw [Nat.add_sub_cancel_left] at extent same
  refine ⟨_, (loadField_iff m kind e field _).mpr ⟨known, inside, extent, fun i covered => ?_⟩⟩
  rw [same i covered, Entities.cellOf?, ← Nat.add_assoc]
  rfl

theorem loadField_same {kind : Kind} {e : EntityIndex} {field : UInt32} (well : m.entities.WellFormed)
    (outline : m'.entities.outline = m.entities.outline)
    (same : ∀ i, i < kind.width → field.toNat + i < m.entities.layout.fieldCount →
      m'.entities.cellOf? e.toNat (field.toNat + i) = m.entities.cellOf? e.toNat (field.toNat + i)) :
    m'.loadField kind e field = m.loadField kind e field := by
  have found := Entities.locate_outline outline e field kind.width
  cases located : m.entities.locate e field kind.width with
  | error stop => rw [loadField_error located, loadField_error (found.trans located)]
  | ok position =>
      obtain ⟨known, inside, -⟩ := (Entities.locate_iff _ _ _ _ _).mp located
      obtain ⟨known', inside', -⟩ := (Entities.locate_iff _ _ _ _ _).mp (found.trans located)
      obtain ⟨cells, read⟩ := loadField_reads well known inside
      obtain ⟨-, -, sized, held⟩ := (loadField_iff m kind e field cells).mp read
      rw [read, loadField_iff]
      exact ⟨known', inside', sized, fun i covered => (same i covered (by omega)).trans (held i covered)⟩

/-! ## Storing through an address -/

/-- Cells were stored in a record from a field on: every load inside the place reads them, and every load
that reads none of them comes to what it came to before. -/
structure Stored (m : Machine) (e : EntityIndex) (field : UInt32) (cells : Array Cell) (m' : Machine) :
    Prop where
  found : ∀ (kind : Kind) (inner : UInt32), field ≤ inner →
    inner.toNat + kind.width ≤ field.toNat + cells.size →
      m'.loadField kind e inner = .ok (cells.extract (inner.toNat - field.toNat)
        (inner.toNat - field.toNat + kind.width))
  others : ∀ (kind : Kind) (e' : EntityIndex) (field' : UInt32),
    (e' ≠ e ∨ field'.toNat + kind.width ≤ field.toNat ∨ field.toNat + cells.size ≤ field'.toNat) →
      m'.loadField kind e' field' = m.loadField kind e' field'

theorem writeFields_known (well : m.entities.WellFormed) {e : EntityIndex} {field : UInt32}
    {cells : Array Cell} (known : e.toNat < m.entities.size)
    (inside : field.toNat + cells.size ≤ m.entities.layout.fieldCount) :
    ∃ t, writeFields e field cells m = (.ok (), { m with entities := t }) ∧
      t.outline = m.entities.outline ∧ ∀ j k, k < m.entities.layout.fieldCount →
        t.cellOf? j k = if j = e.toNat ∧ field.toNat ≤ k ∧ k < field.toNat + cells.size then
          cells[k - field.toNat]? else m.entities.cellOf? j k := by
  have located := (Entities.locate_iff m.entities e field cells.size _).mpr ⟨known, inside, rfl⟩
  have held : m.entities.holds (m.entities.base e + field.toNat) cells.size = true :=
    decide_eq_true (well.located_inside located)
  refine ⟨_, ?_, m.entities.overwrite_outline _ _, fun j k low =>
    Entities.overwrite_cellOf? well cells (Nat.lt_of_lt_of_le known well.room) inside low⟩
  rw [writeFields_apply, located]
  exact if_pos held

theorem writeFields_stored (well : m.entities.WellFormed) {e : EntityIndex} {field : UInt32}
    {cells : Array Cell} (known : e.toNat < m.entities.size)
    (inside : field.toNat + cells.size ≤ m.entities.layout.fieldCount) :
    ∃ m', writeFields e field cells m = (.ok (), m') ∧ m.Stored e field cells m' := by
  obtain ⟨t, wrote, outline, cell⟩ := writeFields_known well known inside
  have layout := Entities.layout_of_outline outline
  have size := Entities.size_of_outline outline
  refine ⟨_, wrote, fun kind inner after ends => ?_, fun kind e' field' apart => ?_⟩
  · have after := UInt32.le_iff_toNat_le.mp after
    have extent : (cells.extract (inner.toNat - field.toNat)
        (inner.toNat - field.toNat + kind.width)).size = kind.width := by
      rw [Array.size_extract_of_le (by omega), Nat.add_sub_cancel_left]
    refine (loadField_iff { m with entities := t } kind e inner _).mpr
      ⟨size.symm ▸ known, layout.symm ▸ Nat.le_trans ends inside, extent, fun i covered => ?_⟩
    rw [cell _ _ (by omega), if_pos ⟨rfl, by omega, by omega⟩, Array.getElem?_extract, if_pos (by omega)]
    congr 1
    omega
  · refine loadField_same well outline fun i covered low => ?_
    rw [cell _ _ low, if_neg]
    rintro ⟨same, from_here, to_here⟩
    have record : e' = e := congrArg EntityIndex.mk (UInt32.toNat_inj.mp same)
    rcases apart with other | before | behind
    · exact other record
    · omega
    · omega

/-! ## Addresses of fields -/

theorem fieldAddress_iff (m : Machine) (e : EntityIndex) (field : UInt32) (a : FieldAddress) :
    m.fieldAddress e field = .ok a ↔ ¬ (m.active = true ∧ e = .world) ∧ e.toNat < m.entities.size ∧
      field.toNat < m.entities.layout.fieldCount ∧ FieldAddress.encode? e field = some a := by
  have guard : (e.isWorld && m.active) = true ↔ m.active = true ∧ e = .world := by
    rw [Bool.and_eq_true, and_comm, EntityIndex.isWorld, beq_iff_eq]
    exact and_congr_right fun _ => ⟨congrArg EntityIndex.mk, congrArg EntityIndex.index⟩
  simp only [fieldAddress, guard]
  by_cases guarded : m.active = true ∧ e = .world
  · simp [guarded, Outcome.fail]
  · by_cases unknown : m.entities.size ≤ e.toNat
    · simp [guarded, unknown, Outcome.fail, Nat.not_lt.mpr unknown]
    · by_cases outside : m.entities.layout.fieldCount ≤ field.toNat
      · simp [guarded, unknown, outside, Outcome.fail, Nat.not_lt.mpr outside]
      · cases FieldAddress.encode? e field <;>
          simp [guarded, unknown, outside, Outcome.fail, Nat.lt_of_not_le unknown, Nat.lt_of_not_le outside]

theorem crossing_refused {m : Machine} {e : EntityIndex} {field : UInt32} (known : e.toNat < m.entities.size)
    (kind : Kind) (crossing : m.entities.layout.fieldCount < field.toNat + kind.width) :
    m.loadField kind e field = .fail (.badField field) ∧ ∀ cells : Array Cell, cells.size = kind.width →
      writeFields e field cells m = (Outcome.fail (.badField field), m) := by
  have lost := Entities.locate_crossing known crossing
  refine ⟨loadField_error lost, fun cells sized => ?_⟩
  rw [writeFields_apply, sized, lost]
  rfl

/-- The field of a record and its address name the same cells, and no others. -/
structure NamesCells (m : Machine) (e : EntityIndex) (field : UInt32) : Prop where
  accepted : (∃ a, m.fieldAddress e field = .ok a) ↔ e.toNat < m.entities.size ∧
    field.toNat < m.entities.layout.fieldCount ∧ field.toNat ≤ 65535 ∧ ¬ (m.active = true ∧ e = .world)
  unpacked : ∀ a, m.fieldAddress e field = .ok a → a.entity = e ∧ a.field = field
  stored : ∀ (a : FieldAddress) (kind : Kind) (cells : Array Cell), a.entity = e → a.field = field →
    e.toNat < m.entities.size → cells.size = kind.width →
      field.toNat + kind.width ≤ m.entities.layout.fieldCount →
        ∃ m', writeFields a.entity a.field cells m = (.ok (), m') ∧
          m'.loadField kind e field = .ok cells ∧ m.Stored e field cells m'
  crossing : ∀ kind : Kind, e.toNat < m.entities.size →
    m.entities.layout.fieldCount < field.toNat + kind.width →
      m.loadField kind e field = .fail (.badField field) ∧
        ∀ (a : FieldAddress) (cells : Array Cell), a.entity = e → a.field = field →
          cells.size = kind.width →
            writeFields a.entity a.field cells m = (Outcome.fail (.badField field), m)

/-- Each field of each record that sixteen bits can name has an address, the world's apart while the machine is
active. What is stored through it is what loads of the field find, and no other load notices. Every pattern is
an address. -/
theorem addresses_name_cells {m : Machine} (well : m.entities.WellFormed) :
    (∀ e field, m.NamesCells e field) ∧
      ∀ a : FieldAddress, FieldAddress.encode? a.entity a.field = some a := by
  refine ⟨fun e field => ⟨?_, fun a given => ?_, ?_, ?_⟩, FieldAddress.encode?_parts⟩
  · have encodes := FieldAddress.encode?_isSome e field
    rw [Option.isSome_iff_exists] at encodes
    simp only [fieldAddress_iff]
    constructor
    · rintro ⟨a, unguarded, known, inside, encoded⟩
      exact ⟨known, inside, (encodes.mp ⟨a, encoded⟩).2, unguarded⟩
    · rintro ⟨known, inside, short, unguarded⟩
      have cap : m.entities.capacity ≤ 65536 := well.addressable
      have room : m.entities.size ≤ m.entities.capacity := well.room
      obtain ⟨a, encoded⟩ := encodes.mpr ⟨by omega, short⟩
      exact ⟨a, unguarded, known, inside, encoded⟩
  · exact FieldAddress.encode?_iff.mp ((fieldAddress_iff m e field a).mp given).2.2.2
  · rintro a kind cells rfl rfl known sized inside
    obtain ⟨m', wrote, stored⟩ := writeFields_stored well known (by rwa [sized])
    refine ⟨m', wrote, ?_, stored⟩
    have found := stored.found kind a.field (UInt32.le_refl _) (Nat.le_of_eq (by rw [sized]))
    rwa [Nat.sub_self, Nat.zero_add, ← sized, Array.extract_size] at found
  · intro kind known crossing
    obtain ⟨loading, storing⟩ := crossing_refused known kind crossing
    refine ⟨loading, ?_⟩
    rintro a cells rfl rfl sized
    exact storing cells sized

def fielded : Program where
  image := { functions := #[{}], globals := Array.replicate 28 ⟨0⟩, entityFields := 4 }
  globals := {}
  fields := {}
  sound := by decide +kernel
  globals_eq := show _ = Image.systemGlobals _ from rfl
  fields_eq := show _ = Image.systemFields _ from rfl

/-- A vector that ends with its record is stored and found, and the record behind it does not notice. One that
would go on in the next record is refused. -/
theorem addresses_name_cells_fielded :
    let m := create fielded { entities := { reserved := 3 } }
    m.entities.WellFormed ∧ ∃ a m', m.fieldAddress ⟨1⟩ 1 = .ok a ∧
      writeFields a.entity a.field #[⟨7⟩, ⟨8⟩, ⟨9⟩] m = (.ok (), m') ∧
        m'.loadField .vector ⟨1⟩ 1 = .ok #[⟨7⟩, ⟨8⟩, ⟨9⟩] ∧
          m'.loadField .vector ⟨2⟩ 0 = m.loadField .vector ⟨2⟩ 0 ∧
            m.loadField .vector ⟨1⟩ 2 = .fail (.badField 2) := by
  intro m
  have well : m.entities.WellFormed := Entities.create_wellFormed _ _
  have law := (addresses_name_cells well).1
  obtain ⟨a, given⟩ := (law ⟨1⟩ 1).accepted.mpr (by decide +kernel)
  obtain ⟨record, field⟩ := (law ⟨1⟩ 1).unpacked a given
  obtain ⟨m', wrote, found, stored⟩ := (law ⟨1⟩ 1).stored a .vector #[⟨7⟩, ⟨8⟩, ⟨9⟩] record field
    (by decide +kernel) rfl (by decide +kernel)
  exact ⟨well, a, m', given, wrote, found, stored.others .vector ⟨2⟩ 0 (.inl (by decide)),
    ((law ⟨1⟩ 2).crossing .vector (by decide +kernel) (by decide +kernel)).1⟩

end Machine
end EntityMachine
