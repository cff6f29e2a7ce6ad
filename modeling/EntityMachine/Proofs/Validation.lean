import EntityMachine.Program

/-!
What the checks on an image promise. The checks report the first defect; a valid image is described here
row by row, without the order of the checks, and an image has no defect exactly if it is valid.
-/
namespace EntityMachine

/-- The cells that an operand names lie in the segment. -/
def Operand.Fits (operand : Operand) (segment : Nat) (value : UInt16) : Prop :=
  ∀ width, operand = .global width → value.toNat + width ≤ segment

/-- The operands of a statement with this opcode lie in the segment. -/
structure Statement.Fits (s : Statement) (op : Opcode) (segment : Nat) : Prop where
  a : op.operands.1.Fits segment s.a
  b : op.operands.2.1.Fits segment s.b
  c : op.operands.2.2.Fits segment s.c

/-- A call of the function stays in the statements and the segment. -/
structure Function.Fits (f : Function) (statements segment : Nat) : Prop where
  first : f.nativeNumber? = none → f.first < statements
  locals : f.localsEnd ≤ segment
  parameters : f.numParms.toNat ≤ Slot.maxParameters
  sizes : ∀ size ∈ f.parmSizes.toList, size ≤ 3
  filled : f.nativeNumber? = none → f.declaredCells ≤ f.locals.toNat

structure Image.Valid (image : Image) : Prop where
  segment : Slot.reserved ≤ image.globals.size
  table : image.functions ≠ #[]
  statements : ∀ (i : Nat) s op, image.statements[i]? = some s → s.opcode? = some op →
    s.Fits op image.globals.size
  functions : ∀ (i : Nat) f, 1 ≤ i → image.functions[i]? = some f →
    f.Fits image.statements.size image.globals.size
  globals : ∀ d ∈ image.globalDefs, d.offset.toNat + d.type.width ≤ image.globals.size
  fields : ∀ d ∈ image.fieldDefs, d.offset.toNat + d.type.width ≤ image.entityFields

theorem Operand.outside_iff (operand : Operand) (segment : Nat) (value : UInt16) :
    operand.outside segment value = false ↔ operand.Fits segment value := by
  cases operand <;> simp [outside, Fits]

theorem Function.isNative_iff (f : Function) : f.isNative = false ↔ f.nativeNumber? = none := by
  simp [isNative, nativeNumber?]

theorem check_none_iff {found : Prop} [Decidable found] (d : α) (rest : Option α) :
    (if found then some d else rest) = none ↔ ¬ found ∧ rest = none := by
  split <;> simp [*]

theorem Statement.outside?_iff (s : Statement) (op : Opcode) (segment : Nat) :
    s.outside? op segment = none ↔ s.Fits op segment := by
  have fits : s.Fits op segment ↔ op.operands.1.outside segment s.a = false ∧
      op.operands.2.1.outside segment s.b = false ∧ op.operands.2.2.outside segment s.c = false := by
    simp only [Operand.outside_iff]
    exact ⟨fun fits => ⟨fits.a, fits.b, fits.c⟩, fun ⟨a, b, c⟩ => ⟨a, b, c⟩⟩
  rw [fits, outside?]
  simp [check_none_iff]

theorem Function.defect?_iff (f : Function) (index statements segment : Nat) :
    f.defect? index statements segment = none ↔ f.Fits statements segment := by
  have fits : f.Fits statements segment ↔ (f.isNative = false → f.first < statements) ∧
      f.localsEnd ≤ segment ∧ f.numParms.toNat ≤ Slot.maxParameters ∧
      (∀ size ∈ f.parmSizes.toList, size ≤ 3) ∧
      (f.isNative = false → f.declaredCells ≤ f.locals.toNat) := by
    rw [isNative_iff]
    exact ⟨fun fits => ⟨fits.first, fits.locals, fits.parameters, fits.sizes, fits.filled⟩,
      fun ⟨first, locals, parameters, sizes, filled⟩ => ⟨first, locals, parameters, sizes, filled⟩⟩
  have sizes : f.parmSizes.toList.any (fun size => decide (3 < size)) = true ↔
      ¬ ∀ size ∈ f.parmSizes.toList, size ≤ 3 := by
    simp only [List.any_eq_true, decide_eq_true_eq, Classical.not_forall, UInt8.not_le, exists_prop]
  rw [fits, defect?]
  simp only [check_none_iff, Bool.or_eq_true, Bool.and_eq_true, sizes]
  cases f.isNative <;> simp

namespace Image
variable (image : Image)

theorem tableDefect?_iff :
    image.tableDefect? = none ↔ Slot.reserved ≤ image.globals.size ∧ image.functions ≠ #[] := by
  simp [tableDefect?, check_none_iff]

theorem statementDefect?_iff :
    image.statementDefect? = none ↔ ∀ (i : Nat) s op, image.statements[i]? = some s →
      s.opcode? = some op → s.Fits op image.globals.size := by
  have single (s : Statement) (i segment : Nat) : s.defect? i segment = none ↔
      ∀ op, s.opcode? = some op → s.Fits op segment := by
    unfold Statement.defect?
    cases s.opcode? with
    | none => simp
    | some op => simp [Statement.outside?_iff]
  simp only [statementDefect?, List.findSome?_eq_none_iff, Prod.forall, single,
    List.mk_mem_zipIdx_iff_getElem?, Array.getElem?_toList]
  exact ⟨fun fits i s op found known => fits s i found op known,
    fun fits s i found op known => fits i s op found known⟩

theorem functionDefect?_iff :
    image.functionDefect? = none ↔ ∀ (i : Nat) f, 1 ≤ i → image.functions[i]? = some f →
      f.Fits image.statements.size image.globals.size := by
  -- The first row of the table stands for no function and is not checked.
  have rows (i : Nat) (f : Function) : (f, i) ∈ image.functions.toList.zipIdx.drop 1 ↔
      1 ≤ i ∧ image.functions[i]? = some f := by
    simp only [List.mem_iff_getElem?, List.getElem?_drop, List.getElem?_zipIdx,
      Array.getElem?_toList, Option.map_eq_some_iff, Prod.mk.injEq]
    constructor
    · rintro ⟨n, g, found, rfl, rfl⟩
      exact ⟨by omega, by simpa using found⟩
    · rintro ⟨later, found⟩
      exact ⟨i - 1, f, by rwa [Nat.add_sub_cancel' later], rfl, by omega⟩
  simp only [functionDefect?, List.findSome?_eq_none_iff, Prod.forall, Function.defect?_iff, rows]
  exact ⟨fun fits i f later found => fits f i ⟨later, found⟩,
    fun fits f i ⟨later, found⟩ => fits i f later found⟩

theorem globalDefect?_iff :
    image.globalDefect? = none ↔
      ∀ d ∈ image.globalDefs, d.offset.toNat + d.type.width ≤ image.globals.size := by
  simp [globalDefect?]

theorem fieldDefect?_iff :
    image.fieldDefect? = none ↔
      ∀ d ∈ image.fieldDefs, d.offset.toNat + d.type.width ≤ image.entityFields := by
  simp [fieldDefect?]

theorem defect?_none_iff : image.defect? = none ↔ image.Valid := by
  have checks : image.defect? = none ↔ image.tableDefect? = none ∧ image.statementDefect? = none ∧
      image.functionDefect? = none ∧ image.globalDefect? = none ∧ image.fieldDefect? = none := by
    simp [defect?]
  rw [checks, tableDefect?_iff, statementDefect?_iff, functionDefect?_iff, globalDefect?_iff,
    fieldDefect?_iff]
  constructor
  · rintro ⟨⟨segment, table⟩, statements, functions, globals, fields⟩
    exact ⟨segment, table, statements, functions, globals, fields⟩
  · intro valid
    exact ⟨⟨valid.segment, valid.table⟩, valid.statements, valid.functions, valid.globals, valid.fields⟩

theorem findGlobal?_fits {image : Image} {name : String} {offset : UInt16} (valid : image.Valid)
    (found : (image.findGlobal? name).map (·.offset) = some offset) :
    offset.toNat < image.globals.size := by
  obtain ⟨d, declared, rfl⟩ := Option.map_eq_some_iff.mp found
  have fits := valid.globals d (Array.mem_of_find?_eq_some declared)
  have wide : 0 < d.type.width := by cases d.type <;> decide
  omega

theorem findField?_fits {image : Image} {name : String} {offset : UInt16} (valid : image.Valid)
    (found : (image.findField? name).map (·.offset) = some offset) :
    offset.toNat < image.entityFields := by
  obtain ⟨d, declared, rfl⟩ := Option.map_eq_some_iff.mp found
  have fits := valid.fields d (Array.mem_of_find?_eq_some declared)
  have wide : 0 < d.type.width := by cases d.type <;> decide
  omega

end Image

namespace Program
variable (p : Program)

theorem valid : p.image.Valid := p.image.defect?_none_iff.mp p.sound

theorem time_fits {offset : UInt16} (placed : p.globals.time = some offset) :
    offset.toNat < p.image.globals.size := by
  rw [p.globals_eq] at placed
  exact Image.findGlobal?_fits p.valid placed

theorem self_fits {offset : UInt16} (placed : p.globals.self = some offset) :
    offset.toNat < p.image.globals.size := by
  rw [p.globals_eq] at placed
  exact Image.findGlobal?_fits p.valid placed

theorem other_fits {offset : UInt16} (placed : p.globals.other = some offset) :
    offset.toNat < p.image.globals.size := by
  rw [p.globals_eq] at placed
  exact Image.findGlobal?_fits p.valid placed

theorem fields_fit {offset : UInt16} (named : some offset ∈ p.fields.toList) :
    offset.toNat < p.image.entityFields := by
  have listed : p.fields.toList =
      SystemFields.names.map fun name => (p.image.findField? name).map (·.offset) := by
    rw [p.fields_eq]
    rfl
  rw [listed, List.mem_map] at named
  obtain ⟨name, -, found⟩ := named
  exact Image.findField?_fits p.valid found

theorem function_fits {id : FunctionId} {f : Function} (found : p.function id = .ok f) :
    id.toNat < p.image.functions.size ∧ f.Fits p.image.statements.size p.image.globals.size := by
  unfold function at found
  split at found
  · cases found
  · rename_i named
    have later : 1 ≤ id.toNat := by
      have nonzero : id.index ≠ 0 := by simpa [FunctionId.isNull] using named
      have positive : id.index.toNat ≠ 0 := fun zero => nonzero (UInt32.toNat_inj.mp zero)
      exact Nat.one_le_iff_ne_zero.mpr positive
    split at found
    · rename_i row
      cases found
      obtain ⟨inside, -⟩ := Array.getElem?_eq_some_iff.mp row
      exact ⟨inside, p.valid.functions id.toNat _ later row⟩
    · cases found

end Program
end EntityMachine
