import EntityMachine.Proofs.Records
import EntityMachine.Proofs.Transfers
import EntityMachine.Proofs.Validation
import Mathlib.Algebra.GroupWithZero.Nat

/-!
Operations on a sound machine. The segment, the records and the profile of a sound machine have the
sizes that its program was checked against. No operation changes a size, so a machine stays sound; and
what an operation may stop with depends on soundness alone: a sound machine never faults.
-/
namespace EntityMachine

def Cause.isUnderflow : Cause → Bool
  | .callUnderflow | .localsUnderflow => true
  | _ => false

namespace Machine
open Run

/-- The sizes are those that the program was checked against. -/
structure Sound (m : Machine) : Prop where
  segment : m.globals.size = m.program.image.globals.size
  layout : m.entities.layout = m.program.layout
  entities : m.entities.WellFormed
  profile : m.profile.size = m.program.image.functions.size

/-- All that soundness depends on. -/
structure Shape where
  program : Program
  segment : Nat
  entities : Entities.Outline
  profile : Nat

def shape (m : Machine) : Shape := ⟨m.program, m.globals.size, m.entities.outline, m.profile.size⟩

theorem shape_of_globals (m : Machine) {globals : Segment} (same : globals.size = m.globals.size) :
    ({ m with globals } : Machine).shape = m.shape :=
  congrArg (Shape.mk m.program · m.entities.outline m.profile.size) same

theorem shape_of_entities (m : Machine) {entities : Entities}
    (same : entities.outline = m.entities.outline) : ({ m with entities } : Machine).shape = m.shape :=
  congrArg (Shape.mk m.program m.globals.size · m.profile.size) same

theorem Sound.of_shape {m m' : Machine} (sound : m.Sound) (same : m'.shape = m.shape) : m'.Sound := by
  have program : m'.program = m.program := congrArg Shape.program same
  have segment : m'.globals.size = m.globals.size := congrArg Shape.segment same
  have entities : m'.entities.outline = m.entities.outline := congrArg Shape.entities same
  have profile : m'.profile.size = m.profile.size := congrArg Shape.profile same
  constructor
  · rw [segment, program, sound.segment]
  · rw [show m'.entities.layout = _ from congrArg Entities.Outline.layout entities, program]
    exact sound.layout
  · exact sound.entities.of_outline entities
  · rw [profile, program, sound.profile]

theorem create_sound (program : Program) (config : MachineConfig) : (create program config).Sound where
  segment := rfl
  layout := rfl
  entities := Entities.create_wellFormed _ _
  profile := Array.size_replicate

/-- What an operation of the machine itself may stop with: no underflow, and a fault only where the
machine is not sound. -/
def MayStop (m : Machine) : Stop → Prop
  | .error e => e.cause.isUnderflow = false
  | .fault => ¬ m.Sound
  | .nestedTooDeep => False

theorem mayStop_of_shape {m m' : Machine} (same : m'.shape = m.shape) {stop : Stop}
    (may : m'.MayStop stop) : m.MayStop stop := by
  cases stop with
  | error e => exact may
  | fault => exact fun sound => may (sound.of_shape same)
  | nestedTooDeep => exact may

/-! ## Reading -/

section Reading
variable (m : Machine)

theorem cell_meets {offset : Nat} {fine : Cell → Prop} (inside : m.Sound → offset + 1 ≤ m.globals.size)
    (any : ∀ c, fine c) : Outcome.Meets m.MayStop fine (m.cell offset) := by
  unfold cell
  cases found : m.globals.get? offset with
  | some c => exact any c
  | none =>
      intro sound
      have past : m.globals.size ≤ offset := Array.getElem?_eq_none_iff.mp found
      exact absurd (inside sound) (Nat.not_le.mpr (Nat.lt_succ_of_le past))

theorem single_meets {offset : Nat} {fine : Single → Prop}
    (inside : m.Sound → offset + 1 ≤ m.globals.size) (any : ∀ x, fine x) :
    Outcome.Meets m.MayStop fine (m.single offset) := by
  have same : m.single offset = (m.cell offset).map Cell.single := by
    simp only [single, cell, Segment.single?]
    cases m.globals.get? offset <;> rfl
  rw [same, Outcome.meets_map]
  exact m.cell_meets inside fun c => any c.single

theorem vector_meets {offset : Nat} {fine : Vec3 → Prop}
    (inside : m.Sound → offset + 3 ≤ m.globals.size) (any : ∀ v, fine v) :
    Outcome.Meets m.MayStop fine (m.vector offset) := by
  have same : m.vector offset = (do
      let x ← m.single offset
      let y ← m.single (offset + 1)
      return ⟨x, y, ← m.single (offset + 2)⟩) := by
    simp only [vector, single, Segment.vector?]
    cases m.globals.single? offset with
    | none => rfl
    | some x =>
        cases m.globals.single? (offset + 1) with
        | none => rfl
        | some y => cases m.globals.single? (offset + 2) <;> rfl
  simp only [same, Outcome.meets_bind]
  refine m.single_meets (fun sound => ?_) fun x => m.single_meets (fun sound => ?_) fun y =>
    m.single_meets (fun sound => inside sound) fun z => any ⟨x, y, z⟩
  all_goals
    have := inside sound
    omega

theorem slice_meets {first last : Nat} {fine : Array Cell → Prop} (ordered : first ≤ last)
    (inside : m.Sound → last ≤ m.globals.size) (sized : ∀ cells, cells.size = last - first → fine cells) :
    Outcome.Meets m.MayStop fine (m.slice first last) := by
  unfold slice
  cases found : m.globals.slice? first last with
  | some cells => exact sized cells (Segment.slice_size found)
  | none =>
      intro sound
      rw [Segment.slice?, if_pos ⟨ordered, inside sound⟩] at found
      cases found

theorem locate_meets {e : EntityIndex} {field : UInt32} {width : Nat} {fine : Nat → Prop}
    (found : ∀ position, (m.Sound → position + width ≤ m.entities.cells.size) → fine position) :
    Outcome.Meets m.MayStop fine (m.entities.locate e field width) := by
  cases located : m.entities.locate e field width with
  | ok position =>
      exact found position fun sound => sound.entities.located_inside located
  | error stop =>
      unfold Entities.locate at located
      split at located
      · cases located
        rfl
      · split at located
        · cases located
          rfl
        · cases located

theorem field_meets {position : Nat} {fine : Cell → Prop}
    (inside : m.Sound → position + 1 ≤ m.entities.cells.size) (any : ∀ c, fine c) :
    Outcome.Meets m.MayStop fine (m.entities.cell position) := by
  unfold Entities.cell
  cases found : m.entities.cells[position]? with
  | some c => exact any c
  | none =>
      intro sound
      have past := Array.getElem?_eq_none_iff.mp found
      exact absurd (inside sound) (Nat.not_le.mpr (Nat.lt_succ_of_le past))

theorem loadField_meets {kind : Kind} {e : EntityIndex} {field : UInt32} {fine : Array Cell → Prop}
    (sized : ∀ cells, cells.size = kind.width → fine cells) :
    Outcome.Meets m.MayStop fine (m.loadField kind e field) := by
  unfold loadField
  -- A vector is read a cell at a time, yet its place was checked for all three.
  by_cases wide : kind.width = 3
  · rw [if_pos wide]
    simp only [Entities.get3, Outcome.meets_bind]
    apply m.locate_meets
    intro position inside
    refine m.field_meets (fun sound => ?_) fun x => m.field_meets (fun sound => ?_) fun y =>
      m.field_meets (fun sound => inside sound) fun z => sized _ wide.symm
    all_goals
      have := inside sound
      omega
  · have narrow : kind.width = 1 := by cases kind <;> first | rfl | exact absurd rfl wide
    rw [if_neg wide]
    simp only [Entities.get, Outcome.meets_bind]
    exact m.locate_meets fun position inside => m.field_meets inside fun x => sized _ narrow.symm

theorem fieldAddress_meets {e : EntityIndex} {field : UInt32} {fine : FieldAddress → Prop}
    (any : ∀ address, fine address) : Outcome.Meets m.MayStop fine (m.fieldAddress e field) := by
  unfold fieldAddress
  repeat' split
  all_goals first
    | rfl
    | exact any _

theorem selfEntity_meets {fine : EntityIndex → Prop} (any : ∀ e, fine e) :
    Outcome.Meets m.MayStop fine m.selfEntity := by
  unfold selfEntity
  split
  · rename_i offset placed
    rw [Outcome.meets_map]
    exact m.cell_meets (fun sound => sound.segment ▸ m.program.self_fits placed) fun c => any c.entity
  · exact any _

theorem time_meets {fine : Single → Prop} (any : ∀ now, fine now) :
    Outcome.Meets m.MayStop fine m.time := by
  unfold time
  split
  · rename_i offset placed
    exact m.single_meets (fun sound => sound.segment ▸ m.program.time_fits placed) any
  · exact any _

theorem function_stops (id : FunctionId) : Outcome.Stops m.MayStop (m.program.function id) := by
  unfold Program.function
  repeat' split
  all_goals first
    | rfl
    | exact trivial

theorem lookup_stops (natives : Natives) (number : Nat) :
    Outcome.Stops m.MayStop (natives.lookup number) := by
  unfold Natives.lookup
  split
  · exact trivial
  · rfl

end Reading

/-! ## Effects -/

/-- The cells that an effect reads or writes of the segment lie in it. -/
def Fits (m : Machine) : Effect → Prop
  | .write offset cells => offset + cells.size ≤ m.globals.size
  | .finish offset => offset + 1 ≤ m.globals.size
  | .writeField .. | .jump .. | .call .. | .schedule .. => True

section Effects
variable (m : Machine) {a b c : Nat} {fine : Effect → Prop}

theorem combine_meets (f : Single → Single → Single) (left : m.Sound → a + 1 ≤ m.globals.size)
    (right : m.Sound → b + 1 ≤ m.globals.size) (sized : ∀ x : Cell, fine (.write c #[x])) :
    Outcome.Meets m.MayStop fine (m.combine f a b c) := by
  simp only [combine, Outcome.meets_bind]
  exact m.single_meets left fun x => m.single_meets right fun y => sized _

theorem combineVectors_meets (f : Vec3 → Vec3 → Vec3) (left : m.Sound → a + 3 ≤ m.globals.size)
    (right : m.Sound → b + 3 ≤ m.globals.size) (sized : ∀ v : Vec3, fine (.write c v.cells)) :
    Outcome.Meets m.MayStop fine (m.combineVectors f a b c) := by
  simp only [combineVectors, Outcome.meets_bind]
  exact m.vector_meets left fun x => m.vector_meets right fun y => sized _

theorem test_meets (f : Single → Single → Bool) (left : m.Sound → a + 1 ≤ m.globals.size)
    (right : m.Sound → b + 1 ≤ m.globals.size) (sized : ∀ x : Cell, fine (.write c #[x])) :
    Outcome.Meets m.MayStop fine (m.test f a b c) := by
  simp only [test, Outcome.meets_bind]
  exact m.single_meets left fun x => m.single_meets right fun y => sized _

theorem areEqual_meets {kind : Comparand} {fine : Bool → Prop}
    (left : m.Sound → a + kind.width ≤ m.globals.size)
    (right : m.Sound → b + kind.width ≤ m.globals.size) (any : ∀ equal, fine equal) :
    Outcome.Meets m.MayStop fine (m.areEqual kind a b) := by
  cases kind with
  | float =>
      simp only [areEqual, Outcome.meets_bind]
      exact m.single_meets left fun x => m.single_meets right fun y => any _
  | vector =>
      simp only [areEqual, Outcome.meets_bind]
      exact m.vector_meets left fun v => m.vector_meets right fun w => any _
  | string | entity | function =>
      simp only [areEqual, Outcome.meets_bind]
      exact m.cell_meets left fun x => m.cell_meets right fun y => any _

theorem isNothing_meets {kind : Comparand} {fine : Bool → Prop}
    (inside : m.Sound → a + kind.width ≤ m.globals.size) (any : ∀ nothing, fine nothing) :
    Outcome.Meets m.MayStop fine (m.isNothing kind a) := by
  cases kind with
  | float =>
      simp only [isNothing, Outcome.meets_bind]
      exact m.single_meets inside fun x => any _
  | vector =>
      simp only [isNothing, Outcome.meets_bind]
      exact m.vector_meets inside fun v => any _
  | string | entity | function =>
      simp only [isNothing, Outcome.meets_bind]
      exact m.cell_meets inside fun x => any _

theorem effect_meets {op : Opcode} {s : Statement} (fits : m.Sound → s.Fits op m.globals.size) :
    Outcome.Meets m.MayStop (fun effect => m.Sound → m.Fits effect) (m.effect op s) := by
  have a {width : Nat} (named : op.operands.1 = .global width) (sound : m.Sound) :
      s.a.toNat + width ≤ m.globals.size := (fits sound).a width named
  have b {width : Nat} (named : op.operands.2.1 = .global width) (sound : m.Sound) :
      s.b.toNat + width ≤ m.globals.size := (fits sound).b width named
  have c {width : Nat} (named : op.operands.2.2 = .global width) (sound : m.Sound) :
      s.c.toNat + width ≤ m.globals.size := (fits sound).c width named
  cases op with
  | mulF | divF | addF | subF | bitAnd | bitOr =>
      exact m.combine_meets _ (a rfl) (b rfl) fun x => c rfl
  | addV | subV => exact m.combineVectors_meets _ (a rfl) (b rfl) fun v => c rfl
  | le | ge | lt | gt | and | or => exact m.test_meets _ (a rfl) (b rfl) fun x => c rfl
  | mulV =>
      simp only [effect, Outcome.meets_bind]
      exact m.vector_meets (a rfl) fun v => m.vector_meets (b rfl) fun w => c rfl
  | mulFV =>
      simp only [effect, Outcome.meets_bind]
      exact m.single_meets (a rfl) fun x => m.vector_meets (b rfl) fun v => c rfl
  | mulVF =>
      simp only [effect, Outcome.meets_bind]
      exact m.single_meets (b rfl) fun x => m.vector_meets (a rfl) fun v => c rfl
  | equal kind | notEqual kind =>
      simp only [effect, Outcome.meets_bind]
      exact m.areEqual_meets (a rfl) (b rfl) fun equal => c rfl
  | not kind =>
      simp only [effect, Outcome.meets_bind]
      exact m.isNothing_meets (a rfl) fun nothing => c rfl
  | store kind =>
      simp only [effect, Outcome.meets_bind]
      apply m.slice_meets (Nat.le_add_right _ _) (a rfl)
      intro cells sized sound
      rw [Nat.add_sub_cancel_left] at sized
      exact (sized ▸ b rfl sound : s.b.toNat + cells.size ≤ m.globals.size)
  | storeThrough kind =>
      simp only [effect, Outcome.meets_bind]
      apply m.cell_meets (b rfl)
      intro x
      exact m.slice_meets (Nat.le_add_right _ _) (a rfl) fun _ _ _ => trivial
  | load kind =>
      simp only [effect, Outcome.meets_bind]
      refine m.cell_meets (a rfl) fun x => m.cell_meets (b rfl) fun y => ?_
      apply m.loadField_meets
      intro cells sized sound
      exact (sized ▸ c rfl sound : s.c.toNat + cells.size ≤ m.globals.size)
  | address =>
      simp only [effect, Outcome.meets_bind]
      refine m.cell_meets (a rfl) fun x => m.cell_meets (b rfl) fun y => ?_
      exact m.fieldAddress_meets fun _ => c rfl
  | branchIf | branchUnless | call arguments =>
      simp only [effect, Outcome.meets_bind]
      exact m.cell_meets (a rfl) fun _ _ => trivial
  | goto => exact fun _ => trivial
  | done | ret => exact a rfl
  | state =>
      simp only [effect, Outcome.meets_bind]
      exact m.single_meets (a rfl) fun _ => m.cell_meets (b rfl) fun _ _ => trivial

end Effects

/-! ## Performing -/

/-- On this machine the computation stops only as it may, and it keeps the sizes. -/
def SafeAt (m : Machine) (body : Run α) : Prop :=
  Outcome.Stops m.MayStop (body m).1 ∧ (body m).2.shape = m.shape

theorem safe_pure (m : Machine) (a : α) : m.SafeAt (pure a) := ⟨trivial, rfl⟩

theorem safe_bind {m : Machine} {body : Run α} {next : α → Run β} (first : m.SafeAt body)
    (rest : ∀ a (m' : Machine), m'.shape = m.shape → m'.SafeAt (next a)) :
    m.SafeAt (body >>= next) := by
  obtain ⟨stops, kept⟩ := first
  unfold SafeAt
  rw [bind_apply]
  cases outcome : body m with
  | mk result m' =>
      rw [outcome] at stops kept
      cases result with
      | ok a =>
          obtain ⟨later, same⟩ := rest a m' kept
          exact ⟨later.mono (fun _ => mayStop_of_shape kept) fun _ _ => trivial, same.trans kept⟩
      | error stop => exact ⟨stops, kept⟩

theorem safe_get {m : Machine} {next : Machine → Run β} (rest : m.SafeAt (next m)) :
    m.SafeAt (get >>= next) := rest

theorem safe_read {m : Machine} {outcome : Outcome α} {next : α → Run β}
    (meets : Outcome.Meets m.MayStop (fun a => m.SafeAt (next a)) outcome) :
    m.SafeAt (liftM outcome >>= next) := by
  cases outcome with
  | ok a => exact meets
  | error stop => exact ⟨meets, rfl⟩

theorem write_safe {m : Machine} {offset : Nat} {cells : Array Cell}
    (inside : m.Sound → offset + cells.size ≤ m.globals.size) : m.SafeAt (write offset cells) := by
  unfold SafeAt
  rw [write_apply]
  by_cases fits : offset + cells.size ≤ m.globals.size
  · rw [if_pos fits]
    exact ⟨trivial, m.shape_of_globals (Segment.overwrite_size _ _ _)⟩
  · rw [if_neg fits]
    exact ⟨fun sound => fits (inside sound), rfl⟩

theorem writeFields_safe (m : Machine) (e : EntityIndex) (field : UInt32) (cells : Array Cell) :
    m.SafeAt (writeFields e field cells) := by
  refine safe_get (safe_read (m.locate_meets fun position inside => ?_))
  cases held : m.entities.holds position cells.size with
  | true => exact ⟨trivial, m.shape_of_entities (m.entities.overwrite_outline position cells)⟩
  | false =>
      refine ⟨fun sound => ?_, rfl⟩
      have past : ¬ position + cells.size ≤ m.entities.cells.size := of_decide_eq_false held
      exact past (inside sound)

theorem giveResult_safe {m : Machine} {offset : Nat} (inside : m.Sound → offset + 1 ≤ m.globals.size) :
    m.SafeAt (giveResult offset) := by
  refine safe_get (safe_read (m.slice_meets (Nat.le_add_right _ _) (fun sound => ?_) ?_))
  · have := inside sound
    omega
  · intro cells sized
    apply write_safe
    intro sound
    have room : Slot.reserved ≤ m.globals.size := sound.segment ▸ m.program.valid.segment
    -- The result slot is reserved, and near the end of the segment fewer cells are given.
    have short : cells.size ≤ Slot.width := by omega
    exact Nat.le_trans (Nat.add_le_add_left short _) (Nat.le_trans (by decide) room)

theorem writeDeclared_safe (m : Machine) (e : EntityIndex) (cells : Array Cell)
    (field : Option UInt16) : m.SafeAt (writeDeclared e cells field) := by
  cases field with
  | none => exact m.safe_pure ()
  | some field => exact m.writeFields_safe e field.toUInt32 cells

theorem refreshFrame_safe (m : Machine) (e : EntityIndex) (frame : Single) (field : Option UInt16) :
    m.SafeAt (refreshFrame e frame field) := by
  cases field with
  | none => exact m.safe_pure ()
  | some field =>
      refine safe_get (safe_read ?_)
      simp only [Entities.single, Entities.get, Outcome.meets_map, Outcome.meets_bind]
      refine m.locate_meets fun position inside => m.field_meets inside fun current => ?_
      split
      · exact m.safe_pure ()
      · exact m.writeFields_safe e field.toUInt32 _

theorem schedule_safe (m : Machine) (frame : Single) (think : Cell) :
    m.SafeAt (schedule frame think) := by
  refine safe_get (safe_read (m.selfEntity_meets fun e => ?_))
  refine safe_read (m.time_meets fun now => ?_)
  apply safe_bind (m.writeDeclared_safe e _ _)
  intro _ m₁ _
  exact safe_bind (m₁.refreshFrame_safe e frame _) fun _ m₂ _ => m₂.writeDeclared_safe e _ _

/-! ## Calls -/

theorem argumentMoves_fit (widths : List Nat) (n target segment : Nat)
    (slots : n + widths.length ≤ Slot.maxParameters) (narrow : ∀ width ∈ widths, width ≤ 3)
    (room : target + widths.sum ≤ segment) (reserved : Slot.reserved ≤ segment) :
    ∃ moves, argumentMoves widths n target = some moves ∧
      ∀ move ∈ moves, move.source + move.count ≤ segment ∧ move.target + move.count ≤ segment := by
  -- Over the parameters: each takes the next slot, and its target starts where the last one ended.
  induction widths generalizing n target with
  | nil => exact ⟨[], rfl, by simp⟩
  | cons width rest ih =>
      rw [List.length_cons] at slots
      rw [List.sum_cons] at room
      obtain ⟨moves, placed, inside⟩ := ih (n + 1) (target + width) (by omega)
        (fun w member => narrow w (List.mem_cons_of_mem width member)) (by omega)
      have slot : Slot.parameter? n = some (Slot.firstParameter + n * Slot.width) := by
        rw [Slot.parameter?, if_pos (by omega)]
      have first : argumentMoves (width :: rest) n target =
          some (⟨Slot.firstParameter + n * Slot.width, target, width⟩ :: moves) := by
        simp only [argumentMoves, slot, placed, Option.bind_eq_bind, Option.bind_some]
        rfl
      refine ⟨_, first, ?_⟩
      intro move member
      rcases List.mem_cons.mp member with rfl | later
      · have fits := narrow width List.mem_cons_self
        have slotted : n + (rest.length + 1) ≤ 8 := slots
        have bottom : 28 ≤ segment := reserved
        have source : 4 + n * 3 + width ≤ segment := by omega
        have goal : target + width ≤ segment := by omega
        exact ⟨source, goal⟩
      · exact inside move later

theorem passedWidths_fit {f : Function} {statements segment : Nat} (fits : f.Fits statements segment)
    (ours : f.nativeNumber? = none) (arguments : Nat) :
    (passedWidths f arguments).length ≤ Slot.maxParameters ∧
      (∀ width ∈ passedWidths f arguments, width ≤ 3) ∧
      f.localsStart + (passedWidths f arguments).sum ≤ segment := by
  refine ⟨?_, fun width member => ?_, ?_⟩
  · have declared : f.declaredSizes.length ≤ Slot.maxParameters := by
      have eight : Slot.maxParameters = 8 := rfl
      simp only [Function.declaredSizes, List.length_map, List.length_take, Vector.length_toList]
      omega
    exact Nat.le_trans (List.length_take_le' _ _) declared
  · obtain ⟨size, declared, rfl⟩ := List.mem_map.mp (List.mem_of_mem_take member)
    have narrow := fits.sizes size (List.mem_of_mem_take declared)
    exact UInt8.le_iff_toNat_le.mp narrow
  · have total : f.declaredSizes.sum ≤ f.locals.toNat := fits.filled ours
    -- Passing fewer arguments than were declared fills less of the range.
    have parts : (passedWidths f arguments).sum + (f.declaredSizes.drop arguments).sum =
        f.declaredSizes.sum := by
      rw [passedWidths, ← List.sum_append_nat, List.take_append_drop]
    have inside : f.localsStart + f.locals.toNat ≤ segment := fits.locals
    omega

theorem admission_stops {m : Machine} {id : FunctionId} {f : Function}
    (found : m.program.function id = .ok f) (ours : f.nativeNumber? = none) :
    Outcome.Stops m.MayStop (m.admission id f) := by
  obtain ⟨listed, fits⟩ := m.program.function_fits found
  obtain ⟨slots, narrow, room⟩ := passedWidths_fit fits ours m.argumentCount
  obtain ⟨moves, placed, inside⟩ := argumentMoves_fit _ 0 _ _ (by rwa [Nat.zero_add]) narrow room
    m.program.valid.segment
  have pushed : Outcome.Stops m.MayStop m.calls.checkPush := by
    unfold CallStack.checkPush
    split
    · rfl
    · trivial
  have saving (count : Nat) : Outcome.Stops m.MayStop (m.locals.checkSave count) := by
    unfold LocalsStack.checkSave
    split
    · trivial
    · rfl
  -- What was checked of the function leaves the limits of the two stacks to refuse the call.
  simp only [Outcome.Stops, admission, placed, Outcome.ofOption_some, Outcome.meets_bind]
  apply pushed.mono (fun _ may => may)
  intro _ _
  refine m.slice_meets (Nat.le_add_right _ _) (fun sound => sound.segment ▸ fits.locals)
    fun saved _ => ?_
  refine (saving saved.size).mono (fun _ may => may) fun _ _ => (Outcome.meets_ok _).mpr ?_
  split
  · trivial
  · rename_i refused
    intro sound
    refine refused ?_
    rw [Bool.and_eq_true, List.all_eq_true]
    refine ⟨decide_eq_true ?_, fun move member => decide_eq_true ?_⟩
    · exact sound.profile ▸ listed
    · exact sound.segment ▸ inside move member

theorem located_stops (m : Machine) (e : Error) : Outcome.Stops m.MayStop (m.located e) := by
  unfold located
  split
  · trivial
  · simp only [Outcome.Stops, context, Outcome.meets_bind]
    exact m.selfEntity_meets fun _ => trivial

theorem Sound.covers {m : Machine} (sound : m.Sound) {id : FunctionId} {f : Function}
    (found : m.program.function id = .ok f) :
    m.profile.covers id = true ∧ f.localsEnd ≤ m.globals.size := by
  obtain ⟨listed, fits⟩ := m.program.function_fits found
  exact ⟨decide_eq_true (sound.profile ▸ listed), sound.segment ▸ fits.locals⟩

section Shapes
variable (m : Machine)

theorem shape_of_sizes {m' : Machine} (program : m'.program = m.program)
    (segment : m'.globals.size = m.globals.size) (entities : m'.entities = m.entities)
    (profile : m'.profile.size = m.profile.size) : m'.shape = m.shape := by
  rw [shape, program, segment, entities, profile]
  rfl

theorem entered_shape (id : FunctionId) (saved : Array Cell) (moves : List Move) :
    (m.entered id saved moves).shape = m.shape :=
  shape_of_sizes m rfl (Segment.moveAll_size _ _) rfl Array.size_modify

theorem departed_shape (f : Function) (saved : Array Cell) (frame : Frame) :
    (m.departed f saved frame).shape = m.shape :=
  shape_of_sizes m rfl (Segment.overwrite_size _ _ _) rfl rfl

theorem fetched_shape (s : Nat) (statement : Statement) : (m.fetched s statement).shape = m.shape :=
  shape_of_sizes m rfl rfl rfl Array.size_modify

theorem handed_shape (id : FunctionId) (number : Nat) (f : Native) :
    (m.handed id number f).shape = m.shape :=
  shape_of_sizes m rfl rfl rfl Array.size_modify

end Shapes
end Machine
end EntityMachine
