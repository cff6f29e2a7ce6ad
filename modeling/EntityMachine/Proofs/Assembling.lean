import EntityMachine.Assembler
import EntityMachine.Proofs.PoolHistories
import EntityMachine.Proofs.Segments
import Mathlib.Algebra.GroupWithZero.Nat

/-!
Requests to the assembler, one at a time. A request appends what it was asked for behind everything that was
laid out before, moves nothing, and of the function table touches at most one row. All of that is said
once for any request, so what follows about many of them never asks again which one it was.
-/
namespace EntityMachine

/-! ## Runs of cells -/

structure Span where
  first : Nat
  width : Nat
  deriving DecidableEq, Repr

namespace Span

def last (x : Span) : Nat := x.first + x.width

/-- Spans that follow each other without a gap, from one place to another. -/
inductive Tile : Nat → List Span → Nat → Prop where
  | nil (place : Nat) : Tile place [] place
  | cons {first width last : Nat} {rest : List Span} (further : Tile (first + width) rest last) :
      Tile first (⟨first, width⟩ :: rest) last

variable {first middle last : Nat} {spans more : List Span}

theorem Tile.append (left : Tile first spans middle) (right : Tile middle more last) :
    Tile first (spans ++ more) last := by
  induction left with
  | nil => exact right
  | cons _ ih => exact .cons (ih right)

theorem Tile.le (tile : Tile first spans last) : first ≤ last := by
  induction tile with
  | nil => exact Nat.le_refl _
  | cons _ ih => exact Nat.le_trans (Nat.le_add_right _ _) ih

theorem Tile.inside (tile : Tile first spans last) : ∀ x ∈ spans, first ≤ x.first ∧ x.last ≤ last := by
  induction tile with
  | nil => exact nofun
  | cons further ih =>
      refine List.forall_mem_cons.mpr ⟨⟨Nat.le_refl _, further.le⟩, fun x member => ?_⟩
      exact ⟨Nat.le_trans (Nat.le_add_right _ _) (ih x member).1, (ih x member).2⟩

theorem Tile.apart (tile : Tile first spans last) : spans.Pairwise fun x y => x.last ≤ y.first := by
  induction tile with
  | nil => exact .nil
  | cons further ih => exact .cons (fun y member => (further.inside y member).1) ih

def offsets : Nat → List Nat → List UInt16
  | _, [] => []
  | first, width :: rest => .ofNat first :: offsets (first + width) rest

def ofOffsets (offsets : List UInt16) (widths : List Nat) : List Span :=
  List.zipWith (fun offset width => ⟨offset.toNat, width⟩) offsets widths

theorem offsets_length (first : Nat) (widths : List Nat) : (offsets first widths).length = widths.length := by
  induction widths generalizing first with
  | nil => rfl
  | cons width rest ih => rw [offsets, List.length_cons, ih, List.length_cons]

theorem offsets_tile {first : Nat} {widths : List Nat} (small : first + widths.sum < 65536) :
    Tile first (ofOffsets (offsets first widths) widths) (first + widths.sum) := by
  induction widths generalizing first with
  | nil => exact .nil first
  | cons width rest ih =>
      rw [List.sum_cons, ← Nat.add_assoc] at small ⊢
      have exactly : (UInt16.ofNat first).toNat = first := UInt16.toNat_ofNat_of_lt' (show first < 65536 by omega)
      rw [offsets, ofOffsets, List.zipWith_cons_cons, exactly]
      exact .cons (ih small)

end Span

/-! ## Names -/

namespace StringPool

/-- Everything that the index names is stored for good. -/
structure Indexed (p : StringPool) : Prop where
  settled : ∃ before slots after, Settled p before slots after
  names : ∀ text id, p.lookup? (untilNul text.toSlice) = some id → p.Names id text

theorem empty_indexed : Indexed .empty where
  settled := ⟨[], [], [""], empty_settled⟩
  names := by
    intro text id known
    have copy := (empty_settled.lookup?_iff (by decide) _ _).mp known
    exact ⟨copy.stored.inside, copy.stored.outside, copy.stored.resolves, known⟩

theorem Indexed.intern {p q : StringPool} {text : String} {id : StringId} (indexed : p.Indexed)
    (stored : p.intern? text = some (id, q)) : q.Indexed ∧ p.Extends q ∧ q.Names id text := by
  obtain ⟨before, slots, after, settled⟩ := indexed.settled
  obtain ⟨extended, more, settled'⟩ := intern_settled settled stored
  have named : q.Names id text := by
    rcases intern?_cases stored with ⟨known, rfl⟩ | ⟨-, small, -, -⟩
    · exact indexed.names text id known
    · exact intern?_names settled small stored
  refine ⟨⟨⟨before, slots, after ++ more, settled'⟩, fun other otherId known => ?_⟩, extended, named⟩
  by_cases same : untilNul other.toSlice = untilNul text.toSlice
  · rw [same, named.known] at known
    cases known
    exact ⟨named.inside, named.outside, same ▸ named.resolves, same ▸ named.known⟩
  · refine (indexed.names other otherId ?_).later extended
    rcases intern?_cases stored with ⟨-, rfl⟩ | ⟨-, -, -, rfl⟩
    · exact known
    · rwa [lookup?, Std.HashMap.getElem?_insert, if_neg (by simpa using Ne.symm same)] at known

theorem intern?_bounded {p : StringPool} (small : p.size < offsetLimit) (text : String) :
    ∃ id q, p.intern? text = some (id, q) ∧ q.size ≤ p.size + text.utf8ByteSize + 1 := by
  obtain ⟨id, q, stored⟩ := intern?_stores small text
  refine ⟨id, q, stored, ?_⟩
  rcases intern?_cases stored with ⟨-, rfl⟩ | ⟨-, -, -, rfl⟩
  · omega
  · have shorter := untilNul_size text
    have nul : ("\x00" : String).utf8ByteSize = 1 := rfl
    simp only [size, String.utf8ByteSize_append] at *
    omega

end StringPool

/-! ## Requests -/

namespace Assembler

inductive Request where
  | intern (text : String)
  | global (name : String) (type : ValueType)
  | unnamed (type : ValueType)
  | floatConstant (value : Single)
  | vectorConstant (value : Vec3)
  | stringConstant (value : String)
  | functionConstant (id : FunctionId)
  | setGlobal (offset : UInt16) (cell : Cell)
  | field (name : String) (type : ValueType)
  | declare (name : String)
  | native (name : String) (number : UInt32)
  | beginBody (id : FunctionId) (parameters : List ValueType)
  | beginFunction (name : String) (parameters : List ValueType)
  | endFunction
  | emit (op : Opcode) (a b c : UInt16)
  | here
  | patch (place target : Nat)

/-- The places in the segment and in the record, and the function, that a request is answered with. -/
structure Reply where
  cells : List UInt16 := []
  fields : List UInt16 := []
  function : Option FunctionId := none

structure Entry where
  request : Request
  reply : Reply

namespace Request

def perform : Request → Assemble Reply
  | .intern text => do let _ ← Assembler.intern text; return {}
  | .global name type => return { cells := [← Assembler.global name type] }
  | .unnamed type => return { cells := [← Assembler.unnamed type] }
  | .floatConstant value => return { cells := [← Assembler.floatConstant value] }
  | .vectorConstant value => return { cells := [← Assembler.vectorConstant value] }
  | .stringConstant value => return { cells := [← Assembler.stringConstant value] }
  | .functionConstant id => return { cells := [← Assembler.functionConstant id] }
  | .setGlobal offset cell => do Assembler.setGlobal offset cell; return {}
  | .field name type => do
    let ref ← Assembler.field name type
    return { cells := [ref.global], fields := [ref.field] }
  | .declare name => return { function := some (← Assembler.declare name) }
  | .native name number => return { function := some (← Assembler.native name number) }
  | .beginBody id parameters =>
    return { cells := ← Assembler.beginBody id parameters, function := some id }
  | .beginFunction name parameters => do
    let (id, cells) ← Assembler.beginFunction name parameters
    return { cells, function := some id }
  | .endFunction => do Assembler.endFunction; return {}
  | .emit op a b c => do let _ ← Assembler.emit op a b c; return {}
  | .here => do let _ ← Assembler.here; return {}
  | .patch place target => do Assembler.patch place target; return {}

def opens? : Request → Option (List ValueType)
  | .beginBody _ parameters | .beginFunction _ parameters => some parameters
  | _ => none

def closes : Request → Bool
  | .endFunction => true
  | _ => false

/-- Cells that the request asks for, by the types of what is to be kept in them. -/
def widths : Request → List Nat
  | .global _ type | .unnamed type => [type.width]
  | .floatConstant _ | .stringConstant _ | .functionConstant _ | .field _ _ => [1]
  | .vectorConstant _ => [3]
  | .beginBody _ parameters | .beginFunction _ parameters => parameters.map (·.width)
  | _ => []

def fieldWidths : Request → List Nat
  | .field _ type => [type.width]
  | _ => []

/-- The request gives a cell of the segment another value. -/
def Sets (q : Request) (place : Nat) : Prop := ∃ offset cell, q = .setGlobal offset cell ∧ offset.toNat = place

end Request

namespace Entry

def spans (e : Entry) : List Span := Span.ofOffsets e.reply.cells e.request.widths

def fieldSpans (e : Entry) : List Span := Span.ofOffsets e.reply.fields e.request.fieldWidths

/-- The cells of a constant. A text is kept as the id that names it, a field as its offset; other requests
have no constant. -/
def Holds (strings : StringPool) (e : Entry) (cells : Array Cell) : Prop :=
  match e.request with
  | .floatConstant value => cells = #[.ofSingle value]
  | .vectorConstant value => cells = value.cells
  | .stringConstant value => ∃ id, cells = #[.ofString id] ∧ strings.Names id value
  | .functionConstant id => cells = #[.ofFunction id]
  | .field _ _ => ∃ field, e.reply.fields = [field] ∧ cells = #[.ofInt field.toNat]
  | _ => cells = #[]

end Entry

/-- What a function says about the segment. -/
def placement (f : Function) : Function :=
  { parmStart := f.parmStart, locals := f.locals, numParms := f.numParms, parmSizes := f.parmSizes }

/-- What a row of the function table says about the segment. A row that does not exist says nothing. -/
def row (s : Assembler) (k : Nat) : Function := placement ((s.image.functions[k]?).getD {})

def opened (f : Function) (place : Nat) (parameters : List ValueType) : Function :=
  { f with
    parmStart := .ofNat place
    numParms := .ofNat parameters.length
    parmSizes := Vector.ofFn fun i => (parameters.map fun type => UInt8.ofNat type.width).getD i 0 }

def closed (f : Function) (place : Nat) : Function := { f with locals := .ofNat place - f.parmStart }

/-- What a request does, as far as the layout goes. -/
structure Step (s : Assembler) (e : Entry) (s' : Assembler) : Prop where
  cells : e.reply.cells = Span.offsets s.image.globals.size e.request.widths
  size : s'.image.globals.size = s.image.globals.size + e.request.widths.sum
  fields : e.reply.fields = Span.offsets s.image.entityFields e.request.fieldWidths
  record : s'.image.entityFields = s.image.entityFields + e.request.fieldWidths.sum
  kept : ∀ i < s.image.globals.size, ¬ e.request.Sets i → s'.image.globals[i]? = s.image.globals[i]?
  strings : s.image.strings.Indexed → s'.image.strings.Indexed ∧ s.image.strings.Extends s'.image.strings ∧
    ∃ cells, e.Holds s'.image.strings cells ∧
      ∀ (k : Nat) c, cells[k]? = some c → s'.image.globals[s.image.globals.size + k]? = some c
  table : s.image.functions.size ≤ s'.image.functions.size
  opening : ∀ parameters, e.request.opens? = some parameters → parameters.length ≤ Slot.maxParameters ∧
    ∃ id, e.reply.function = some id ∧ id.toNat < s'.image.functions.size ∧ s'.current = some id.toNat ∧
      ∀ k, s'.row k = if k = id.toNat then opened (s.row k) s.image.globals.size parameters else s.row k
  closing : e.request.closes = true → s'.current = none ∧
    ∀ k, s'.row k = if s.current = some k then closed (s.row k) s.image.globals.size else s.row k
  idle : e.request.opens? = none → e.request.closes = false → s'.current = s.current ∧ ∀ k, s'.row k = s.row k

/-! ## What the operations do -/

section Operations
variable {s s' : Assembler}

theorem row_congr (same : s'.image.functions = s.image.functions) (k : Nat) : s'.row k = s.row k := by
  rw [row, row, same]

theorem row_push {f : Function} (blank : placement f = {})
    (pushed : s'.image.functions = s.image.functions.push f) (k : Nat) : s'.row k = s.row k := by
  rw [row, row, pushed, Array.getElem?_push]
  split
  · rename_i last
    rw [last, Array.getElem?_eq_none (Nat.le_refl _)]
    exact blank
  · rfl

theorem row_set {i : Nat} {f g : Function} (change : Function → Function)
    (there : s.image.functions[i]? = some f) (set : s'.image.functions = s.image.functions.setIfInBounds i g)
    (changed : placement g = change (placement f)) (k : Nat) :
    s'.row k = if k = i then change (s.row k) else s.row k := by
  have inside : i < s.image.functions.size := (Array.getElem?_eq_some_iff.mp there).1
  rw [row, row, set, Array.getElem?_setIfInBounds]
  by_cases same : k = i
  · rw [if_pos same.symm, if_pos inside, if_pos same, same, there]
    exact changed
  · rw [if_neg (Ne.symm same), if_neg same]

theorem overwrite_appended (globals cells : Array Cell) :
    (Segment.overwrite ⟨globals ++ Array.replicate cells.size .zero⟩ globals.size cells).cells =
      globals ++ cells := by
  refine Array.ext_getElem? fun i => ?_
  have read := Segment.overwrite_get ⟨globals ++ Array.replicate cells.size .zero⟩ globals.size cells i
  simp only [Segment.get?, Segment.size, Array.size_append, Array.size_replicate] at read
  rw [read, Array.getElem?_append, Array.getElem?_append]
  by_cases low : i < globals.size
  · rw [if_neg (by omega), if_pos low, if_pos low]
  · by_cases inside : i < globals.size + cells.size
    · rw [if_pos (by omega), if_neg low]
    · rw [if_neg (by omega), if_neg low, if_neg low, Array.getElem?_eq_none (by simp; omega),
        Array.getElem?_eq_none (by omega)]

theorem answered_iff {α : Type} (body : Assemble α) (answer : α → Reply) (reply : Reply) :
    (do return answer (← body) : Assemble Reply).run s = some (reply, s') ↔
      ∃ a, body.run s = some (a, s') ∧ answer a = reply := by
  simp

theorem intern_iff (text : String) (id : StringId) :
    (intern text).run s = some (id, s') ↔ ∃ strings, s.image.strings.intern? text = some (id, strings) ∧
      { s with image := { s.image with strings } } = s' := by
  simp [intern, Option.bind_eq_some_iff]

def appended (s : Assembler) (cells : Array Cell) : Assembler :=
  { s with image := { s.image with globals := s.image.globals ++ cells } }

theorem constant_iff (cells : Array Cell) (offset : UInt16) : (constant cells).run s = some (offset, s') ↔
    s.image.globals.size % 65536 ≤ s.image.globals.size ∧ .ofNat s.image.globals.size = offset ∧
      { s with image := { s.image with
        globals := (Segment.overwrite ⟨s.image.globals ++ Array.replicate cells.size .zero⟩
          (s.image.globals.size % 65536) cells).cells } } = s' := by
  simp [constant, allocate, assign, Segment.write?, Segment.size, Option.bind_eq_some_iff]

theorem constant_run {cells : Array Cell} {offset : UInt16} (done : (constant cells).run s = some (offset, s'))
    (small : s'.image.globals.size < 65536) :
    .ofNat s.image.globals.size = offset ∧ s.appended cells = s' := by
  obtain ⟨-, named, rfl⟩ := (constant_iff cells offset).mp done
  have size : s.image.globals.size + cells.size < 65536 := by
    simpa [Segment.overwrite, Segment.storeAll_size] using small
  refine ⟨named, ?_⟩
  rw [appended, Nat.mod_eq_of_lt (by omega), overwrite_appended]

theorem stringConstant_run {text : String} {offset : UInt16}
    (done : (stringConstant text).run s = some (offset, s')) (small : s'.image.globals.size < 65536) :
    .ofNat s.image.globals.size = offset ∧ ∃ id strings, s.image.strings.intern? text = some (id, strings) ∧
      appended { s with image := { s.image with strings } } #[.ofString id] = s' := by
  obtain ⟨id, named, ran, stored⟩ : ∃ id s₁, (intern text).run s = some (id, s₁) ∧
      (constant #[.ofString id]).run s₁ = some (offset, s') := by
    simpa [stringConstant, Option.bind_eq_some_iff] using done
  obtain ⟨strings, found, rfl⟩ := (intern_iff text id).mp ran
  obtain ⟨place, same⟩ := constant_run stored small
  exact ⟨place, id, strings, found, same⟩

theorem global_iff (name : String) (type : ValueType) (offset : UInt16) :
    (global name type).run s = some (offset, s') ↔
      ∃ id strings, s.image.strings.intern? name = some (id, strings) ∧
        .ofNat s.image.globals.size = offset ∧ { s with image := { s.image with
          globals := s.image.globals ++ Array.replicate type.width .zero, strings
          globalDefs := s.image.globalDefs.push ⟨type, .ofNat s.image.globals.size, id, true⟩ } } = s' := by
  simp [global, allocate, intern, modifyImage, Option.bind_eq_some_iff]

theorem setGlobal_iff (offset : UInt16) (cell : Cell) (u : Unit) :
    (setGlobal offset cell).run s = some (u, s') ↔ offset.toNat + 1 ≤ s.image.globals.size ∧
      { s with image := { s.image with
        globals := (Segment.overwrite ⟨s.image.globals⟩ offset.toNat #[cell]).cells } } = s' := by
  simp [setGlobal, assign, Segment.write?, Segment.size, Option.bind_eq_some_iff]

theorem field_run {name : String} {type : ValueType} {ref : FieldRef}
    (done : (field name type).run s = some (ref, s')) (small : s'.image.globals.size < 65536) :
    ∃ id strings globalDefs fieldDefs, s.image.strings.intern? name = some (id, strings) ∧
      ref = { field := .ofNat s.image.entityFields, global := .ofNat s.image.globals.size } ∧
      { s with image := { s.image with
        globals := s.image.globals ++ #[.ofInt (UInt16.ofNat s.image.entityFields).toNat]
        entityFields := s.image.entityFields + type.width
        strings, globalDefs, fieldDefs } } = s' := by
  obtain ⟨id, strings, found, offset, last, stored, rfl, rfl⟩ : ∃ id strings,
      s.image.strings.intern? name = some (id, strings) ∧ ∃ offset last,
        (constant #[.ofInt (UInt16.ofNat s.image.entityFields).toNat]).run { s with image := { s.image with
          entityFields := s.image.entityFields + type.width
          fieldDefs := s.image.fieldDefs.push ⟨type, .ofNat s.image.entityFields, id, true⟩
          strings } } = some (offset, last) ∧
        { field := .ofNat s.image.entityFields, global := offset } = ref ∧
        { last with image := { last.image with
          globalDefs := last.image.globalDefs.push ⟨.field, offset, id, false⟩ } } = s' := by
    simpa [field, intern, modifyImage, Option.bind_eq_some_iff] using done
  obtain ⟨rfl, rfl⟩ := constant_run stored small
  exact ⟨id, strings, _, _, found, rfl, rfl⟩

theorem declare_iff (name : String) (id : FunctionId) :
    (declare name).run s = some (id, s') ↔
      ∃ label strings, s.image.strings.intern? name = some (label, strings) ∧
        ∃ file pool, strings.intern? "builder" = some (file, pool) ∧ .ofNat s.image.functions.size = id ∧
          { s with image := { s.image with
            strings := pool, functions := s.image.functions.push { name := label, file } } } = s' := by
  simp [declare, intern, Option.bind_eq_some_iff]

theorem modifyFunction_iff (index : Nat) (change : Function → Function) (u : Unit) :
    (modifyFunction index change).run s = some (u, s') ↔ ∃ f, s.image.functions[index]? = some f ∧
      { s with image := { s.image with functions := s.image.functions.setIfInBounds index (change f) } } = s' := by
  simp [modifyFunction, modifyImage, Option.bind_eq_some_iff]

theorem native_run {name : String} {number : UInt32} {id : FunctionId}
    (done : (native name number).run s = some (id, s')) : ∃ s₁, (declare name).run s = some (id, s₁) ∧
      ∃ first f, s₁.image.functions[id.toNat]? = some f ∧
        { s₁ with image := { s₁.image with
          functions := s₁.image.functions.setIfInBounds id.toNat { f with first } } } = s' := by
  by_cases refused : number = 0x80000000
  · rw [native, if_pos refused] at done
    cases done
  · rw [native, if_neg refused] at done
    generalize (-number.toInt32).toInt = first at done
    obtain ⟨s₁, declared, u, changed⟩ : ∃ s₁, (declare name).run s = some (id, s₁) ∧
        ∃ u, (modifyFunction id.toNat fun f => { f with first }).run s₁ = some (u, s') := by
      simpa [Option.bind_eq_some_iff] using done
    obtain ⟨f, there, rfl⟩ := (modifyFunction_iff id.toNat _ u).mp changed
    exact ⟨s₁, declared, first, f, there, rfl⟩

theorem allocateAll_run (types : List ValueType) (s : Assembler) :
    (types.mapM fun type => allocate type.width).run s =
      some (Span.offsets s.image.globals.size (types.map (·.width)),
        s.appended (Array.replicate (types.map (·.width)).sum .zero)) := by
  induction types generalizing s with
  | nil => simp [Span.offsets, appended]
  | cons type rest ih =>
      have first : (allocate type.width).run s =
          some (.ofNat s.image.globals.size, s.appended (Array.replicate type.width .zero)) := rfl
      rw [List.mapM_cons, StateT.run_bind, first]
      simp [ih, Span.offsets, appended]

theorem beginBody_iff (id : FunctionId) (parameters : List ValueType) (cells : List UInt16) :
    (beginBody id parameters).run s = some (cells, s') ↔ parameters.length ≤ Slot.maxParameters ∧
      ∃ f, s.image.functions[id.toNat]? = some f ∧
        Span.offsets s.image.globals.size (parameters.map (·.width)) = cells ∧
        { s with
          image := { s.image with
            globals := s.image.globals ++ Array.replicate (parameters.map (·.width)).sum .zero
            functions := s.image.functions.setIfInBounds id.toNat
              { opened f s.image.globals.size parameters with
                first := (Int32.ofNat s.image.statements.size).toInt } }
          current := some id.toNat } = s' := by
  by_cases many : Slot.maxParameters < parameters.length
  · simp [beginBody, many, Nat.not_le.mpr many]
  · simp [beginBody, opened, many, Nat.le_of_not_lt many, allocateAll_run, appended, modifyFunction, modifyImage,
      Option.bind_eq_some_iff]

theorem beginFunction_iff (name : String) (parameters : List ValueType) (id : FunctionId)
    (cells : List UInt16) : (beginFunction name parameters).run s = some ((id, cells), s') ↔
      ∃ s₁, (declare name).run s = some (id, s₁) ∧ (beginBody id parameters).run s₁ = some (cells, s') := by
  simp [beginFunction, Option.bind_eq_some_iff]

theorem endFunction_eq (s : Assembler) : endFunction.run s = match s.current with
    | none => some ((), s)
    | some k => (modifyFunction k fun f => closed f s.image.globals.size).run { s with current := none } := by
  rw [endFunction, StateT.run_bind, StateT.run_get]
  simp only [Option.pure_def, Option.bind_eq_bind, Option.bind_some]
  cases s.current <;> rfl

theorem endFunction_run {u : Unit} (done : endFunction.run s = some (u, s')) : s.current = none ∧ s = s' ∨
    ∃ k f, s.current = some k ∧ s.image.functions[k]? = some f ∧
      { s with
        image := { s.image with
          functions := s.image.functions.setIfInBounds k (closed f s.image.globals.size) }
        current := none } = s' := by
  rw [endFunction_eq] at done
  cases body : s.current with
  | none =>
      rw [body] at done
      cases done
      exact .inl ⟨rfl, rfl⟩
  | some k =>
      rw [body] at done
      obtain ⟨f, there, rfl⟩ := (modifyFunction_iff k _ u).mp done
      exact .inr ⟨k, f, rfl, there, rfl⟩

/-! ## What a request does -/

/-- What becomes of the strings, and which constant is kept. -/
def Names (s : Assembler) (e : Entry) (s' : Assembler) (values : Array Cell) : Prop :=
  s.image.strings.Indexed → s'.image.strings.Indexed ∧ s.image.strings.Extends s'.image.strings ∧
    ∃ cells, e.Holds s'.image.strings cells ∧ (cells = #[] ∨ cells = values)

theorem Names.unnamed {e : Entry} (values : Array Cell) (same : s'.image.strings = s.image.strings)
    {cells : Array Cell} (holds : e.Holds s'.image.strings cells) (kept : cells = #[] ∨ cells = values) :
    Names s e s' values :=
  fun indexed => ⟨same ▸ indexed, same ▸ .refl _, cells, holds, kept⟩

theorem Names.named {e : Entry} {text : String} {id : StringId} (values : Array Cell)
    (stored : s.image.strings.intern? text = some (id, s'.image.strings)) {cells : Array Cell}
    (holds : s'.image.strings.Names id text → e.Holds s'.image.strings cells)
    (kept : cells = #[] ∨ cells = values) : Names s e s' values := by
  intro indexed
  obtain ⟨indexed', extended, named⟩ := indexed.intern stored
  exact ⟨indexed', extended, cells, holds named, kept⟩

theorem Step.of_appended {e : Entry} (values : Array Cell)
    (globals : s'.image.globals = s.image.globals ++ values) (sized : values.size = e.request.widths.sum)
    (cells : e.reply.cells = Span.offsets s.image.globals.size e.request.widths)
    (fields : e.reply.fields = Span.offsets s.image.entityFields e.request.fieldWidths)
    (record : s'.image.entityFields = s.image.entityFields + e.request.fieldWidths.sum)
    (names : Names s e s' values) (table : s.image.functions.size ≤ s'.image.functions.size)
    (rows : ∀ k, s'.row k = s.row k) (current : s'.current = s.current) (shut : e.request.opens? = none)
    (inside : e.request.closes = false) : Step s e s' where
  cells := cells
  size := by rw [globals, Array.size_append, sized]
  fields := fields
  record := record
  kept := fun i low _ => by rw [globals, Array.getElem?_append, if_pos low]
  strings := by
    intro indexed
    obtain ⟨indexed', extended, kept, holds, place⟩ := names indexed
    refine ⟨indexed', extended, kept, holds, fun k c found => ?_⟩
    rcases place with rfl | rfl
    · cases found
    · rw [globals, Array.getElem?_append, if_neg (by omega), Nat.add_sub_cancel_left, found]
  table := table
  opening := fun _ opens => nomatch shut.symm.trans opens
  closing := fun closes => nomatch inside.symm.trans closes
  idle := fun _ _ => ⟨current, rows⟩

theorem Step.of_still {e : Entry} (same : s'.image.globals = s.image.globals)
    (none : e.request.widths = [] ∧ e.request.fieldWidths = []) (silent : e.reply.cells = [] ∧ e.reply.fields = [])
    (record : s'.image.entityFields = s.image.entityFields) (names : Names s e s' #[])
    (table : s.image.functions.size ≤ s'.image.functions.size) (rows : ∀ k, s'.row k = s.row k)
    (current : s'.current = s.current) (shut : e.request.opens? = Option.none) (inside : e.request.closes = false) :
    Step s e s' := by
  refine .of_appended #[] (by rw [same, Array.append_empty]) (by rw [none.1]; rfl) ?_ ?_ ?_ names table rows
    current shut inside
  · rw [silent.1, none.1]
    rfl
  · rw [silent.2, none.2]
    rfl
  · rw [record, none.2]
    rfl

theorem constant_step {q : Request} {cells : Array Cell} {offset : UInt16}
    (ran : (constant cells).run s = some (offset, s')) (small : s'.image.globals.size < 65536)
    (asked : q.widths = [cells.size] ∧ q.fieldWidths = []) (shut : q.opens? = none) (inside : q.closes = false)
    (holds : Entry.Holds s'.image.strings ⟨q, { cells := [offset] }⟩ cells) :
    Step s ⟨q, { cells := [offset] }⟩ s' := by
  obtain ⟨rfl, rfl⟩ := constant_run ran small
  refine .of_appended cells rfl ?_ ?_ ?_ ?_ (.unnamed _ rfl holds (.inr rfl)) (Nat.le_refl _) (row_congr rfl)
    rfl shut inside
  · rw [asked.1]
    rfl
  · rw [asked.1]
    rfl
  · rw [asked.2]
    rfl
  · rw [asked.2]
    rfl

theorem setGlobal_step {offset : UInt16} {cell : Cell} {u : Unit}
    (ran : (setGlobal offset cell).run s = some (u, s')) : Step s ⟨.setGlobal offset cell, {}⟩ s' := by
  obtain ⟨-, rfl⟩ := (setGlobal_iff offset cell u).mp ran
  refine ⟨rfl, Segment.overwrite_size _ _ _, rfl, rfl, fun i low untouched => ?_, fun indexed => ?_, Nat.le_refl _,
    nofun, nofun, fun _ _ => ⟨rfl, row_congr rfl⟩⟩
  · have other : i ≠ offset.toNat := fun same => untouched ⟨offset, cell, rfl, same.symm⟩
    refine (Segment.overwrite_get _ _ _ i).trans (if_neg fun covered => other ?_)
    exact Nat.le_antisymm (Nat.le_of_lt_succ covered.2.1) covered.1
  · exact ⟨indexed, .refl _, #[], rfl, nofun⟩

/-! ## Requests about functions -/

structure Declares (s s' : Assembler) : Prop where
  globals : s'.image.globals = s.image.globals
  record : s'.image.entityFields = s.image.entityFields
  current : s'.current = s.current
  table : s.image.functions.size ≤ s'.image.functions.size
  rows : ∀ k, s'.row k = s.row k
  strings : s.image.strings.Indexed → s'.image.strings.Indexed ∧ s.image.strings.Extends s'.image.strings

theorem declare_declares {name : String} {id : FunctionId} (ran : (declare name).run s = some (id, s')) :
    Declares s s' := by
  obtain ⟨label, strings, found, file, pool, found', -, rfl⟩ := (declare_iff name id).mp ran
  refine ⟨rfl, rfl, rfl, ?_, row_push rfl rfl, fun indexed => ?_⟩
  · rw [Array.size_push]
    exact Nat.le_succ _
  · obtain ⟨between, first, -⟩ := indexed.intern found
    obtain ⟨indexed', second, -⟩ := between.intern found'
    exact ⟨indexed', first.trans second⟩

theorem native_declares {name : String} {number : UInt32} {id : FunctionId}
    (ran : (native name number).run s = some (id, s')) : Declares s s' := by
  obtain ⟨s₁, declared, first, f, there, rfl⟩ := native_run ran
  have blank := declare_declares declared
  refine ⟨blank.globals, blank.record, blank.current, ?_, fun k => ?_, blank.strings⟩
  · rw [Array.size_setIfInBounds]
    exact blank.table
  · rw [row_set (g := { f with first }) (fun f => f) there rfl rfl, ← blank.rows]
    exact ite_self _

theorem Declares.step (declares : Declares s s') {q : Request} {id : FunctionId}
    (asked : q.widths = [] ∧ q.fieldWidths = []) (shut : q.opens? = none) (inside : q.closes = false)
    (holds : Entry.Holds s'.image.strings ⟨q, { function := some id }⟩ #[]) :
    Step s ⟨q, { function := some id }⟩ s' := by
  refine .of_still declares.globals asked ⟨rfl, rfl⟩ declares.record (fun indexed => ?_) declares.table
    declares.rows declares.current shut inside
  exact ⟨(declares.strings indexed).1, (declares.strings indexed).2, #[], holds, .inl rfl⟩

theorem beginBody_step {id : FunctionId} {parameters : List ValueType} {cells : List UInt16}
    (ran : (beginBody id parameters).run s = some (cells, s')) :
    Step s ⟨.beginBody id parameters, { cells, function := some id }⟩ s' := by
  obtain ⟨few, f, there, rfl, rfl⟩ := (beginBody_iff id parameters cells).mp ran
  have inside : id.toNat < s.image.functions.size := (Array.getElem?_eq_some_iff.mp there).1
  refine ⟨rfl, ?_, rfl, rfl, fun i low _ => ?_, fun indexed => ⟨indexed, .refl _, #[], rfl, nofun⟩, ?_, ?_, nofun,
    nofun⟩
  · exact Array.size_append.trans (congrArg (s.image.globals.size + ·) Array.size_replicate)
  · rw [Array.getElem?_append, if_pos low]
  · exact Nat.le_of_eq Array.size_setIfInBounds.symm
  · rintro _ ⟨⟩
    refine ⟨few, id, rfl, by rwa [Array.size_setIfInBounds], rfl, ?_⟩
    exact row_set (opened · s.image.globals.size parameters) there rfl rfl

theorem beginFunction_step {id : FunctionId} {name : String} {parameters : List ValueType} {cells : List UInt16}
    (ran : (beginFunction name parameters).run s = some ((id, cells), s')) :
    Step s ⟨.beginFunction name parameters, { cells, function := some id }⟩ s' := by
  obtain ⟨s₁, declared, begun⟩ := (beginFunction_iff name parameters id cells).mp ran
  have blank := declare_declares declared
  obtain ⟨given, size, fields, record, kept, strings, table, opening, -, -⟩ := beginBody_step begun
  rw [blank.globals] at given size kept
  rw [blank.record] at fields record
  refine ⟨given, size, fields, record, fun i low _ => kept i low nofun, fun indexed => ?_,
    Nat.le_trans blank.table table, ?_, nofun, nofun⟩
  · obtain ⟨between, first⟩ := blank.strings indexed
    obtain ⟨indexed', second, -⟩ := strings between
    exact ⟨indexed', first.trans second, #[], rfl, nofun⟩
  · intro types opens
    obtain ⟨few, id', answer, inside, current, rows⟩ := opening types opens
    refine ⟨few, id', answer, inside, current, fun k => ?_⟩
    rw [rows, blank.rows, blank.globals]

theorem endFunction_step {u : Unit} (ran : endFunction.run s = some (u, s')) : Step s ⟨.endFunction, {}⟩ s' := by
  rcases endFunction_run ran with ⟨shut, rfl⟩ | ⟨k, f, body, there, rfl⟩
  · refine ⟨rfl, rfl, rfl, rfl, fun _ _ _ => rfl, fun indexed => ⟨indexed, .refl _, #[], rfl, nofun⟩, Nat.le_refl _,
      nofun, fun _ => ⟨shut, fun k => ?_⟩, fun _ inside => nomatch inside⟩
    exact (if_neg (by rw [shut]; exact nofun)).symm
  · refine ⟨rfl, rfl, rfl, rfl, fun _ _ _ => rfl, fun indexed => ⟨indexed, .refl _, #[], rfl, nofun⟩, ?_, nofun,
      fun _ => ⟨rfl, fun i => ?_⟩, fun _ inside => nomatch inside⟩
    · exact Nat.le_of_eq Array.size_setIfInBounds.symm
    · rw [row_set (closed · s.image.globals.size) there rfl rfl, body]
      by_cases same : i = k
      · rw [if_pos same, if_pos (congrArg some same.symm)]
      · rw [if_neg same, if_neg fun equal => same (Option.some.inj equal).symm]

theorem patch_still {place target : Nat} {u : Unit} (ran : (patch place target).run s = some (u, s')) :
    ∃ statements, { s with image := { s.image with statements } } = s' := by
  obtain ⟨statement, -, rfl⟩ : ∃ statement, s.image.statements[place]? = some statement ∧
      { s with image := { s.image with statements :=
        s.image.statements.setIfInBounds place (redirect statement (distance place target)) } } = s' := by
    simpa [patch, modifyImage, Option.bind_eq_some_iff] using ran
  exact ⟨_, rfl⟩

/-- What any request does, while the segment is no longer than its words can name. -/
theorem step_of_perform {e : Entry} (done : e.request.perform.run s = some (e.reply, s'))
    (small : s'.image.globals.size < 65536) : Step s e s' := by
  obtain ⟨request, reply⟩ := e
  cases request with
  | intern text =>
      obtain ⟨id, ran, rfl⟩ := (answered_iff _ _ reply).mp done
      obtain ⟨strings, found, rfl⟩ := (intern_iff text id).mp ran
      exact .of_still rfl ⟨rfl, rfl⟩ ⟨rfl, rfl⟩ rfl (.named _ found (fun _ => rfl) (.inl rfl)) (Nat.le_refl _)
        (row_congr rfl) rfl rfl rfl
  | global name type =>
      obtain ⟨offset, ran, rfl⟩ := (answered_iff _ _ reply).mp done
      obtain ⟨id, strings, found, rfl, rfl⟩ := (global_iff name type offset).mp ran
      exact .of_appended (Array.replicate type.width .zero) rfl (by simp [Request.widths]) rfl rfl rfl
        (.named _ found (fun _ => rfl) (.inl rfl)) (Nat.le_refl _) (row_congr rfl) rfl rfl rfl
  | unnamed type =>
      obtain ⟨offset, ran, rfl⟩ := (answered_iff _ _ reply).mp done
      cases ran
      exact .of_appended (Array.replicate type.width .zero) rfl (by simp [Request.widths]) rfl rfl rfl
        (.unnamed _ rfl rfl (.inl rfl)) (Nat.le_refl _) (row_congr rfl) rfl rfl rfl
  | floatConstant value | vectorConstant value | functionConstant id =>
      obtain ⟨offset, ran, rfl⟩ := (answered_iff _ _ reply).mp done
      exact constant_step ran small ⟨rfl, rfl⟩ rfl rfl rfl
  | stringConstant value =>
      obtain ⟨offset, ran, rfl⟩ := (answered_iff _ _ reply).mp done
      obtain ⟨rfl, id, strings, found, rfl⟩ := stringConstant_run ran small
      exact .of_appended _ rfl rfl rfl rfl rfl (.named _ found (fun named => ⟨id, rfl, named⟩) (.inr rfl))
        (Nat.le_refl _) (row_congr rfl) rfl rfl rfl
  | setGlobal offset cell =>
      obtain ⟨u, ran, rfl⟩ := (answered_iff _ _ reply).mp done
      exact setGlobal_step ran
  | field name type =>
      obtain ⟨ref, ran, rfl⟩ := (answered_iff _ _ reply).mp done
      obtain ⟨id, strings, globalDefs, fieldDefs, found, rfl, rfl⟩ := field_run ran small
      exact .of_appended _ rfl rfl rfl rfl rfl (.named _ found (fun _ => ⟨_, rfl, rfl⟩) (.inr rfl))
        (Nat.le_refl _) (row_congr rfl) rfl rfl rfl
  | declare name =>
      obtain ⟨id, ran, rfl⟩ := (answered_iff _ _ reply).mp done
      exact (declare_declares ran).step ⟨rfl, rfl⟩ rfl rfl rfl
  | native name number =>
      obtain ⟨id, ran, rfl⟩ := (answered_iff _ _ reply).mp done
      exact (native_declares ran).step ⟨rfl, rfl⟩ rfl rfl rfl
  | beginBody id parameters =>
      obtain ⟨cells, ran, rfl⟩ := (answered_iff _ _ reply).mp done
      exact beginBody_step ran
  | beginFunction name parameters =>
      obtain ⟨⟨id, cells⟩, ran, rfl⟩ := (answered_iff _ _ reply).mp done
      exact beginFunction_step ran
  | endFunction =>
      obtain ⟨u, ran, rfl⟩ := (answered_iff _ _ reply).mp done
      exact endFunction_step ran
  | emit | here =>
      obtain ⟨index, ran, rfl⟩ := (answered_iff _ _ reply).mp done
      cases ran
      exact .of_still rfl ⟨rfl, rfl⟩ ⟨rfl, rfl⟩ rfl (.unnamed _ rfl rfl (.inl rfl)) (Nat.le_refl _)
        (row_congr rfl) rfl rfl rfl
  | patch place target =>
      obtain ⟨u, ran, rfl⟩ := (answered_iff _ _ reply).mp done
      obtain ⟨statements, rfl⟩ := patch_still ran
      exact .of_still rfl ⟨rfl, rfl⟩ ⟨rfl, rfl⟩ rfl (.unnamed _ rfl rfl (.inl rfl)) (Nat.le_refl _)
        (row_congr rfl) rfl rfl rfl

end Operations

end Assembler
end EntityMachine
