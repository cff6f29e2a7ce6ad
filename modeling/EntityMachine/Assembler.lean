import EntityMachine.Program

/-! Assembling images by hand. The assembler lays out globals, fields and functions one after the
other and hands the result to the program's checks. It starts from a null statement, a null function
and the reserved slots. Offsets are sixteen bits wide: past 65536 cells they start again at zero
while the segment keeps growing. A step that names a function or cell that does not exist has no
result. -/
namespace EntityMachine

structure Assembler where
  image : Image
  current : Option Nat
  deriving Inhabited

abbrev Assemble := StateT Assembler Option

/-- A field of records, and the global that holds its offset for loads and address formation. -/
structure FieldRef where
  field : UInt16
  global : UInt16
  deriving DecidableEq, Repr

namespace Assembler

def start : Assembler where
  image := {
    statements := #[.ofOpcode .done 0 0 0]
    functions := #[{}]
    globals := Array.replicate Slot.reserved .zero
    strings := .empty }
  current := none

def modifyImage (change : Image → Image) : Assemble Unit :=
  modify fun s => { s with image := change s.image }

def intern (text : String) : Assemble StringId := do
  let s ← get
  let (id, strings) ← s.image.strings.intern? text
  set { s with image := { s.image with strings } }
  return id

/-! ## Globals and fields -/

def allocate (width : Nat) : Assemble UInt16 := modifyGet fun s =>
  (UInt16.ofNat s.image.globals.size,
    { s with image := { s.image with globals := s.image.globals ++ Array.replicate width .zero } })

def assign (offset : Nat) (cells : Array Cell) : Assemble Unit := do
  let s ← get
  let segment ← (Segment.mk s.image.globals).write? offset cells
  set { s with image := { s.image with globals := segment.cells } }

def constant (cells : Array Cell) : Assemble UInt16 := do
  let offset ← allocate cells.size
  assign offset.toNat cells
  return offset

def floatConstant (value : Single) : Assemble UInt16 := constant #[.ofSingle value]

def vectorConstant (value : Vec3) : Assemble UInt16 := constant value.cells

def stringConstant (value : String) : Assemble UInt16 := do
  let id ← intern value
  constant #[.ofString id]

def functionConstant (id : FunctionId) : Assemble UInt16 := constant #[.ofFunction id]

def unnamed (type : ValueType) : Assemble UInt16 := allocate type.width

def setGlobal (offset : UInt16) (cell : Cell) : Assemble Unit := assign offset.toNat #[cell]

def global (name : String) (type : ValueType) : Assemble UInt16 := do
  let offset ← allocate type.width
  let name ← intern name
  modifyImage fun image =>
    { image with globalDefs := image.globalDefs.push { type, offset, name, save := true } }
  return offset

def field (name : String) (type : ValueType) : Assemble FieldRef := do
  let field := UInt16.ofNat (← get).image.entityFields
  let name ← intern name
  modifyImage fun image =>
    { image with
      entityFields := image.entityFields + type.width
      fieldDefs := image.fieldDefs.push { type, offset := field, name, save := true } }
  let global ← constant #[.ofInt field.toNat]
  modifyImage fun image =>
    { image with
      globalDefs := image.globalDefs.push { type := .field, offset := global, name, save := false } }
  return { field, global }

/-! ## Functions -/

def modifyFunction (index : Nat) (change : Function → Function) : Assemble Unit := do
  let s ← get
  let f ← s.image.functions[index]?
  modifyImage fun image =>
    { image with functions := image.functions.setIfInBounds index (change f) }

def declare (name : String) : Assemble FunctionId := do
  let name ← intern name
  let file ← intern "builder"
  modifyGet fun s =>
    (.ofNat s.image.functions.size,
      { s with image := { s.image with functions := s.image.functions.push { name, file } } })

/-- Adds a native function. Its number is negated in 32 bits, where one number has no negation. -/
def native (name : String) (number : UInt32) : Assemble FunctionId := do
  if number = 0x80000000 then failure
  let id ← declare name
  modifyFunction id.toNat fun f => { f with first := (-number.toInt32).toInt }
  return id

/-- Opens the body of a declared function and lays out its parameters. Everything allocated until
the body is closed belongs to the cells that its calls save. -/
def beginBody (id : FunctionId) (parameters : List ValueType) : Assemble (List UInt16) := do
  if Slot.maxParameters < parameters.length then failure
  let first := (← get).image.statements.size
  let parmStart := UInt16.ofNat (← get).image.globals.size
  let offsets ← parameters.mapM fun type => allocate type.width
  let sizes := parameters.map fun type => UInt8.ofNat type.width
  modifyFunction id.toNat fun f =>
    { f with
      first := (Int32.ofNat first).toInt
      parmStart
      numParms := UInt8.ofNat parameters.length
      parmSizes := Vector.ofFn fun i => sizes.getD i 0 }
  modify fun s => { s with current := some id.toNat }
  return offsets

def beginFunction (name : String) (parameters : List ValueType) :
    Assemble (FunctionId × List UInt16) := do
  let id ← declare name
  return (id, ← beginBody id parameters)

def endFunction : Assemble Unit := do
  let s ← get
  match s.current with
  | none => return ()
  | some index =>
    set { s with current := none }
    modifyFunction index fun f =>
      { f with locals := UInt16.ofNat s.image.globals.size - f.parmStart }

/-! ## Statements -/

def emit (op : Opcode) (a b c : UInt16) : Assemble Nat := modifyGet fun s =>
  (s.image.statements.size,
    { s with image := { s.image with statements := s.image.statements.push (.ofOpcode op a b c) } })

def here : Assemble Nat := return (← get).image.statements.size

/-- The operand of a branch from one statement to another; distances have sixteen bits. -/
def distance (place target : Nat) : UInt16 := UInt16.ofNat target - UInt16.ofNat place

def redirect (s : Statement) (distance : UInt16) : Statement :=
  if s.op.toNat = Opcode.goto.number then { s with a := distance } else { s with b := distance }

/-- The distance between two statements, each number cut to a signed word, is a signed word again. -/
def inReach (place target : Nat) : Bool :=
  let gap := Int.bmod target 0x10000 - Int.bmod place 0x10000
  decide (-0x8000 ≤ gap ∧ gap < 0x8000)

def patch (place target : Nat) : Assemble Unit := do
  let s ← get
  let statement ← s.image.statements[place]?
  modifyImage fun image =>
    { image with statements :=
      image.statements.setIfInBounds place (redirect statement (distance place target)) }

def build (s : Assembler) : Option (Except Error Program) := do
  let (_, s) ← endFunction.run s
  return Program.ofImage s.image

end Assembler
end EntityMachine
