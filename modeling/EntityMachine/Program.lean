import EntityMachine.Cell
import EntityMachine.Entities
import EntityMachine.Opcode
import EntityMachine.Segment
import EntityMachine.StringPool

/-! Programs: images that passed their checks, with the places of the globals and fields that the
machine itself reads. A program never changes. -/
namespace EntityMachine

/-! ## Images

What a compiler produces, before any check. Names are ids into the image's own
string pool. -/

/-- One instruction. The opcode is kept as a number, since an unknown one fails only when it runs. -/
structure Statement where
  op : UInt16
  a : UInt16
  b : UInt16
  c : UInt16
  deriving DecidableEq, Inhabited, Repr

structure Function where
  /-- First statement, or the negated number of a native function. -/
  first : Int := 0
  parmStart : UInt16 := 0
  /-- Cells from there on that calls save, parameters included. -/
  locals : UInt16 := 0
  numParms : UInt8 := 0
  parmSizes : Vector UInt8 8 := Vector.replicate 8 0
  name : StringId := .null
  file : StringId := .null
  deriving DecidableEq, Inhabited, Repr

structure Definition where
  type : ValueType
  offset : UInt16
  name : StringId
  save : Bool
  deriving DecidableEq, Inhabited, Repr

structure Image where
  statements : Array Statement := #[]
  /-- Row 0 is the null function. -/
  functions : Array Function := #[]
  globals : Array Cell := #[]
  strings : StringPool := .empty
  globalDefs : Array Definition := #[]
  fieldDefs : Array Definition := #[]
  entityFields : Nat := 0
  deriving Inhabited

namespace Statement

def ofOpcode (op : Opcode) (a b c : UInt16) : Statement := ⟨UInt16.ofNat op.number, a, b, c⟩

def opcode? (s : Statement) : Option Opcode := Opcode.ofNumber? s.op

def signed (operand : UInt16) : Int := operand.toInt16.toInt

end Statement

namespace Function

def isNative (f : Function) : Bool := decide (f.first < 0)

def nativeNumber? (f : Function) : Option Nat := if f.first < 0 then some f.first.natAbs else none

def localsStart (f : Function) : Nat := f.parmStart.toNat

def localsEnd (f : Function) : Nat := f.parmStart.toNat + f.locals.toNat

def declaredSizes (f : Function) : List Nat := (f.parmSizes.toList.take f.numParms.toNat).map (·.toNat)

def declaredCells (f : Function) : Nat := f.declaredSizes.foldr Nat.add 0

end Function

namespace Image

def functionName (image : Image) (id : FunctionId) : String :=
  if id.isNull then "<null>"
  else match image.functions[id.toNat]? with
    | some f => image.strings.resolve f.name
    | none => "<invalid>"

def findFunction? (image : Image) (name : String) : Option FunctionId :=
  (((image.functions.toList).drop 1).findIdx? fun f => image.strings.resolve f.name == name).map
    fun i => .ofNat (i + 1)

def definitionName (image : Image) (d : Definition) : String := image.strings.resolve d.name

def findGlobal? (image : Image) (name : String) : Option Definition :=
  image.globalDefs.find? fun d => image.definitionName d == name

def findField? (image : Image) (name : String) : Option Definition :=
  image.fieldDefs.find? fun d => image.definitionName d == name

def globalAt? (image : Image) (offset : UInt16) : Option Definition :=
  image.globalDefs.find? fun d => d.offset == offset

def fieldAt? (image : Image) (offset : UInt16) : Option Definition :=
  image.fieldDefs.find? fun d => d.offset == offset

end Image

/-! ## Checks

Execution reads and writes the segment without asking again, so whatever an
instruction, a call or a definition can reach is checked here. Unknown opcodes pass: they fail when
they run. Reported is the first defect in the order segment, function table, statements, functions,
globals, fields. -/

inductive Defect where
  | shortSegment (cells : Nat)
  | noNullFunction
  | operandOutside (statement : Nat) (mnemonic : String) (offset segment : Nat)
  | startPastEnd (function : Nat) (first : Int) (statements : Nat)
  | localsOutside (function first last segment : Nat)
  | tooManyParameters (function parameters : Nat)
  | badParameterSizes (function : Nat)
  | globalOutside (offset segment : Nat)
  | fieldOutside (offset record : Nat)
  deriving DecidableEq, Repr

namespace Defect

def message : Defect → String
  | shortSegment cells =>
    s!"global segment has {cells} cells, need at least {Slot.reserved}"
  | noNullFunction => "function table has no null entry"
  | operandOutside statement mnemonic offset segment =>
    s!"statement {statement} ({mnemonic}) addresses global {offset} outside segment of {segment}"
  | startPastEnd function first statements =>
    s!"function {function} starts at statement {first} past end of {statements}"
  | localsOutside function first last segment =>
    s!"function {function} locals {first}..{last} outside segment of {segment}"
  | tooManyParameters function parameters =>
    s!"function {function} declares {parameters} parameters"
  | badParameterSizes function => s!"function {function} has malformed parameter sizes"
  | globalOutside offset segment =>
    s!"global definition at {offset} outside segment of {segment}"
  | fieldOutside offset record => s!"field definition at {offset} outside record of {record}"

end Defect

def Operand.outside (segment : Nat) (operand : Operand) (value : UInt16) : Bool :=
  match operand with
  | .global width => decide (segment < value.toNat + width)
  | _ => false

namespace Statement

def outside? (s : Statement) (op : Opcode) (segment : Nat) : Option UInt16 :=
  let (a, b, c) := op.operands
  if a.outside segment s.a then some s.a
  else if b.outside segment s.b then some s.b
  else if c.outside segment s.c then some s.c
  else none

def defect? (s : Statement) (index segment : Nat) : Option Defect :=
  match s.opcode? with
  | none => none
  | some op => (s.outside? op segment).map fun offset =>
      .operandOutside index op.mnemonic offset.toNat segment

end Statement

namespace Function

def defect? (f : Function) (index statements segment : Nat) : Option Defect :=
  if !f.isNative && decide ((statements : Int) ≤ f.first) then
    some (.startPastEnd index f.first statements)
  else if segment < f.localsEnd then
    some (.localsOutside index f.localsStart f.localsEnd segment)
  else if Slot.maxParameters < f.numParms.toNat then
    some (.tooManyParameters index f.numParms.toNat)
  else if f.parmSizes.toList.any (fun size => decide (3 < size)) ||
      (!f.isNative && decide (f.locals.toNat < f.declaredCells)) then
    some (.badParameterSizes index)
  else none

end Function

namespace Image

def tableDefect? (image : Image) : Option Defect :=
  if image.globals.size < Slot.reserved then some (.shortSegment image.globals.size)
  else if image.functions.isEmpty then some .noNullFunction
  else none

def statementDefect? (image : Image) : Option Defect :=
  image.statements.toList.zipIdx.findSome? fun (s, i) => s.defect? i image.globals.size

def functionDefect? (image : Image) : Option Defect :=
  (image.functions.toList.zipIdx.drop 1).findSome? fun (f, i) =>
    f.defect? i image.statements.size image.globals.size

def globalDefect? (image : Image) : Option Defect :=
  (image.globalDefs.find? fun d =>
    decide (image.globals.size < d.offset.toNat + d.type.width)).map
    fun d => .globalOutside d.offset.toNat image.globals.size

def fieldDefect? (image : Image) : Option Defect :=
  (image.fieldDefs.find? fun d =>
    decide (image.entityFields < d.offset.toNat + d.type.width)).map
    fun d => .fieldOutside d.offset.toNat image.entityFields

def defect? (image : Image) : Option Defect :=
  image.tableDefect? <|> image.statementDefect? <|> image.functionDefect? <|>
    image.globalDefect? <|> image.fieldDefect?

end Image

/-! ## Accepted images -/

structure SystemGlobals where
  self : Option UInt16 := none
  other : Option UInt16 := none
  world : Option UInt16 := none
  time : Option UInt16 := none
  deriving DecidableEq, Inhabited, Repr

def Image.systemGlobals (image : Image) : SystemGlobals where
  self := (image.findGlobal? "self").map (·.offset)
  other := (image.findGlobal? "other").map (·.offset)
  world := (image.findGlobal? "world").map (·.offset)
  time := (image.findGlobal? "time").map (·.offset)

def Image.systemFields (image : Image) : SystemFields :=
  .resolve fun name => (image.findField? name).map (·.offset)

structure Program where
  image : Image
  globals : SystemGlobals
  fields : SystemFields
  sound : image.defect? = none
  globals_eq : globals = image.systemGlobals
  fields_eq : fields = image.systemFields

namespace Program

def ofImage (image : Image) : Except Error Program :=
  match h : image.defect? with
  | none => .ok {
      image, sound := h
      globals := image.systemGlobals, globals_eq := rfl
      fields := image.systemFields, fields_eq := rfl }
  | some defect => .error { cause := .invalidProgram defect.message }

def statement? (p : Program) (index : Nat) : Option Statement := p.image.statements[index]?

def function (p : Program) (id : FunctionId) : Outcome Function :=
  if id.isNull then .fail .nullFunction
  else match p.image.functions[id.toNat]? with
    | some f => .ok f
    | none => .fail (.badFunction id)

def functionName (p : Program) (id : FunctionId) : String := p.image.functionName id

def layout (p : Program) : Layout := { fieldCount := p.image.entityFields, system := p.fields }

/-- Saved state was made by a program with this segment and these records. -/
def checkState (p : Program) (globals : Segment) (entities : Entities) : Outcome Unit :=
  if globals.size ≠ p.image.globals.size then
    let saved := globals.size
    let expected := p.image.globals.size
    .fail (.serialization s!"saved state has {saved} globals, program has {expected}")
  else if entities.layout ≠ p.layout then
    let saved := entities.layout.fieldCount
    let expected := p.image.entityFields
    .fail (.serialization s!"saved records have {saved} fields, program has {expected}")
  else .ok ()

end Program

end EntityMachine
