import EntityMachine.Program
import EntityMachine.Single
import EntityMachine.Text

/-! Listings: values, statements, functions and entities as text. -/
namespace EntityMachine

/-! ## Values -/

namespace Listing

def fieldText (image : Image) (offset : Int) : String :=
  let definition := if 0 ≤ offset ∧ offset < 0x10000 then
    image.fieldAt? (UInt16.ofNat offset.toNat) else none
  match definition with
  | some d => "." ++ image.definitionName d
  | none => "." ++ toString offset

def vectorText (v : Vec3) : String := s!"{v.x.text} {v.y.text} {v.z.text}"

/-- The first cells, as many as the type takes; a question mark where there are too few. -/
def valueText (image : Image) (strings : StringPool) (type : ValueType) (cells : Array Cell) :
    String :=
  match cells[0]? with
  | none => "?"
  | some first =>
    match type with
    | .void => "void"
    | .string => Text.quoted (strings.resolve first.string)
    | .float => first.single.text
    | .vector =>
      match (Segment.mk cells).vector? 0 with
      | some v => "'" ++ vectorText v ++ "'"
      | none => "?"
    | .entity => first.entity.label
    | .field => fieldText image first.int
    | .function => image.functionName first.function ++ "()"
    | .pointer => "&" ++ first.address.entity.label ++ fieldText image first.address.field.toNat

end Listing

/-! ## Statements

Index, mnemonic and operands. An operand shows the name of the global at its
offset and, given a segment, the value there; a destination shows none, since it is about to be
overwritten. -/

inductive Place where
  | a | b | c
  deriving DecidableEq, Repr

namespace Kind

def type : Kind → ValueType
  | float => .float
  | vector => .vector
  | string => .string
  | entity => .entity
  | field => .field
  | function => .function

end Kind

namespace Comparand

def type : Comparand → ValueType
  | float => .float
  | vector => .vector
  | string => .string
  | entity => .entity
  | function => .function

end Comparand

namespace Opcode

def destination? : Opcode → Option Place
  | store _ => some .b
  | storeThrough _ | done | ret | branchIf | branchUnless | goto | state | call _ => none
  | mulF | mulV | mulFV | mulVF | divF | addF | addV | subF | subV | equal _ | notEqual _ | le | ge
  | lt | gt | load _ | address | not _ | and | or | bitAnd | bitOr => some .c

def operandType (op : Opcode) (place : Place) (width : Nat) : ValueType :=
  match op, place with
  | call _, .a | state, .b => .function
  | equal kind, .a | equal kind, .b | notEqual kind, .a | notEqual kind, .b => kind.type
  | not kind, .a => kind.type
  | store kind, .a | store kind, .b => kind.type
  | storeThrough kind, .a => kind.type
  | storeThrough .function, .b => .function
  | storeThrough _, .b => .pointer
  | load _, .a | address, .a => .entity
  | load _, .b | address, .b => .field
  | load kind, .c => kind.type
  | address, .c => .pointer
  | _, _ => if width = 3 then .vector else .float

end Opcode

namespace Listing

structure Source where
  image : Image
  strings : StringPool
  globals : Option Segment

def globalValue (source : Source) (globals : Segment) (offset : UInt16) (type : ValueType) :
    String :=
  let last := min (offset.toNat + type.width) globals.size
  let cells := globals.cells.extract offset.toNat last
  "(" ++ valueText source.image source.strings type cells ++ ")"

def globalText (source : Source) (offset : UInt16) (hint : ValueType) (withValue : Bool) :
    String :=
  let definition := source.image.globalAt? offset
  let name := match definition with
    | some d => source.image.definitionName d
    | none => s!"#{offset}"
  match withValue, source.globals with
  | true, some globals =>
    name ++ globalValue source globals offset ((definition.map (·.type)).getD hint)
  | _, _ => name

/-- A distance and the statement it leads to; targets are shown as signed 64-bit numbers. -/
def branchText (index : Nat) (operand : UInt16) : String :=
  let distance := Statement.signed operand
  let target := Int.bmod (index + distance) 0x10000000000000000
  s!"branch {Text.withSign distance} ({target})"

/-- The text of an operand, if it has one. A return without a value names offset 0. -/
def operandText (source : Source) (index : Nat) (op : Opcode) (place : Place) (operand : Operand)
    (value : UInt16) : Option String :=
  match operand with
  | .unused => none
  | .distance => some (branchText index value)
  | .global width =>
    if value = 0 ∧ (op = .done ∨ op = .ret) then none
    else some (globalText source value (op.operandType place width)
      (decide (op.destination? ≠ some place)))

def leadsSomewhere (index : Nat) (operand : Operand) (value : UInt16) : Bool :=
  match operand with
  | .distance =>
    let target := Int.bmod index 0x10000000000000000 + Statement.signed value
    decide (-0x8000000000000000 ≤ target ∧ target < 0x8000000000000000)
  | _ => true

def hasTargets (index : Nat) (s : Statement) : Bool :=
  match s.opcode? with
  | none => true
  | some op =>
    let (a, b, c) := op.operands
    leadsSomewhere index a s.a && leadsSomewhere index b s.b && leadsSomewhere index c s.c

def statementText (source : Source) (index : Nat) (s : Statement) : String :=
  let number := Text.alignRight 5 (toString index)
  match s.opcode? with
  | none => s!"{number}: ?{s.op} {s.a} {s.b} {s.c}"
  | some op =>
    let (a, b, c) := op.operands
    let operands := [operandText source index op .a a s.a, operandText source index op .b b s.b,
      operandText source index op .c c s.c]
    Text.trimEnd (number ++ ": " ++ Text.alignLeft 12 op.mnemonic ++
      ", ".intercalate (operands.filterMap id))

/-- The text of a statement at any index, unless a branch of it leads nowhere. -/
def statementText? (source : Source) (index : Nat) (s : Statement) : Option String :=
  if hasTargets index s then some (statementText source index s) else none

/-! ## Functions

A body runs from the function's first statement up to the next higher first
statement in the function table, or to the end of the code. -/

/-- First statements of the functions with a body, the null function's row included. -/
def bodyStarts (image : Image) : List Nat :=
  (image.functions.toList.filter fun f => !f.isNative).map fun f => f.first.toNat

def bodyEnd (image : Image) (start : Nat) : Nat :=
  (((bodyStarts image).filter (start < ·)).min?).getD image.statements.size

def body? (image : Image) (start : Nat) : Option (List (Nat × Statement)) :=
  let last := bodyEnd image start
  if start ≤ last ∧ last ≤ image.statements.size then
    some ((image.statements.extract start last).toList.zipIdx.map fun (s, i) => (start + i, s))
  else none

def functionText (program : Program) (id : FunctionId) : Outcome String := do
  let image := program.image
  let f ← program.function id
  let name := program.functionName id
  match f.nativeNumber? with
  | some number => return s!"{name}: builtin #{number}\n"
  | none =>
    let source : Source := { image, strings := image.strings, globals := none }
    let statements ← Outcome.ofOption (body? image f.first.toNat)
    let file := image.strings.resolve f.file
    let header := s!"{name} ({file}) parms {f.numParms} locals {f.locals}"
    return Text.unlines (header :: statements.map fun (i, s) => statementText source i s)

/-! ## Entities

A record by field name, only fields that are not all zero. The components of a
vector are left out, since the vector itself is listed. -/

/-- A name of more than two bytes that ends like a vector's component. -/
def isComponent (name : String) : Bool :=
  decide (2 < name.utf8ByteSize) &&
    (name.endsWith "_x" || name.endsWith "_y" || name.endsWith "_z")

def fieldLine? (image : Image) (strings : StringPool) (record : Array Cell) (d : Definition) :
    Option String :=
  let name := image.definitionName d
  if name.isEmpty || isComponent name then none
  else do
    let cells ← (Segment.mk record).slice? d.offset.toNat (d.offset.toNat + d.type.width)
    if cells.all Cell.isZero then none
    else some (Text.alignRight 15 name ++ " " ++ valueText image strings d.type cells)

def entityText (image : Image) (strings : StringPool) (entities : Entities) (e : EntityIndex) :
    Outcome String := do
  let s ← entities.state e
  if s.free then return e.label ++ ": free\n"
  let record ← entities.record e
  return Text.unlines
    ((e.label ++ ":") :: image.fieldDefs.toList.filterMap (fieldLine? image strings record))

def entitiesText (image : Image) (strings : StringPool) (entities : Entities) : Outcome String := do
  let texts ← entities.live.mapM (entityText image strings entities)
  let count := s!"{entities.liveCount} in use, {entities.size} records, capacity {entities.capacity}"
  return String.join texts ++ count ++ "\n"

end Listing

end EntityMachine
