import EntityMachine.Single
import EntityMachine.Text

/-! Cells and the identifiers they hold. A cell is 32 bits; whoever reads it decides whether they are
a number, an integer, a string, a function, an entity or a field address. Nothing says which. -/
namespace EntityMachine

/-- A record of the entity table; record 0 is the world. -/
structure EntityIndex where
  index : UInt32
  deriving DecidableEq, Inhabited, Repr

structure FunctionId where
  index : UInt32
  deriving DecidableEq, Inhabited, Repr

structure StringId where
  offset : UInt32
  deriving DecidableEq, Inhabited, Repr

/-- One field of one record: the record in the high half, the field offset in the low half. -/
structure FieldAddress where
  bits : UInt32
  deriving DecidableEq, Inhabited, Repr

structure Cell where
  bits : UInt32
  deriving DecidableEq, Inhabited, Repr

structure Vec3 where
  x : Single
  y : Single
  z : Single
  deriving DecidableEq, Inhabited, Repr

namespace EntityIndex

def world : EntityIndex := ⟨0⟩

def ofNat (n : Nat) : EntityIndex := ⟨UInt32.ofNat n⟩

def toNat (e : EntityIndex) : Nat := e.index.toNat

def isWorld (e : EntityIndex) : Bool := e.index == 0

def label (e : EntityIndex) : String := s!"edict {e.index}"

def inspect (e : EntityIndex) : String :=
  if e.isWorld then "EntityIndex(world)" else s!"EntityIndex({e.index})"

end EntityIndex

namespace FunctionId

def null : FunctionId := ⟨0⟩

def ofNat (n : Nat) : FunctionId := ⟨UInt32.ofNat n⟩

def toNat (f : FunctionId) : Nat := f.index.toNat

def isNull (f : FunctionId) : Bool := f.index == 0

def label (f : FunctionId) : String := s!"function #{f.index}"

def inspect (f : FunctionId) : String := s!"FunctionId({f.index})"

end FunctionId

namespace StringId

def null : StringId := ⟨0⟩

def ofNat (n : Nat) : StringId := ⟨UInt32.ofNat n⟩

def toNat (s : StringId) : Nat := s.offset.toNat

def isNull (s : StringId) : Bool := s.offset == 0

def inspect (s : StringId) : String := s!"StringId({s.offset})"

end StringId

namespace FieldAddress

def encode? (entity : EntityIndex) (field : UInt32) : Option FieldAddress :=
  if entity.index ≤ 0xffff ∧ field ≤ 0xffff then some ⟨entity.index <<< 16 ||| field⟩ else none

def entity (a : FieldAddress) : EntityIndex := ⟨a.bits >>> 16⟩

def field (a : FieldAddress) : UInt32 := a.bits &&& 0xffff

def inspect (a : FieldAddress) : String :=
  s!"FieldAddress({a.entity.index}.{a.field})"

end FieldAddress

namespace Cell

def zero : Cell := ⟨0⟩

def ofSingle (x : Single) : Cell := ⟨x.bits⟩

def ofInt (i : Int) : Cell := ⟨(Int32.ofInt i).toUInt32⟩

def ofString (s : StringId) : Cell := ⟨s.offset⟩

def ofFunction (f : FunctionId) : Cell := ⟨f.index⟩

def ofEntity (e : EntityIndex) : Cell := ⟨e.index⟩

def ofAddress (a : FieldAddress) : Cell := ⟨a.bits⟩

def ofBool (b : Bool) : Cell := if b then ofSingle Single.one else zero

def single (c : Cell) : Single := ⟨c.bits⟩

def int (c : Cell) : Int := c.bits.toInt32.toInt

def string (c : Cell) : StringId := ⟨c.bits⟩

def function (c : Cell) : FunctionId := ⟨c.bits⟩

def entity (c : Cell) : EntityIndex := ⟨c.bits⟩

def address (c : Cell) : FieldAddress := ⟨c.bits⟩

/-- Every bit is zero; the negative zero number is not. -/
def isZero (c : Cell) : Bool := c.bits == 0

def inspect (c : Cell) : String :=
  "Cell(0x" ++ Text.zeroPadded 8 (Text.hexadecimal c.bits.toNat) ++ ")"

end Cell

namespace Vec3

def zero : Vec3 := ⟨Single.zero, Single.zero, Single.zero⟩

def add (v w : Vec3) : Vec3 := ⟨v.x + w.x, v.y + w.y, v.z + w.z⟩

def sub (v w : Vec3) : Vec3 := ⟨v.x - w.x, v.y - w.y, v.z - w.z⟩

/-- Each product and each sum is rounded, from left to right. -/
def dot (v w : Vec3) : Single := v.x * w.x + v.y * w.y + v.z * w.z

def scale (k : Single) (v : Vec3) : Vec3 := ⟨k * v.x, k * v.y, k * v.z⟩

def eq (v w : Vec3) : Bool := v.x.eq w.x && v.y.eq w.y && v.z.eq w.z

def cells (v : Vec3) : Array Cell := #[.ofSingle v.x, .ofSingle v.y, .ofSingle v.z]

end Vec3

/-! ## Declared types

Types of globals and fields. Execution never asks for them; listings and name lookups
show values as the program meant them. -/

inductive ValueType where
  | void | string | float | vector | entity | field | function | pointer
  deriving DecidableEq, Repr, Inhabited

namespace ValueType

def all : List ValueType := [void, string, float, vector, entity, field, function, pointer]

def tag : ValueType → Nat
  | void => 0
  | string => 1
  | float => 2
  | vector => 3
  | entity => 4
  | field => 5
  | function => 6
  | pointer => 7

def ofTag? (tag : Nat) : Option ValueType := all[tag]?

def name : ValueType → String
  | void => "void"
  | string => "string"
  | float => "float"
  | vector => "vector"
  | entity => "entity"
  | field => "field"
  | function => "function"
  | pointer => "pointer"

def width : ValueType → Nat
  | vector => 3
  | _ => 1

end ValueType

end EntityMachine
