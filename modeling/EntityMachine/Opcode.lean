/-! The instruction set. An instruction names three operands, most of them offsets into the segment;
branches use one as a distance in statements. Families that differ only in the kind of value share a
constructor. The numbers are fixed by the compilers that emit them. -/
namespace EntityMachine

inductive Kind where
  | float | vector | string | entity | field | function
  deriving DecidableEq, Repr, Inhabited

inductive Comparand where
  | float | vector | string | entity | function
  deriving DecidableEq, Repr, Inhabited

inductive Opcode where
  | done
  | mulF | mulV | mulFV | mulVF | divF | addF | addV | subF | subV
  | equal (kind : Comparand)
  | notEqual (kind : Comparand)
  | le | ge | lt | gt
  | load (kind : Kind)
  | address
  | store (kind : Kind)
  | storeThrough (kind : Kind)
  | ret
  | not (kind : Comparand)
  | branchIf
  | branchUnless
  | call (arguments : Fin 9)
  | state
  | goto
  | and | or
  | bitAnd | bitOr
  deriving DecidableEq, Repr, Inhabited

inductive Operand where
  | unused
  /-- An offset into the segment, spanning this many cells. -/
  | global (width : Nat)
  | distance
  deriving DecidableEq, Repr

namespace Kind

def all : List Kind := [float, vector, string, entity, field, function]

def width : Kind → Nat
  | vector => 3
  | _ => 1

def place : Kind → Nat
  | float => 0
  | vector => 1
  | string => 2
  | entity => 3
  | field => 4
  | function => 5

end Kind

namespace Comparand

def all : List Comparand := [float, vector, string, entity, function]

def width : Comparand → Nat
  | vector => 3
  | _ => 1

def place : Comparand → Nat
  | float => 0
  | vector => 1
  | string => 2
  | entity => 3
  | function => 4

end Comparand

namespace Opcode

/-- Every opcode, at its number. -/
def all : Array Opcode := Array.mk <|
  [done, mulF, mulV, mulFV, mulVF, divF, addF, addV, subF, subV] ++
    Comparand.all.map equal ++ Comparand.all.map notEqual ++ [le, ge, lt, gt] ++
    Kind.all.map load ++ [address] ++ Kind.all.map store ++ Kind.all.map storeThrough ++ [ret] ++
    Comparand.all.map not ++ [branchIf, branchUnless] ++ (List.finRange 9).map call ++
    [state, goto, and, or, bitAnd, bitOr]

def ofNumber? (number : UInt16) : Option Opcode := all[number.toNat]?

def number : Opcode → Nat
  | done => 0
  | mulF => 1
  | mulV => 2
  | mulFV => 3
  | mulVF => 4
  | divF => 5
  | addF => 6
  | addV => 7
  | subF => 8
  | subV => 9
  | equal kind => 10 + kind.place
  | notEqual kind => 15 + kind.place
  | le => 20
  | ge => 21
  | lt => 22
  | gt => 23
  | load kind => 24 + kind.place
  | address => 30
  | store kind => 31 + kind.place
  | storeThrough kind => 37 + kind.place
  | ret => 43
  | not kind => 44 + kind.place
  | branchIf => 49
  | branchUnless => 50
  | call arguments => 51 + arguments
  | state => 60
  | goto => 61
  | and => 62
  | or => 63
  | bitAnd => 64
  | bitOr => 65

def callWith? (arguments : Nat) : Option Opcode :=
  if h : arguments < 9 then some (call ⟨arguments, h⟩) else none

def callArguments? : Opcode → Option Nat
  | call arguments => some arguments
  | _ => none

def mnemonic : Opcode → String
  | done => "DONE"
  | mulF => "MUL_F"
  | mulV => "MUL_V"
  | mulFV => "MUL_FV"
  | mulVF => "MUL_VF"
  | divF => "DIV"
  | addF => "ADD_F"
  | addV => "ADD_V"
  | subF => "SUB_F"
  | subV => "SUB_V"
  | equal .float => "EQ_F"
  | equal .vector => "EQ_V"
  | equal .string => "EQ_S"
  | equal .entity => "EQ_E"
  | equal .function => "EQ_FNC"
  | notEqual .float => "NE_F"
  | notEqual .vector => "NE_V"
  | notEqual .string => "NE_S"
  | notEqual .entity => "NE_E"
  | notEqual .function => "NE_FNC"
  | le => "LE"
  | ge => "GE"
  | lt => "LT"
  | gt => "GT"
  | load .float => "INDIRECT"
  | load .vector => "INDIRECT_V"
  | load .string => "INDIRECT_S"
  | load .entity => "INDIRECT_E"
  | load .field => "INDIRECT_FI"
  | load .function => "INDIRECT_FU"
  | address => "ADDRESS"
  | store .float => "STORE_F"
  | store .vector => "STORE_V"
  | store .string => "STORE_S"
  | store .entity => "STORE_ENT"
  | store .field => "STORE_FLD"
  | store .function => "STORE_FNC"
  | storeThrough .float => "STOREP_F"
  | storeThrough .vector => "STOREP_V"
  | storeThrough .string => "STOREP_S"
  | storeThrough .entity => "STOREP_ENT"
  | storeThrough .field => "STOREP_FLD"
  | storeThrough .function => "STOREP_FNC"
  | ret => "RETURN"
  | not .float => "NOT_F"
  | not .vector => "NOT_V"
  | not .string => "NOT_S"
  | not .entity => "NOT_ENT"
  | not .function => "NOT_FNC"
  | branchIf => "IF"
  | branchUnless => "IFNOT"
  | call arguments => s!"CALL{arguments}"
  | state => "STATE"
  | goto => "GOTO"
  | and => "AND"
  | or => "OR"
  | bitAnd => "BITAND"
  | bitOr => "BITOR"

def operands : Opcode → Operand × Operand × Operand
  | done | ret | call _ => (.global 1, .unused, .unused)
  | mulF | divF | addF | subF | le | ge | lt | gt | and | or | bitAnd | bitOr | address =>
    (.global 1, .global 1, .global 1)
  | mulV => (.global 3, .global 3, .global 1)
  | mulFV => (.global 1, .global 3, .global 3)
  | mulVF => (.global 3, .global 1, .global 3)
  | addV | subV => (.global 3, .global 3, .global 3)
  | equal kind | notEqual kind => (.global kind.width, .global kind.width, .global 1)
  | load kind => (.global 1, .global 1, .global kind.width)
  | store kind => (.global kind.width, .global kind.width, .unused)
  | storeThrough kind => (.global kind.width, .global 1, .unused)
  | not kind => (.global kind.width, .unused, .global 1)
  | branchIf | branchUnless => (.global 1, .distance, .unused)
  | state => (.global 1, .global 1, .unused)
  | goto => (.distance, .unused, .unused)

end Opcode
end EntityMachine
