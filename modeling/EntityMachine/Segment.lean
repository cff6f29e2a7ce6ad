import EntityMachine.Error

/-! The global segment: one row of cells for every global, parameter and local. An access outside it
has no result; a program that passed its checks makes none. -/
namespace EntityMachine

/-! ## Slots

Fixed places at the bottom of every segment: cell 0, which reads as zero, the return slot and
eight parameter slots. A slot is three cells wide so that it holds a vector. -/

namespace Slot

def width : Nat := 3

def returnSlot : Nat := 1

def firstParameter : Nat := 4

def maxParameters : Nat := 8

/-- First cell that a program may lay out itself. -/
def reserved : Nat := firstParameter + maxParameters * width

def parameter? (n : Nat) : Option Nat :=
  if n < maxParameters then some (firstParameter + n * width) else none

end Slot

structure Segment where
  cells : Array Cell
  deriving DecidableEq, Inhabited, Repr

structure Move where
  source : Nat
  target : Nat
  count : Nat
  deriving DecidableEq, Inhabited, Repr

namespace Segment

def zeroed (size : Nat) : Segment := ⟨Array.replicate size .zero⟩

def reserve (size : Nat) : Outcome Segment := do
  Room.check size Room.cellBytes
  return zeroed size

def size (s : Segment) : Nat := s.cells.size

def isEmpty (s : Segment) : Bool := s.cells.isEmpty

def get? (s : Segment) (offset : Nat) : Option Cell := s.cells[offset]?

def set? (s : Segment) (offset : Nat) (cell : Cell) : Option Segment :=
  if h : offset < s.cells.size then some ⟨s.cells.set offset cell⟩ else none

def single? (s : Segment) (offset : Nat) : Option Single := (s.get? offset).map Cell.single

def vector? (s : Segment) (offset : Nat) : Option Vec3 := do
  let x ← s.single? offset
  let y ← s.single? (offset + 1)
  let z ← s.single? (offset + 2)
  some ⟨x, y, z⟩

def slice? (s : Segment) (first last : Nat) : Option (Array Cell) :=
  if first ≤ last ∧ last ≤ s.size then some (s.cells.extract first last) else none

/-- Stores cells one after the other; those past the end are left out. -/
def storeAll : List Cell → Nat → Array Cell → Array Cell
  | [], _, target => target
  | cell :: rest, offset, target => storeAll rest (offset + 1) (target.setIfInBounds offset cell)

def overwrite (s : Segment) (offset : Nat) (cells : Array Cell) : Segment :=
  ⟨storeAll cells.toList offset s.cells⟩

def write? (s : Segment) (offset : Nat) (cells : Array Cell) : Option Segment :=
  if offset + cells.size ≤ s.size then some (s.overwrite offset cells) else none

def admits (s : Segment) (move : Move) : Bool :=
  decide (move.source + move.count ≤ s.size ∧ move.target + move.count ≤ s.size)

/-- Copies a run of cells as it was before the copy; the two runs may overlap. -/
def move (s : Segment) (move : Move) : Segment :=
  s.overwrite move.target (s.cells.extract move.source (move.source + move.count))

def move? (s : Segment) (move : Move) : Option Segment :=
  if s.admits move then some (s.move move) else none

def moveAll (s : Segment) : List Move → Segment
  | [] => s
  | first :: rest => (s.move first).moveAll rest

def fill? (s : Segment) (first last : Nat) (cell : Cell) : Option Segment := do
  let cells ← s.slice? first last
  s.write? first (Array.replicate cells.size cell)

end Segment

end EntityMachine
