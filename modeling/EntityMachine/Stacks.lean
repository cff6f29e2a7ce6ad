import EntityMachine.Error

/-! The two stacks of a run. Functions keep parameters and locals at fixed places of the segment, so
entering a function saves those cells and leaving it puts them back; the call stack remembers only
where to go on. Both are bounded, and a failed operation changes nothing. What can fail is asked apart
from the change, so that a change can be made to a stack that nothing else holds. -/
namespace EntityMachine

/-- A call to come back to: the statement that made it and the function it belongs to. -/
structure Frame where
  returnStatement : Nat
  function : FunctionId
  deriving DecidableEq, Inhabited, Repr

structure CallStack where
  frames : Array Frame
  limit : Nat
  deriving DecidableEq, Inhabited, Repr

structure LocalsStack where
  cells : Array Cell
  limit : Nat
  deriving DecidableEq, Inhabited, Repr

namespace CallStack

def empty (limit : Nat) : CallStack := { frames := #[], limit }

def checkRoom (limit : Nat) : Outcome Unit := Room.check limit Room.frameBytes

def reserve (limit : Nat) : Outcome CallStack := do
  checkRoom limit
  return empty limit

def depth (s : CallStack) : Nat := s.frames.size

def isEmpty (s : CallStack) : Bool := s.frames.isEmpty

def isFull (s : CallStack) : Bool := decide (s.limit ≤ s.depth)

def checkPush (s : CallStack) : Outcome Unit :=
  if s.isFull then .fail (.limitExceeded (.callDepth s.limit)) else .ok ()

/-- Puts a frame on top, whether it fits or not. -/
def add (s : CallStack) (frame : Frame) : CallStack := { s with frames := s.frames.push frame }

def push (s : CallStack) (frame : Frame) : Outcome CallStack := do
  s.checkPush
  return s.add frame

def top (s : CallStack) : Outcome Frame :=
  match s.frames.back? with
  | some frame => .ok frame
  | none => .fail .callUnderflow

def dropTop (s : CallStack) : CallStack := { s with frames := s.frames.pop }

def pop (s : CallStack) : Outcome (Frame × CallStack) := do
  return (← s.top, s.dropTop)

end CallStack

namespace LocalsStack

def empty (limit : Nat) : LocalsStack := { cells := #[], limit }

def checkRoom (limit : Nat) : Outcome Unit := Room.check limit Room.cellBytes

def reserve (limit : Nat) : Outcome LocalsStack := do
  checkRoom limit
  return empty limit

def size (s : LocalsStack) : Nat := s.cells.size

def isEmpty (s : LocalsStack) : Bool := s.cells.isEmpty

def hasRoom (s : LocalsStack) (count : Nat) : Bool := decide (s.size + count ≤ s.limit)

def checkSave (s : LocalsStack) (count : Nat) : Outcome Unit :=
  if s.hasRoom count then .ok () else .fail (.limitExceeded (.localsStack s.limit))

def add (s : LocalsStack) (cells : Array Cell) : LocalsStack := { s with cells := s.cells ++ cells }

def save (s : LocalsStack) (cells : Array Cell) : Outcome LocalsStack := do
  s.checkSave cells.size
  return s.add cells

def top (s : LocalsStack) (count : Nat) : Outcome (Array Cell) :=
  if count ≤ s.size then .ok (s.cells.extract (s.size - count) s.size) else .fail .localsUnderflow

def dropTop (s : LocalsStack) (count : Nat) : LocalsStack :=
  { s with cells := s.cells.shrink (s.size - count) }

def restore (s : LocalsStack) (count : Nat) : Outcome (Array Cell × LocalsStack) := do
  return (← s.top count, s.dropTop count)

end LocalsStack
end EntityMachine
