import EntityMachine.Cell

/-! Failures. An error is a failure that the machine reports: a cause and, once it has left an
execution, the place where it arose. A fault is an access that no accepted program makes; it ends
the host's run and carries nothing. -/
namespace EntityMachine

inductive Limit where
  | runaway (statements : Nat)
  | callDepth (frames : Nat)
  | localsStack (cells : Nat)
  | records (capacity : Nat)
  deriving DecidableEq, Repr

inductive Cause where
  | badOpcode (number : UInt16)
  | nullFunction
  | badFunction (id : FunctionId)
  | unknownFunction (name : String)
  | badNative (number : Nat)
  | callUnderflow
  | localsUnderflow
  | worldAssignment
  | badEntity (entity : EntityIndex)
  | badField (offset : UInt32)
  | reservedEntity (entity : EntityIndex)
  | limitExceeded (limit : Limit)
  | invalidProgram (reason : String)
  | native (message : String)
  | serialization (reason : String)
  | io (reason : String)
  deriving DecidableEq, Repr

structure Context where
  function : Option String := none
  statement : Option Nat := none
  entity : Option EntityIndex := none
  stack : List String := []
  deriving DecidableEq, Repr, Inhabited

structure Error where
  cause : Cause
  context : Option Context := none
  deriving DecidableEq, Repr

inductive Stop where
  /-- An access outside the storage that a program's checks promise, or more storage than there can
  be. -/
  | fault
  /-- Native functions re-entered the machine more often than the host's own stack allows. -/
  | nestedTooDeep
  | error (e : Error)
  deriving DecidableEq, Repr

abbrev Outcome := Except Stop

namespace Limit

def message : Limit → String
  | runaway statements => s!"runaway loop ({statements} instructions)"
  | callDepth frames => s!"stack overflow (depth {frames})"
  | localsStack cells => s!"locals stack overflow ({cells} cells)"
  | records capacity => s!"no free edicts (capacity {capacity})"

end Limit

namespace Cause

def message : Cause → String
  | badOpcode number => s!"bad opcode {number}"
  | nullFunction => "NULL function"
  | badFunction id => s!"bad function index {id.index}"
  | unknownFunction name => "unknown function " ++ name
  | badNative number => s!"bad builtin call number {number}"
  | callUnderflow => "call stack underflow"
  | localsUnderflow => "locals stack underflow"
  | worldAssignment => "assignment to world entity"
  | badEntity entity => s!"bad entity reference {entity.index}"
  | badField offset => s!"bad field offset {offset}"
  | reservedEntity entity => entity.label ++ " is reserved"
  | limitExceeded limit => "limit exceeded: " ++ limit.message
  | invalidProgram reason => "invalid program: " ++ reason
  | native message => message
  | serialization reason => "serialization error: " ++ reason
  | io reason => "I/O error: " ++ reason

end Cause

namespace Context

/-- The statement is told only together with its function; each active call has a line. -/
def text (c : Context) : String :=
  let place := match c.function, c.statement with
    | some function, some statement => s!"in {function} at statement {statement}"
    | some function, none => "in " ++ function
    | none, _ => ""
  let entity := match c.entity with
    | some entity => " (self = " ++ entity.label ++ ")"
    | none => ""
  let calls := if c.stack.isEmpty then "" else "\n" ++ Text.unlines (c.stack.map ("  in " ++ ·))
  place ++ entity ++ calls

end Context

namespace Error

def message (e : Error) : String := e.cause.message

def exceeds (e : Error) (limit : Limit → Bool) : Bool :=
  match e.cause with
  | .limitExceeded l => limit l
  | _ => false

end Error

namespace Outcome

def fail (cause : Cause) : Outcome α := .error (.error { cause })

/-- A storage access that found nothing is a fault. -/
def ofOption : Option α → Outcome α
  | some a => .ok a
  | none => .error .fault

end Outcome

/-! ## Room

Room that is set aside, and counts. Stacks and rows of cells take all their room when they are made,
and to ask for more than an address can span is a fault. So is a count that does not fit its word. -/

namespace Room

def maximum : Nat := 0x7fffffffffffffff

def cellBytes : Nat := 4

def frameBytes : Nat := 16

def check (count bytes : Nat) : Outcome Unit :=
  if count * bytes ≤ maximum then .ok () else .error .fault

/-- Counts are words of 64 bits. -/
def countLimit : Nat := 0x10000000000000000

def checkCount (count : Nat) : Outcome Unit :=
  if count < countLimit then .ok () else .error .fault

end Room

end EntityMachine
