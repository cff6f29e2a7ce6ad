import EntityMachine.Error
import EntityMachine.Listing
import EntityMachine.Program
import EntityMachine.RandomStream
import EntityMachine.Stacks
import EntityMachine.Trace

/-! The machine: a program, everything that running it changes, and what a host may read and set
between runs. A computation on a machine keeps the machine's new state also when it fails. -/
namespace EntityMachine

/-! ## Profiles

How often each function was called and how many statements it ran. A report lists the
busiest functions first. -/

structure Counters where
  calls : UInt64 := 0
  statements : UInt64 := 0
  deriving DecidableEq, Inhabited, Repr

/-- Counters by function; row 0 is the null function. -/
abbrev Profile := Array Counters

structure ProfileEntry where
  function : FunctionId
  name : String
  calls : UInt64
  statements : UInt64
  deriving DecidableEq, Repr

namespace Profile

def blank (image : Image) : Profile := Array.replicate image.functions.size {}

def countCall (p : Profile) (f : FunctionId) : Profile :=
  p.modify f.toNat fun c => { c with calls := c.calls + 1 }

def countStatement (p : Profile) (f : FunctionId) : Profile :=
  p.modify f.toNat fun c => { c with statements := c.statements + 1 }

def covers (p : Profile) (f : FunctionId) : Bool := decide (f.toNat < p.size)

def busier (a b : ProfileEntry) : Bool :=
  if a.statements ≠ b.statements then decide (b.statements < a.statements)
  else if a.calls ≠ b.calls then decide (b.calls < a.calls)
  else decide (a.function.index ≤ b.function.index)

def entries (image : Image) (p : Profile) : List ProfileEntry :=
  (p.toList.zipIdx.drop 1).filterMap fun (c, i) =>
    if c.calls = 0 ∧ c.statements = 0 then none
    else some {
      function := .ofNat i, name := image.functionName (.ofNat i)
      calls := c.calls, statements := c.statements }

def top (image : Image) (p : Profile) (count : Nat) : List ProfileEntry :=
  ((p.entries image).mergeSort busier).take count

def totalStatements (p : Profile) : Nat := p.foldl (fun sum c => sum + c.statements.toNat) 0

def line (statements calls name : String) : String :=
  Text.alignRight 10 statements ++ " " ++ Text.alignRight 8 calls ++ "  " ++ name

def report (image : Image) (p : Profile) (count : Nat) : Outcome String := do
  Room.checkCount p.totalStatements
  let rows := (p.top image count).map fun e =>
    line (toString e.statements) (toString e.calls) e.name
  return Text.unlines ([line "statements" "calls" "function"] ++ rows ++
    [Text.alignRight 10 (toString p.totalStatements) ++ " total"])

end Profile

/-! ## State -/

structure MachineConfig where
  runawayLimit : Nat := 100000
  maxCallDepth : Nat := 32
  localsCells : Nat := 2048
  /-- What a state statement adds to the clock for the next think. -/
  stateInterval : Single := ⟨0x3dcccccd⟩
  seed : UInt64 := 0
  entities : EntityConfig := {}
  trace : Bool := false
  deriving DecidableEq, Inhabited, Repr

structure Machine where
  program : Program
  config : MachineConfig
  globals : Segment
  entities : Entities
  strings : StringPool
  calls : CallStack
  locals : LocalsStack
  /-- The function whose statements run; null between executions. -/
  function : FunctionId
  statement : Nat
  argumentCount : Nat
  profile : Profile
  output : Array String
  random : RandomStream
  /-- The world is spawned, and addresses into it are refused. -/
  active : Bool
  tracing : Bool
  tracer : Option Tracer
  /-- Entities that the host's spatial index was told to drop. -/
  unlinked : Array EntityIndex

abbrev Run := ExceptT Stop (StateM Machine)

namespace Run

def fail (cause : Cause) : Run α := throw (.error { cause })

/-- Hands an error to the caller as a value. Faults pass through. -/
def attempt (body : Run α) : Run (Except Error α) := fun m =>
  match body m with
  | (.ok a, m) => (.ok (.ok a), m)
  | (.error (.error e), m) => (.ok (.error e), m)
  | (.error stop, m) => (.error stop, m)

end Run

namespace Machine

def create (program : Program) (config : MachineConfig) : Machine where
  program
  config
  globals := ⟨program.image.globals⟩
  entities := .create program.layout config.entities
  strings := program.image.strings
  calls := .empty config.maxCallDepth
  locals := .empty config.localsCells
  function := .null
  statement := 0
  argumentCount := 0
  profile := .blank program.image
  output := #[]
  random := .ofSeed config.seed
  active := false
  tracing := config.trace
  tracer := none
  unlinked := #[]

def reserve (program : Program) (config : MachineConfig) : Outcome Machine := do
  Entities.checkRoom program.layout config.entities
  CallStack.checkRoom config.maxCallDepth
  LocalsStack.checkRoom config.localsCells
  return create program config

def depth (m : Machine) : Nat := m.calls.depth

def inspect (m : Machine) : String :=
  "Vm \x7b " ++ s!"function: {m.function.inspect}, statement: {m.statement}, depth: {m.depth}, " ++
    s!"entities: {m.entities.size}, active: {m.active}, trace: {m.tracing}, .. " ++ "\x7d"

/-! ## Segment -/

def cell (m : Machine) (offset : Nat) : Outcome Cell := .ofOption (m.globals.get? offset)

def single (m : Machine) (offset : Nat) : Outcome Single := .ofOption (m.globals.single? offset)

def vector (m : Machine) (offset : Nat) : Outcome Vec3 := .ofOption (m.globals.vector? offset)

def slice (m : Machine) (first last : Nat) : Outcome (Array Cell) :=
  .ofOption (m.globals.slice? first last)

def write (offset : Nat) (cells : Array Cell) : Run Unit := do
  let m ← get
  if offset + cells.size ≤ m.globals.size then
    set { m with globals := m.globals.overwrite offset cells }
  else throw .fault

def resolve (m : Machine) (id : StringId) : String := m.strings.resolve id

/-! ## System globals -/

/-- The program's clock; zero if it declares none. -/
def time (m : Machine) : Outcome Single :=
  match m.program.globals.time with
  | some offset => m.single offset.toNat
  | none => .ok .zero

def selfEntity (m : Machine) : Outcome EntityIndex :=
  match m.program.globals.self with
  | some offset => (m.cell offset.toNat).map Cell.entity
  | none => .ok .world

def writeSystem (place : SystemGlobals → Option UInt16) (value : Cell) : Run Unit := do
  match place (← get).program.globals with
  | some offset => write offset.toNat #[value]
  | none => return ()

def setTime (time : Single) : Run Unit := writeSystem (·.time) (.ofSingle time)

def setSelf (e : EntityIndex) : Run Unit := writeSystem (·.self) (.ofEntity e)

def setOther (e : EntityIndex) : Run Unit := writeSystem (·.other) (.ofEntity e)

/-! ## Parameters and results -/

def argument (m : Machine) (n : Nat) : Outcome Cell := do
  m.cell (← .ofOption (Slot.parameter? n))

def singleArgument (m : Machine) (n : Nat) : Outcome Single := (m.argument n).map Cell.single

def vectorArgument (m : Machine) (n : Nat) : Outcome Vec3 := do
  m.vector (← .ofOption (Slot.parameter? n))

def textArgument (m : Machine) (n : Nat) : Outcome String := do
  return m.resolve (← m.argument n).string

def giveCell (c : Cell) : Run Unit := write Slot.returnSlot #[c]

def giveSingle (x : Single) : Run Unit := giveCell (.ofSingle x)

def giveVector (v : Vec3) : Run Unit := write Slot.returnSlot v.cells

def giveEntity (e : EntityIndex) : Run Unit := giveCell (.ofEntity e)

/-! ## Strings, records and output -/

/-- Changes the strings. A machine that faulted is of no further use, so it gives its strings away while
they change. -/
def changeStrings (change : StringPool → Option (α × StringPool)) : Run α := fun m =>
  let strings := m.strings
  let m := { m with strings := .empty }
  match change strings with
  | some (a, strings) => (.ok a, { m with strings })
  | none => (.error .fault, m)

def intern (text : String) : Run StringId := changeStrings (·.intern? text)

def temporary (text : String) : Run StringId := changeStrings (·.temporary? text)

def giveText (text : String) : Run Unit := do
  giveCell (.ofString (← temporary text))

def writeFields (e : EntityIndex) (field : UInt32) (cells : Array Cell) : Run Unit := do
  let m ← get
  let position ← m.entities.locate e field cells.size
  if !m.entities.holds position cells.size then throw .fault
  modify fun m => { m with entities := m.entities.overwrite position cells }

def setLinked (e : EntityIndex) (linked : Bool) : Run Unit := do
  let m ← get
  let entities ← m.entities.setLinked e linked
  set { m with entities }

def allocateEntity : Run EntityIndex := do
  let m ← get
  let i ← m.entities.candidate (← m.time)
  if !m.entities.hasCells i then throw .fault
  modify fun m => { m with entities := m.entities.take i }
  return .ofNat i

/-- Gives a record back at the program's time; the spatial index drops it first. -/
def freeEntity (e : EntityIndex) : Run Unit := do
  let m ← get
  let now ← m.time
  m.entities.checkFreeable e
  if !m.entities.hasClearings e then throw .fault
  modify fun m => { m with unlinked := m.unlinked.push e, entities := m.entities.retire e now }

def print (text : String) : Run Unit :=
  modify fun m => { m with output := m.output.push text }

def takeOutput : Run (Array String) := do
  let lines := (← get).output
  modify fun m => { m with output := #[] }
  return lines

def resetProfile : Run Unit := modify fun m => { m with profile := .blank m.program.image }

/-! ## Tracing -/

def trace (kind : String) (event : Machine → TraceEvent) : Run Unit := modify fun m =>
  match m.tracing, m.tracer with
  | true, some tracer =>
    if tracer.wants kind then { m with tracer := some (tracer.record (event m)) } else m
  | _, _ => m

def takeTracer : Run (Option Tracer) := do
  let tracer := (← get).tracer
  modify fun m => { m with tracer := none }
  return tracer

/-! ## Saved state -/

def replaceState (globals : Segment) (entities : Entities) (strings : StringPool) : Run Unit := do
  let m ← get
  m.program.checkState globals entities
  set { m with globals, entities, strings }

end Machine

/-! ## Native functions

What a host lends to programs. A native function reads its arguments from the
parameter slots, writes its result into the return slot, and may run functions of the program again;
for that it is handed the way to do so. -/

structure Native where
  name : String
  run : (FunctionId → Run Unit) → Run Unit

structure Natives where
  slots : Array (Option Native)

namespace Natives

def empty : Natives := ⟨#[]⟩

/-- Puts a function at a number; the table grows as far as needed. -/
def register (t : Natives) (number : Nat) (f : Native) : Natives :=
  let grown := t.slots ++ Array.replicate (number + 1 - t.slots.size) none
  ⟨grown.setIfInBounds number (some f)⟩

def size (t : Natives) : Nat := t.slots.size

def isEmpty (t : Natives) : Bool := t.slots.isEmpty

def lookup (t : Natives) (number : Nat) : Outcome Native :=
  match t.slots[number]?.join with
  | some f => .ok f
  | none => .fail (.badNative number)

def toList (t : Natives) : List (Nat × Native) :=
  t.slots.toList.zipIdx.filterMap fun (f, i) => f.map (i, ·)

end Natives

end EntityMachine
