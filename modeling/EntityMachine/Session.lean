import EntityMachine.Listing
import EntityMachine.Machine.Execution
import EntityMachine.Natives
import EntityMachine.Snapshot

/-! Sessions: a machine with its native functions and the clock that drives it. Frame by frame the
session runs the think function of each entity whose next think falls into the frame. -/
namespace EntityMachine

structure Session where
  machine : Machine
  natives : Natives
  time : Single
  frame : UInt64

abbrev Play := ExceptT Stop (StateM Session)

namespace Session

def nestingBound : Nat := 10000

/-- The clock starts at the program's own. -/
def ofMachine (machine : Machine) (natives : Natives) : Session :=
  { machine, natives, time := machine.time.toOption.getD .zero, frame := 0 }

def create (program : Program) (natives : Natives) (config : MachineConfig) : Outcome Session := do
  return ofMachine (← Machine.reserve program config) natives

def onMachine (body : Run α) : Play α := fun s =>
  let (result, machine) := body s.machine
  (result, { s with machine })

def setTime (time : Single) : Play Unit := do
  modify fun s => { s with time }
  onMachine (Machine.setTime time)

/-- From now on no addresses into the world are given out. -/
def activate : Play Unit := onMachine (modify fun m => { m with active := true })

/-! ## Execution -/

def execute (id : FunctionId) : Play Unit := do
  onMachine (Machine.execute (← get).natives nestingBound id)

def executeNamed (name : String) : Play Unit := do
  onMachine (Machine.byName (Machine.execute (← get).natives nestingBound) name)

def call (name : String) : Play Unit := do
  onMachine (Machine.setTime (← get).time)
  onMachine (Machine.setSelf .world)
  onMachine (Machine.setOther .world)
  executeNamed name

/-- Runs the think function of an entity now. The next think is cleared first, so that a think that
does not schedule itself again runs once; the program's clock is the scheduled time, or the session's
if that is later. Tells whether the entity is still in use. A free entity, or a program without the
two fields, thinks nothing. -/
def runThink (e : EntityIndex) : Play Bool := do
  let m := (← get).machine
  match m.program.fields.think, m.program.fields.nextthink with
  | some think, some nextthink =>
    if m.entities.isFree e then return false
    let scheduled ← m.entities.single e nextthink.toUInt32
    let function := (← m.entities.get e think.toUInt32).function
    onMachine (Machine.writeFields e nextthink.toUInt32 #[.zero])
    onMachine (Machine.setTime (scheduled.max (← get).time))
    onMachine (Machine.setSelf e)
    onMachine (Machine.setOther .world)
    execute function
    return !(← get).machine.entities.isFree e
  | _, _ => return true

def isDue (scheduled deadline : Single) : Bool :=
  !(scheduled.le .zero || deadline.lt scheduled)

def runThinks (nextthink : UInt16) (deadline : Single) : List EntityIndex → Nat → Play Nat
  | [], count => return count
  | e :: rest, count => do
    let m := (← get).machine
    if m.entities.isFree e then runThinks nextthink deadline rest count
    else
      let scheduled ← m.entities.single e nextthink.toUInt32
      if isDue scheduled deadline then
        let _ ← runThink e
        runThinks nextthink deadline rest (count + 1)
      else runThinks nextthink deadline rest count

/-- Runs one frame and tells how many thinks it ran. Entities that are in use when it starts think in
ascending order. The first error abandons the frame, and the clock stays. -/
def runFrame (frametime : Single) : Play Nat := do
  let s ← get
  let deadline := s.time + frametime
  let count ← match s.machine.program.fields.nextthink with
    | some nextthink => runThinks nextthink deadline s.machine.entities.live 0
    | none => pure 0
  Room.checkCount ((← get).frame.toNat + 1)
  modify fun s => { s with frame := s.frame + 1 }
  setTime deadline
  return count

/-! ## Snapshots -/

def snapshot (s : Session) : Snapshot where
  time := s.time
  frame := s.frame
  globals := s.machine.globals
  entities := s.machine.entities
  strings := s.machine.strings

def restore (snapshot : Snapshot) : Play Unit := do
  onMachine (Machine.replaceState snapshot.globals snapshot.entities snapshot.strings)
  modify fun s => { s with time := snapshot.time, frame := snapshot.frame }

/-! ## Diagnosis -/

def enableTracing (config : TracerConfig) : Play Unit :=
  onMachine (modify fun m => { m with tracer := some (.ofConfig config), tracing := true })

/-- The tracer stays, so that its records can be read. -/
def disableTracing : Play Unit := onMachine (modify fun m => { m with tracing := false })

def profileReport (s : Session) (count : Nat) : Outcome String :=
  s.machine.profile.report s.machine.program.image count

def entityText (s : Session) (e : EntityIndex) : Outcome String :=
  Listing.entityText s.machine.program.image s.machine.strings s.machine.entities e

def entitiesText (s : Session) : Outcome String :=
  Listing.entitiesText s.machine.program.image s.machine.strings s.machine.entities

end Session
end EntityMachine
