import EntityMachine.Machine

/-! Execution. `step` fetches one statement and performs its effect; `loop` steps until the function
that was entered first has returned or the budget of statements is spent; `execute` runs a function
with a budget of its own and, on an error, leaves every function that it entered. Native functions
may execute again, as deep as the nesting bound allows. -/
namespace EntityMachine

namespace Machine

/-! ## Entering and leaving -/

def passedWidths (f : Function) (arguments : Nat) : List Nat := f.declaredSizes.take arguments

/-- Where arguments go: from their slots to the parameters, which lie one after the other. -/
def argumentMoves : List Nat → Nat → Nat → Option (List Move)
  | [], _, _ => some []
  | width :: rest, n, target => do
    let source ← Slot.parameter? n
    let moves ← argumentMoves rest (n + 1) (target + width)
    return { source, target, count := width } :: moves

/-- Enters a function with a body and gives its first statement. Every limit is checked before
anything changes. -/
def enter (id : FunctionId) (f : Function) : Run Nat := do
  let m ← get
  m.calls.checkPush
  let saved ← m.slice f.localsStart f.localsEnd
  m.locals.checkSave saved.size
  let moves ← Outcome.ofOption
    (argumentMoves (passedWidths f m.argumentCount) 0 f.localsStart)
  if !(m.profile.covers id && moves.all m.globals.admits) then throw .fault
  modify fun m => { m with
    globals := m.globals.moveAll moves
    locals := m.locals.add saved
    calls := m.calls.add { returnStatement := m.statement, function := m.function }
    function := id
    profile := m.profile.countCall id }
  trace "enter" fun m => .enter id (m.program.functionName id) m.depth
  return f.first.toNat

def leave : Run Nat := do
  let m ← get
  let left := m.function
  if m.calls.isEmpty then Run.fail .callUnderflow
  let f ← m.program.function left
  let count := f.locals.toNat
  let saved ← m.locals.top count
  if m.globals.size < f.localsStart + count then throw .fault
  let frame ← m.calls.top
  modify fun m => { m with
    globals := m.globals.overwrite f.localsStart saved
    locals := m.locals.dropTop count
    calls := m.calls.dropTop
    function := frame.function
    statement := frame.returnStatement }
  trace "leave" fun m => .leave left (m.program.functionName left) m.depth
  return frame.returnStatement

/-- Leaves a number of functions, or fewer if one cannot be left. -/
def leaveMany : Nat → Run Unit
  | 0 => return ()
  | count + 1 => do
    match ← Run.attempt leave with
    | .ok _ => leaveMany count
    | .error _ => return ()

def unwind (depth : Nat) : Run Unit := do
  leaveMany ((← get).depth - depth)

/-! ## Diagnosis -/

def callText (m : Machine) (id : FunctionId) (statement : Nat) : String :=
  let file := match m.program.function id with
    | .ok f => m.resolve f.file
    | .error _ => ""
  let name := m.program.functionName id
  if file.isEmpty then s!"{name} statement {statement}"
  else s!"{name} ({file}) statement {statement}"

/-- The calls from a function outwards through frames, the innermost first. A frame names the
caller, so each call is told with the place that the frame inside it kept. -/
def callsFrom (m : Machine) : List Frame → FunctionId → Nat → List String
  | [], id, statement => if id.isNull then [] else [m.callText id statement]
  | frame :: rest, id, statement =>
    m.callText id statement :: m.callsFrom rest frame.function frame.returnStatement

def stackTrace (m : Machine) : List String :=
  m.callsFrom m.calls.frames.toList.reverse m.function m.statement

def context (m : Machine) : Outcome Context := do
  return {
    function := some (m.program.functionName m.function)
    statement := some m.statement
    entity := some (← m.selfEntity)
    stack := m.stackTrace }

/-- Tells a new error where it arose. One that has a context arose further in and keeps it. -/
def located (m : Machine) (e : Error) : Outcome Error := do
  match e.context with
  | some _ => return e
  | none => return { e with context := some (← m.context) }

end Machine

/-! ## Effects

An effect is worked out from the machine as it is before the statement
and changes nothing; performing it is all that the statement does. -/

inductive Effect where
  | write (offset : Nat) (cells : Array Cell)
  | writeField (address : FieldAddress) (cells : Array Cell)
  | jump (distance : Int)
  | call (callee : FunctionId) (arguments : Nat)
  | finish (offset : Nat)
  | schedule (frame : Single) (think : Cell)
  deriving DecidableEq, Repr

namespace Machine

/-- A number is true unless it equals zero; so is a NaN. -/
def isTrue (x : Single) : Bool := !x.eq .zero

def combine (m : Machine) (f : Single → Single → Single) (a b c : Nat) : Outcome Effect := do
  let x ← m.single a
  let y ← m.single b
  return .write c #[.ofSingle (f x y)]

def combineVectors (m : Machine) (f : Vec3 → Vec3 → Vec3) (a b c : Nat) : Outcome Effect := do
  let v ← m.vector a
  let w ← m.vector b
  return .write c (f v w).cells

def test (m : Machine) (f : Single → Single → Bool) (a b c : Nat) : Outcome Effect := do
  let x ← m.single a
  let y ← m.single b
  return .write c #[.ofBool (f x y)]

def combineBits (m : Machine) (f : Int32 → Int32 → Int32) (a b c : Nat) : Outcome Effect :=
  m.combine (fun x y => .ofInt (f (.ofInt x.truncate) (.ofInt y.truncate)).toInt) a b c

def areEqual (m : Machine) (kind : Comparand) (a b : Nat) : Outcome Bool :=
  match kind with
  | .float => do return (← m.single a).eq (← m.single b)
  | .vector => do return (← m.vector a).eq (← m.vector b)
  | .string => do return m.resolve (← m.cell a).string == m.resolve (← m.cell b).string
  | .entity | .function => do return (← m.cell a) == (← m.cell b)

def isNothing (m : Machine) (kind : Comparand) (a : Nat) : Outcome Bool :=
  match kind with
  | .float => do return (← m.single a).eq .zero
  | .vector => do return (← m.vector a).eq .zero
  | .string => do
    let id := (← m.cell a).string
    return id.isNull || (m.resolve id).isEmpty
  | .entity => do return (← m.cell a).entity.isWorld
  | .function => do return (← m.cell a).function.isNull

def loadField (m : Machine) (kind : Kind) (e : EntityIndex) (field : UInt32) :
    Outcome (Array Cell) :=
  if kind.width = 3 then m.entities.get3 e field
  else do return #[← m.entities.get e field]

/-- The address of a field, if the record and the field exist. An active machine gives out none
into the world. -/
def fieldAddress (m : Machine) (e : EntityIndex) (field : UInt32) : Outcome FieldAddress :=
  if e.isWorld && m.active then .fail .worldAssignment
  else if m.entities.size ≤ e.toNat then .fail (.badEntity e)
  else if m.entities.layout.fieldCount ≤ field.toNat then .fail (.badField field)
  else match FieldAddress.encode? e field with
    | some address => .ok address
    | none => .fail (.badField field)

def effect (m : Machine) (op : Opcode) (s : Statement) : Outcome Effect :=
  let a := s.a.toNat
  let b := s.b.toNat
  let c := s.c.toNat
  match op with
  | .addF => m.combine Single.add a b c
  | .subF => m.combine Single.sub a b c
  | .mulF => m.combine Single.mul a b c
  | .divF => m.combine Single.div a b c
  | .addV => m.combineVectors Vec3.add a b c
  | .subV => m.combineVectors Vec3.sub a b c
  | .mulV => do return .write c #[.ofSingle ((← m.vector a).dot (← m.vector b))]
  | .mulFV => do return .write c (Vec3.scale (← m.single a) (← m.vector b)).cells
  | .mulVF => do return .write c (Vec3.scale (← m.single b) (← m.vector a)).cells
  | .bitAnd => m.combineBits (· &&& ·) a b c
  | .bitOr => m.combineBits (· ||| ·) a b c
  | .le => m.test Single.le a b c
  | .ge => m.test (fun x y => Single.le y x) a b c
  | .lt => m.test Single.lt a b c
  | .gt => m.test (fun x y => Single.lt y x) a b c
  | .and => m.test (fun x y => isTrue x && isTrue y) a b c
  | .or => m.test (fun x y => isTrue x || isTrue y) a b c
  | .equal kind => do return .write c #[.ofBool (← m.areEqual kind a b)]
  | .notEqual kind => do return .write c #[.ofBool (!(← m.areEqual kind a b))]
  | .not kind => do return .write c #[.ofBool (← m.isNothing kind a)]
  | .store kind => do return .write b (← m.slice a (a + kind.width))
  | .storeThrough kind => do
    let address := (← m.cell b).address
    return .writeField address (← m.slice a (a + kind.width))
  | .load kind => do
    let e := (← m.cell a).entity
    let field := (← m.cell b).bits
    return .write c (← m.loadField kind e field)
  | .address => do
    let e := (← m.cell a).entity
    let field := (← m.cell b).bits
    return .write c #[.ofAddress (← m.fieldAddress e field)]
  | .branchIf => do
    return .jump (if (← m.cell a).isZero then 1 else Statement.signed s.b)
  | .branchUnless => do
    return .jump (if (← m.cell a).isZero then Statement.signed s.b else 1)
  | .goto => .ok (.jump (Statement.signed s.a))
  | .call arguments => do return .call (← m.cell a).function arguments
  | .done | .ret => .ok (.finish a)
  | .state => do return .schedule (← m.single a) (← m.cell b)

/-! ## Running -/

/-- Statement indices are 64-bit words: a branch before the first statement comes out far past the
last. -/
def branchTarget (s : Nat) (distance : Int) : Nat := ((s + distance) % 0x10000000000000000).toNat

def writeDeclared (e : EntityIndex) (cells : Array Cell) : Option UInt16 → Run Unit
  | some field => writeFields e field.toUInt32 cells
  | none => return ()

def refreshFrame (e : EntityIndex) (frame : Single) : Option UInt16 → Run Unit
  | some field => do
    let current ← (← get).entities.single e field.toUInt32
    if current.eq frame then return () else writeFields e field.toUInt32 #[.ofSingle frame]
  | none => return ()

def schedule (frame : Single) (think : Cell) : Run Unit := do
  let m ← get
  let e ← m.selfEntity
  let next := (← m.time) + m.config.stateInterval
  writeDeclared e #[.ofSingle next] m.program.fields.nextthink
  refreshFrame e frame m.program.fields.frame
  writeDeclared e #[think] m.program.fields.think

/-- Copies the result to the return slot: three cells, or as many as there are. -/
def giveResult (offset : Nat) : Run Unit := do
  let m ← get
  let cells ← m.slice offset (offset + min Slot.width (m.globals.size - offset))
  write Slot.returnSlot cells

def callNative (natives : Natives) (reenter : FunctionId → Run Unit) (id : FunctionId)
    (number : Nat) : Run Unit := do
  let f ← natives.lookup number
  modify fun m => { m with profile := m.profile.countCall id }
  trace "builtin" fun _ => .native number f.name
  f.run reenter

/-- Performs the effect of a statement and gives the statement to go on with, or none once the call
stack is back at the depth where the execution began. -/
def perform (natives : Natives) (reenter : FunctionId → Run Unit) (entryDepth s : Nat) :
    Effect → Run (Option Nat)
  | .write offset cells => do
    write offset cells
    return some (s + 1)
  | .writeField address cells => do
    writeFields address.entity address.field cells
    return some (s + 1)
  | .jump distance => return some (branchTarget s distance)
  | .call callee arguments => do
    modify fun m => { m with argumentCount := arguments }
    let f ← (← get).program.function callee
    match f.nativeNumber? with
    | some number =>
      callNative natives reenter callee number
      return some (s + 1)
    | none => return some (← enter callee f)
  | .finish offset => do
    giveResult offset
    let caller ← leave
    if (← get).depth = entryDepth then return none
    return some (caller + 1)
  | .schedule frame think => do
    schedule frame think
    return some (s + 1)

/-- Fetches a statement: from here on it is the one that runs, and it counts. -/
def fetch (s : Nat) : Run Statement := do
  let m ← get
  match m.program.statement? s with
  | none => Run.fail (.invalidProgram s!"statement {s} out of range")
  | some statement =>
    if !m.profile.covers m.function then throw .fault
    set { m with statement := s, profile := m.profile.countStatement m.function }
    trace "statement" fun m =>
      let source := { image := m.program.image, strings := m.strings, globals := some m.globals }
      .statement s m.function m.depth (Listing.statementText source s statement)
    return statement

def step (natives : Natives) (reenter : FunctionId → Run Unit) (entryDepth s : Nat) :
    Run (Option Nat) := do
  let statement ← fetch s
  match statement.opcode? with
  | none => Run.fail (.badOpcode statement.op)
  | some op =>
    let effect ← (← get).effect op statement
    perform natives reenter entryDepth s effect

def loop (natives : Natives) (reenter : FunctionId → Run Unit) (entryDepth : Nat) :
    (budget s : Nat) → Machine → Outcome Unit × Machine
  | 0, _, m => (.fail (.limitExceeded (.runaway m.config.runawayLimit)), m)
  | budget + 1, s, m =>
    match step natives reenter entryDepth s m with
    | (.ok (some next), m) => loop natives reenter entryDepth budget next m
    | (.ok none, m) => (.ok (), m)
    | (.error stop, m) => (.error stop, m)

def runFunction (natives : Natives) (reenter : FunctionId → Run Unit) (id : FunctionId) :
    Run Unit := do
  let entryDepth := (← get).depth
  let f ← (← get).program.function id
  modify fun m => { m with argumentCount := f.numParms.toNat }
  match f.nativeNumber? with
  | some number => callNative natives reenter id number
  | none =>
    let first ← enter id f
    fun m => loop natives reenter entryDepth m.config.runawayLimit first m

def guarded (body : Run Unit) : Run Unit := do
  let entryDepth := (← get).depth
  match ← Run.attempt body with
  | .ok () => return ()
  | .error e =>
    let e ← (← get).located e
    unwind entryDepth
    throw (.error e)

/-- Runs a function to completion. The first number bounds how deep native functions may nest
executions. -/
def execute (natives : Natives) : Nat → FunctionId → Run Unit
  | 0, _ => throw .nestedTooDeep
  | nesting + 1, id => guarded (runFunction natives (execute natives nesting) id)

def byName (run : FunctionId → Run Unit) (name : String) : Run Unit := do
  match (← get).program.image.findFunction? name with
  | some id => run id
  | none => Run.fail (.unknownFunction name)

end Machine

end EntityMachine
