import EntityMachine.Cell
import EntityMachine.Listing
import EntityMachine.Machine
import EntityMachine.Machine.Execution
import EntityMachine.Single

/-! Native functions: the reference functions that game programs declare, and samples of what a host's
functions can do. -/
namespace EntityMachine

/-! ## Numbers as text

The texts that programs make of numbers. A number that a 32-bit integer holds exactly is written
as that integer, any other with one decimal in a column of five. -/

namespace Single

def numberText (x : Single) : String :=
  let whole := x.truncate
  if (ofInt whole).eq x then toString whole else x.oneDecimal

end Single

namespace Vec3

def numberText (v : Vec3) : String :=
  "'" ++ v.x.oneDecimal ++ " " ++ v.y.oneDecimal ++ " " ++ v.z.oneDecimal ++ "'"

end Vec3

/-! ## Lengths and directions

Worked out in double precision and rounded once. -/

namespace Vec3

def lengthDouble (v : Vec3) : Float :=
  let x := v.x.toDouble
  let y := v.y.toDouble
  let z := v.z.toDouble
  (x * x + y * y + z * z).sqrt

def length (v : Vec3) : Single := .ofDouble v.lengthDouble

def normalize (v : Vec3) : Vec3 :=
  let length := v.lengthDouble
  if length == 0 then zero
  else {
    x := .ofDouble (v.x.toDouble / length)
    y := .ofDouble (v.y.toDouble / length)
    z := .ofDouble (v.z.toDouble / length) }

def pi : Float := 3.141592653589793

/-- The direction in the horizontal plane in whole degrees from 0 to 360. -/
def yaw (v : Vec3) : Single :=
  if v.x.eq .zero && v.y.eq .zero then .zero
  else
    let degrees := (v.y.toDouble.atan2 v.x.toDouble * 180 / pi).toInt32.toInt
    .ofInt (if degrees < 0 then degrees + 360 else degrees)

end Vec3

/-! ## Reference functions

They stand at the numbers that game programs declare them with. None of them runs program functions
again. -/

namespace Reference
open Machine

/-! ## Numbers and vectors -/

def drawUnit : Run Single := do
  let m ← get
  let (word, random) := m.random.next
  set { m with random }
  let bits := (0x3f800000 : UInt32) ||| word >>> 9
  return Single.mk bits - .one

def ofSingle (f : Single → Single) : Run Unit := do
  giveSingle (f (← (← get).singleArgument 0))

def ofVector (f : Vec3 → Single) : Run Unit := do
  giveSingle (f (← (← get).vectorArgument 0))

def random : Run Unit := do giveSingle (← drawUnit)

def normalize : Run Unit := do giveVector (← (← get).vectorArgument 0).normalize

def floatToString : Run Unit := do giveText (← (← get).singleArgument 0).numberText

def vectorToString : Run Unit := do giveText (← (← get).vectorArgument 0).numberText

/-! ## Entities -/

def spawn : Run Unit := do giveEntity (← allocateEntity)

def remove : Run Unit := do freeEntity (← (← get).argument 0).entity

/-- The first record in use past the cursor whose field holds a string with that text; the null string matches
nothing, and the world stands for none. Each step comes to a later record, so as many as there are records
are enough. -/
def findFrom (m : Machine) (field : UInt32) (text : String) : Nat → EntityIndex → Outcome EntityIndex
  | 0, _ => .ok .world
  | steps + 1, cursor =>
    match m.entities.nextLive? cursor with
    | none => .ok .world
    | some next => do
      let id := (← m.entities.get next field).string
      if !id.isNull && m.resolve id == text then return next
      findFrom m field text steps next

def find : Run Unit := do
  let m ← get
  let field := (← m.argument 1).bits
  let text ← m.textArgument 2
  let start := (← m.argument 0).entity
  giveEntity (← findFrom m field text m.entities.size start)

def nextEntity : Run Unit := do
  let m ← get
  let e := (← m.argument 0).entity
  giveEntity ((m.entities.nextLive? e).getD .world)

/-! ## Diagnosis -/

def joinedArguments : Run String := do
  let m ← get
  let texts ← (List.range m.argumentCount).mapM fun n => m.textArgument n
  return String.join texts

def dump (e : EntityIndex) : Run Unit := do
  let m ← get
  match Listing.entityText m.program.image m.strings m.entities e with
  | .ok text => print text
  | .error (.error err) => print (e.label ++ ": " ++ err.message ++ "\n")
  | .error stop => throw stop

def complain (what : String) : Run (String × EntityIndex) := do
  let message ← joinedArguments
  let m ← get
  print (what ++ " in " ++ m.program.functionName m.function ++ ": " ++ message ++ "\n")
  let e ← m.selfEntity
  dump e
  return (message, e)

def error : Run Unit := do
  let (message, _) ← complain "error"
  Run.fail (.native message)

/-- Like `error`, and gives back the record of self. -/
def objectError : Run Unit := do
  let (message, e) ← complain "object error"
  if !e.isWorld then freeEntity e
  Run.fail (.native message)

/-- Developers' output is no output of the machine; its arguments are read all the same. -/
def developerPrint : Run Unit := do
  let _ ← joinedArguments

def printEntity : Run Unit := do dump (← (← get).argument 0).entity

def printEntities : Run Unit := do
  let m ← get
  print (← Listing.entitiesText m.program.image m.strings m.entities)

def setTracing (tracing : Bool) : Run Unit := modify fun m => { m with tracing }

/-! ## Table -/

def catalogue : List (Nat × String × Run Unit) :=
  [(7, "random", random), (9, "normalize", normalize), (10, "error", error),
    (11, "objerror", objectError), (12, "vlen", ofVector Vec3.length),
    (13, "vectoyaw", ofVector Vec3.yaw), (14, "spawn", spawn), (15, "remove", remove),
    (18, "find", find), (25, "dprint", developerPrint), (26, "ftos", floatToString),
    (27, "vtos", vectorToString), (28, "coredump", printEntities),
    (29, "traceon", setTracing true), (30, "traceoff", setTracing false), (31, "eprint", printEntity),
    (36, "rint", ofSingle Single.round), (37, "floor", ofSingle Single.floor),
    (38, "ceil", ofSingle Single.ceil), (43, "fabs", ofSingle Single.abs),
    (47, "nextent", nextEntity)]

end Reference

def Natives.withReference (t : Natives) : Natives :=
  Reference.catalogue.foldl (fun t (number, name, run) => t.register number { name, run := fun _ => run }) t

def Natives.reference : Natives := Natives.empty.withReference

/-! ## Samples

Each shows one part of what a host's functions can do: read arguments,
give results, fail, print, and run functions of the program again. -/

namespace Samples

open Machine

def plain (run : Run Unit) : (FunctionId → Run Unit) → Run Unit := fun _ => run

def giveSeven : Run Unit := giveSingle (.ofInt 7)

def countArguments : Run Unit := do giveSingle (.ofInt (← get).argumentCount)

def describe : Run Unit := do
  let m ← get
  let place ← m.vectorArgument 0
  giveText ((← m.textArgument 1) ++ " at " ++ Listing.vectorText place)

def apply (reenter : FunctionId → Run Unit) : Run Unit := do
  let m ← get
  let f := (← m.argument 0).function
  let x ← m.argument 1
  write Slot.firstParameter #[x]
  reenter f

def refuse : Run Unit := do
  let count := (← get).argumentCount
  Run.fail (.native s!"refused with {count} args")

def runFirst (reenter : FunctionId → Run Unit) : Run Unit := do
  reenter (← (← get).argument 0).function

/-- Runs a function and goes on if it fails, with minus one for a result. -/
def tryFirst (reenter : FunctionId → Run Unit) : Run Unit := do
  match ← Run.attempt (runFirst reenter) with
  | .ok () => giveCell (.ofInt 0)
  | .error e =>
    print ("caught: " ++ e.message)
    giveCell (.ofInt (-1))

def runNamed (reenter : FunctionId → Run Unit) : Run Unit := do
  byName reenter (← (← get).textArgument 0)

def giveNextInt : Run Unit := do giveCell ⟨(← (← get).argument 0).bits + 1⟩

def giveLastVector : Run Unit := do giveVector (← (← get).vectorArgument 7)

def giveArgument : Run Unit := do giveCell (← (← get).argument 0)

def internArgument : Run Unit := do
  giveCell (.ofString (← intern (← (← get).textArgument 0)))

def printArgument : Run Unit := do print (← (← get).textArgument 0)

def printStack : Run Unit := do print ("|".intercalate (← get).stackTrace)

def printMachine : Run Unit := do print (← get).inspect

def sample? : String → Option Native
  | "seven" => some ⟨"seven", plain giveSeven⟩
  | "count_args" => some ⟨"count_args", plain countArguments⟩
  | "describe" => some ⟨"describe", plain describe⟩
  | "apply" => some ⟨"apply", apply⟩
  | "refuse" => some ⟨"refuse", plain refuse⟩
  | "run0" => some ⟨"run0", runFirst⟩
  | "try0" => some ⟨"try0", tryFirst⟩
  | "named" => some ⟨"named", runNamed⟩
  | "echo_int" => some ⟨"echo_int", plain giveNextInt⟩
  | "echo_vec" => some ⟨"echo_vec", plain giveLastVector⟩
  | "echo_ent" => some ⟨"echo_ent", plain giveArgument⟩
  | "intern" => some ⟨"intern", plain internArgument⟩
  | "print" => some ⟨"print", plain printArgument⟩
  | "stack" => some ⟨"stack", plain printStack⟩
  | "debug" => some ⟨"debug", plain printMachine⟩
  | _ => none

end Samples

end EntityMachine
