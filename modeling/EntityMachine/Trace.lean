import EntityMachine.Cell
import EntityMachine.Error
import EntityMachine.Single
import EntityMachine.Text

/-! Tracing: the events of a run, the records that keep them, their text, and who records them. -/
namespace EntityMachine

/-! ## Events -/

inductive TraceEvent where
  | statement (index : Nat) (function : FunctionId) (depth : Nat) (text : String)
  /-- A function was entered; the depth counts it. -/
  | enter (function : FunctionId) (name : String) (depth : Nat)
  /-- A function was left; the depth counts it no longer. -/
  | leave (function : FunctionId) (name : String) (depth : Nat)
  | native (number : Nat) (name : String)
  deriving DecidableEq, Inhabited, Repr

structure TraceRecord where
  id : UInt64
  timestamp : UInt64
  event : TraceEvent
  deriving DecidableEq, Inhabited, Repr

namespace TraceEvent

def kind : TraceEvent → String
  | statement .. => "statement"
  | enter .. => "enter"
  | leave .. => "leave"
  | native .. => "builtin"

def depth? : TraceEvent → Option Nat
  | statement _ _ depth _ => some depth
  | enter _ _ depth => some depth
  | leave _ _ depth => some depth
  | native .. => none

end TraceEvent

/-! ## Buffers -/

/-- A queue in two rows, the second newest first, so that neither end moves what is between. -/
structure Queue (α : Type) where
  front : List α
  back : List α
  size : Nat
  counted : size = front.length + back.length

namespace Queue

def empty : Queue α := ⟨[], [], 0, rfl⟩

def toList (q : Queue α) : List α := q.front ++ q.back.reverse

def pushBack (q : Queue α) (a : α) : Queue α where
  front := q.front
  back := a :: q.back
  size := q.size + 1
  counted := congrArg (· + 1) q.counted

def popFront : Queue α → Queue α
  | ⟨_ :: front, back, size, counted⟩ =>
      ⟨front, back, size - 1, by rw [counted, List.length_cons]; omega⟩
  | ⟨[], back, size, counted⟩ =>
      ⟨back.reverse.tail, [], size - 1, by
        rw [counted, List.length_tail, List.length_reverse, List.length_nil, Nat.zero_add, Nat.add_zero]⟩

@[simp] theorem length_toList (q : Queue α) : q.toList.length = q.size := by
  rw [toList, List.length_append, List.length_reverse, q.counted]

@[simp] theorem size_popFront (q : Queue α) : q.popFront.size = q.size - 1 := by
  unfold popFront
  split <;> rfl

@[simp] theorem toList_pushBack (q : Queue α) (a : α) : (q.pushBack a).toList = q.toList ++ [a] := by
  rw [toList, pushBack, List.reverse_cons, ← List.append_assoc, toList]

@[simp] theorem toList_popFront (q : Queue α) : q.popFront.toList = q.toList.tail := by
  unfold popFront
  split
  · rfl
  · exact List.append_nil _

end Queue

/-- The newest records up to a maximum. Numbers go on through clears and through records that were
dropped. -/
structure TraceBuffer where
  queue : Queue TraceRecord
  maximum : Nat
  next : UInt64
  bounded : queue.size ≤ maximum

namespace TraceBuffer

def empty (maximum : Nat) : TraceBuffer := ⟨.empty, maximum, 0, Nat.zero_le _⟩

instance : Inhabited TraceBuffer := ⟨empty 0⟩

def defaultMaximum : Nat := 10000

/-- Drops the oldest until one more has room, which without any room would go on for ever. -/
def makeRoom (maximum : Nat) (room : 0 < maximum) (q : Queue TraceRecord) : Queue TraceRecord :=
  if maximum ≤ q.size then makeRoom maximum room q.popFront else q
termination_by q.size
decreasing_by rw [Queue.size_popFront]; omega

theorem size_makeRoom (maximum : Nat) (room : 0 < maximum) (q : Queue TraceRecord) :
    (makeRoom maximum room q).size < maximum := by
  fun_induction makeRoom maximum room q with
  | case1 q full ih => exact ih
  | case2 q free => exact Nat.lt_of_not_le free

/-- Gives the number of the record, also where nothing is kept. -/
def push (b : TraceBuffer) (timestamp : UInt64) (event : TraceEvent) : UInt64 × TraceBuffer :=
  let id := b.next
  let b := { b with next := b.next + 1 }
  if empty : b.maximum = 0 then (id, b)
  else
    let room := Nat.pos_of_ne_zero empty
    (id, { b with
      queue := (makeRoom b.maximum room b.queue).pushBack { id, timestamp, event }
      bounded := size_makeRoom b.maximum room b.queue })

def clear (b : TraceBuffer) : TraceBuffer := { b with queue := .empty, bounded := Nat.zero_le _ }

/-- Oldest first. -/
def records (b : TraceBuffer) : List TraceRecord := b.queue.toList

def size (b : TraceBuffer) : Nat := b.queue.size

def isEmpty (b : TraceBuffer) : Bool := b.size == 0

def last? (b : TraceBuffer) : Option TraceRecord := b.records.getLast?

def recent (b : TraceBuffer) (count : Nat) : List TraceRecord := b.records.drop (b.size - count)

def ofKind (b : TraceBuffer) (kind : String) : List TraceRecord :=
  b.records.filter fun r => r.event.kind == kind

def since (b : TraceBuffer) (timestamp : UInt64) : List TraceRecord :=
  b.records.filter fun r => decide (timestamp ≤ r.timestamp)

end TraceBuffer

/-! ## Text

One line a record, indented by call depth so that nested calls read as a tree. -/

structure TraceFormat where
  showIds : Bool := false
  showTimestamps : Bool := false
  deriving DecidableEq, Inhabited, Repr

namespace TraceFormat

/-- A double rounded to thousandths, a half going to the even neighbour. It is given by its 64-bit
pattern and is not negative. -/
def thousandths (bits : UInt64) : String :=
  let exponent := bits.toNat / 0x10000000000000
  let fraction := bits.toNat % 0x10000000000000
  let units := if exponent = 0 then fraction
    else (0x10000000000000 + fraction) * Nat.pow 2 (exponent - 1)
  let rounded := roundHalfEven (units * 1000) (Nat.pow 2 1074)
  toString (rounded / 1000) ++ "." ++ Text.zeroPadded 3 (toString (rounded % 1000))

def duration (nanoseconds : Nat) : String :=
  let microseconds := nanoseconds / 1000
  let divided (unit : Float) : String := thousandths (microseconds.toFloat / unit).toBits
  if 1000000 ≤ microseconds then divided 1000000 ++ "s"
  else if 1000 ≤ microseconds then divided 1000 ++ "ms"
  else toString microseconds ++ "us"

def indent (event : TraceEvent) : Outcome String := do
  let outer := event.depth?.getD 0 - 1
  Room.check outer 2
  return Text.repeated (2 * outer) ' '

def eventText (event : TraceEvent) : Outcome String := do
  let indent ← indent event
  return match event with
    | .statement _ _ _ text => indent ++ text
    | .enter _ name depth => indent ++ s!"--> {name} [{depth}]"
    | .leave _ name depth => indent ++ s!"<-- {name} [{depth}]"
    | .native number name => s!"    #{number} {name}"

def line (f : TraceFormat) (r : TraceRecord) : Outcome String := do
  let id := if f.showIds then "[" ++ Text.zeroPadded 6 (toString r.id) ++ "] " else ""
  let time := if f.showTimestamps then Text.alignRight 10 (duration r.timestamp.toNat) ++ " " else ""
  return id ++ time ++ (← eventText r.event)

def lines (f : TraceFormat) (records : List TraceRecord) : Outcome String := do
  return "\n".intercalate (← records.mapM f.line)

end TraceFormat

/-! ## Tracers

The tracer records the events of a run into a buffer. It may be switched off, and it may keep only
some kinds of event. Machines have no clock, so their events are stamped with time zero. -/

inductive TraceOutput where
  | none | standardError
  deriving DecidableEq, Inhabited, Repr

structure TracerConfig where
  enabled : Bool := false
  bufferSize : Nat := TraceBuffer.defaultMaximum
  output : TraceOutput := .none
  /-- Kinds of event to keep; all if it names none. -/
  filter : List String := []
  deriving DecidableEq, Inhabited, Repr

structure Tracer where
  config : TracerConfig
  buffer : TraceBuffer
  format : TraceFormat
  deriving Inhabited

namespace Tracer

def ofConfig (config : TracerConfig) : Tracer :=
  { config, buffer := .empty config.bufferSize, format := {} }

def setEnabled (t : Tracer) (enabled : Bool) : Tracer :=
  { t with config := { t.config with enabled } }

def setOutput (t : Tracer) (output : TraceOutput) : Tracer :=
  { t with config := { t.config with output } }

def clear (t : Tracer) : Tracer := { t with buffer := t.buffer.clear }

def wants (t : Tracer) (kind : String) : Bool :=
  t.config.enabled && (t.config.filter.isEmpty || t.config.filter.contains kind)

def record (t : Tracer) (event : TraceEvent) : Tracer :=
  if t.wants event.kind then { t with buffer := (t.buffer.push 0 event).2 } else t

/-- Records an event, and gives the line for standard error if the record was kept and goes there. -/
def report (t : Tracer) (event : TraceEvent) : Outcome (Option String × Tracer) := do
  let t := t.record event
  let told := decide (t.config.output = .standardError) && t.wants event.kind
  let record := if told then t.buffer.last? else none
  return (← record.mapM t.format.line, t)

end Tracer

end EntityMachine
