import EntityMachine.Cell
import EntityMachine.Error
import EntityMachine.Segment

/-! The entity table: a bounded arena of records of one shape. Beside the cells of a record stands
whether it is free, since when, and whether the host's spatial index links it. Records below the
reserved count are never handed out or freed; record 0 is the world. -/
namespace EntityMachine

/-! ## Layout

A program places its fields as it likes; the machine looks up the
few fields that it touches itself by name and leaves out those that are not declared. -/

structure SystemFields where
  frame : Option UInt16 := none
  think : Option UInt16 := none
  nextthink : Option UInt16 := none
  model : Option UInt16 := none
  modelindex : Option UInt16 := none
  solid : Option UInt16 := none
  takedamage : Option UInt16 := none
  origin : Option UInt16 := none
  angles : Option UInt16 := none
  classname : Option UInt16 := none
  deriving DecidableEq, Inhabited, Repr

structure Layout where
  fieldCount : Nat
  system : SystemFields := {}
  deriving DecidableEq, Inhabited, Repr

namespace SystemFields

def names : List String :=
  ["frame", "think", "nextthink", "model", "modelindex", "solid", "takedamage", "origin", "angles",
    "classname"]

def resolve (lookup : String → Option UInt16) : SystemFields where
  frame := lookup "frame"
  think := lookup "think"
  nextthink := lookup "nextthink"
  model := lookup "model"
  modelindex := lookup "modelindex"
  solid := lookup "solid"
  takedamage := lookup "takedamage"
  origin := lookup "origin"
  angles := lookup "angles"
  classname := lookup "classname"

def toList (f : SystemFields) : List (Option UInt16) :=
  [f.frame, f.think, f.nextthink, f.model, f.modelindex, f.solid, f.takedamage, f.origin, f.angles,
    f.classname]

def clearedScalars (f : SystemFields) : List UInt16 :=
  [f.model, f.modelindex, f.solid, f.takedamage, f.frame].filterMap id

def clearedVectors (f : SystemFields) : List UInt16 := [f.origin, f.angles].filterMap id

end SystemFields

/-! ## Records -/

structure EntityConfig where
  capacity : Nat := 600
  reserved : Nat := 1
  /-- A record that was freed this long ago is taken before the table grows. -/
  hysteresis : Single := .half
  /-- A record that was freed before this time is taken at once. -/
  startupGrace : Single := .zero
  deriving DecidableEq, Inhabited, Repr

structure RecordState where
  free : Bool := false
  freeTime : Single := .zero
  linked : Bool := false
  deriving DecidableEq, Inhabited, Repr

structure Entities where
  layout : Layout
  config : EntityConfig
  cells : Array Cell
  states : Array RecordState
  deriving DecidableEq, Inhabited, Repr

namespace EntityConfig

def maxRecords : Nat := 0x10000

def withReserved (config : EntityConfig) (reserved : Nat) : EntityConfig :=
  { config with reserved := max reserved 1 }

/-- At least the world is reserved, and the table holds what is reserved. -/
def clamped (config : EntityConfig) : EntityConfig :=
  let reserved := min (max config.reserved 1) maxRecords
  { config with reserved, capacity := min (max config.capacity reserved) maxRecords }

end EntityConfig

namespace Entities

def create (layout : Layout) (config : EntityConfig) : Entities :=
  let config := config.clamped
  { layout, config
    cells := Array.replicate (config.capacity * layout.fieldCount) .zero
    states := Array.replicate config.reserved {} }

def checkRoom (layout : Layout) (config : EntityConfig) : Outcome Unit :=
  Room.check (config.clamped.capacity * layout.fieldCount) Room.cellBytes

def reserve (layout : Layout) (config : EntityConfig) : Outcome Entities := do
  checkRoom layout config
  return create layout config

def capacity (t : Entities) : Nat := t.config.capacity

def size (t : Entities) : Nat := t.states.size

def isEmpty (t : Entities) : Bool := t.states.isEmpty

def isWhole (t : Entities) : Bool := decide (t.size * t.layout.fieldCount ≤ t.cells.size)

def liveCount (t : Entities) : Nat := t.states.countP fun s => !s.free

def state? (t : Entities) (e : EntityIndex) : Option RecordState := t.states[e.toNat]?

def state (t : Entities) (e : EntityIndex) : Outcome RecordState :=
  match t.state? e with
  | some s => .ok s
  | none => .fail (.badEntity e)

def isFree (t : Entities) (e : EntityIndex) : Bool := (t.state? e).any (·.free)

def live (t : Entities) : List EntityIndex :=
  (List.range t.size).filterMap fun i =>
    match t.states[i]? with
    | some s => if s.free then none else some (.ofNat i)
    | none => none

def firstAmong (t : Entities) (condition : RecordState → Bool) : Nat → Nat → Option Nat
  | 0, _ => none
  | count + 1, i => if t.states[i]?.any condition then some i else t.firstAmong condition count (i + 1)

def firstFrom (t : Entities) (start : Nat) (condition : RecordState → Bool) : Option Nat :=
  t.firstAmong condition (t.size - start) start

def nextLive? (t : Entities) (e : EntityIndex) : Option EntityIndex :=
  (t.firstFrom (e.toNat + 1) fun s => !s.free).map .ofNat

/-! ## Fields -/

def base (t : Entities) (e : EntityIndex) : Nat := e.toNat * t.layout.fieldCount

def locate (t : Entities) (e : EntityIndex) (field : UInt32) (width : Nat) : Outcome Nat :=
  if t.size ≤ e.toNat then .fail (.badEntity e)
  else if t.layout.fieldCount < field.toNat + width then .fail (.badField field)
  else .ok (t.base e + field.toNat)

def cell (t : Entities) (position : Nat) : Outcome Cell := .ofOption t.cells[position]?

def holds (t : Entities) (position count : Nat) : Bool := decide (position + count ≤ t.cells.size)

/-- Stores cells anywhere in the arena; those past its end are left out. -/
def overwrite (t : Entities) (position : Nat) (values : Array Cell) : Entities :=
  { t with cells := Segment.storeAll values.toList position t.cells }

def store (t : Entities) (position : Nat) (values : Array Cell) : Outcome Entities :=
  if t.holds position values.size then .ok (t.overwrite position values) else .error .fault

def get (t : Entities) (e : EntityIndex) (field : UInt32) : Outcome Cell := do
  t.cell (← t.locate e field 1)

def set (t : Entities) (e : EntityIndex) (field : UInt32) (value : Cell) : Outcome Entities := do
  t.store (← t.locate e field 1) #[value]

def get3 (t : Entities) (e : EntityIndex) (field : UInt32) : Outcome (Array Cell) := do
  let position ← t.locate e field 3
  return #[← t.cell position, ← t.cell (position + 1), ← t.cell (position + 2)]

def set3 (t : Entities) (e : EntityIndex) (field : UInt32) (values : Array Cell) :
    Outcome Entities := do
  t.store (← t.locate e field 3) values

def single (t : Entities) (e : EntityIndex) (field : UInt32) : Outcome Single :=
  (t.get e field).map Cell.single

def setSingle (t : Entities) (e : EntityIndex) (field : UInt32) (value : Single) :
    Outcome Entities :=
  t.set e field (.ofSingle value)

def read (t : Entities) (address : FieldAddress) : Outcome Cell :=
  t.get address.entity address.field

def write (t : Entities) (address : FieldAddress) (value : Cell) : Outcome Entities :=
  t.set address.entity address.field value

def write3 (t : Entities) (address : FieldAddress) (values : Array Cell) : Outcome Entities :=
  t.set3 address.entity address.field values

def record (t : Entities) (e : EntityIndex) : Outcome (Array Cell) := do
  let first ← t.locate e 0 0
  .ofOption ((Segment.mk t.cells).slice? first (first + t.layout.fieldCount))

def fillRecord (t : Entities) (e : EntityIndex) (value : Cell) : Outcome Entities := do
  t.store (← t.locate e 0 0) (Array.replicate t.layout.fieldCount value)

/-! ## Handing out and taking back records -/

def reusable (t : Entities) (now : Single) (s : RecordState) : Bool :=
  s.free && (s.freeTime.lt t.config.startupGrace ||
    Single.le t.config.hysteresis (now - s.freeTime))

/-- Of two free records, the one that was freed earlier; the first where both were freed at once. -/
def earlier (t : Entities) (best : Option Nat) (i : Nat) : Option Nat :=
  match t.states[i]? with
  | none => best
  | some s =>
    if !s.free then best
    else match best with
      | none => some i
      | some b =>
        match t.states[b]? with
        | none => some i
        | some sb => if s.freeTime.totalRank < sb.freeTime.totalRank then some i else best

def longestFree? (t : Entities) : Option Nat :=
  ((List.range t.size).drop t.config.reserved).foldl t.earlier none

/-- The record to hand out: the first reusable one, else a new one, else the one that has been free the
longest. -/
def candidate (t : Entities) (now : Single) : Outcome Nat :=
  match t.firstFrom t.config.reserved (t.reusable now) with
  | some i => .ok i
  | none =>
    if t.size < t.capacity then .ok t.size
    else match t.longestFree? with
      | some i => .ok i
      | none => .fail (.limitExceeded (.records t.capacity))

def take (t : Entities) (i : Nat) : Entities :=
  let count := t.layout.fieldCount
  { t with
    cells := Segment.storeAll (List.replicate count .zero) (i * count) t.cells
    states := if i < t.states.size then t.states.setIfInBounds i {} else t.states.push {} }

def hasCells (t : Entities) (i : Nat) : Bool :=
  t.holds (i * t.layout.fieldCount) t.layout.fieldCount

def allocate (t : Entities) (now : Single) : Outcome (EntityIndex × Entities) := do
  let i ← t.candidate now
  if t.hasCells i then return (.ofNat i, t.take i) else throw .fault

/-- The cells that freeing a record overwrites, with their new values: the system fields, at their
offsets from the start of the record. -/
def clearings (system : SystemFields) : List (UInt16 × Array Cell) :=
  system.clearedScalars.map (·, #[Cell.zero]) ++
    system.clearedVectors.map (·, Array.replicate 3 Cell.zero) ++
    (system.nextthink.map (·, #[Cell.ofSingle .minusOne])).toList

def checkFreeable (t : Entities) (e : EntityIndex) : Outcome Unit :=
  if e.toNat < t.config.reserved then .fail (.reservedEntity e)
  else if t.size ≤ e.toNat then .fail (.badEntity e)
  else .ok ()

def hasClearings (t : Entities) (e : EntityIndex) : Bool :=
  (clearings t.layout.system).all fun (offset, cells) =>
    t.holds (t.base e + offset.toNat) cells.size

/-- Clears what the simulation reads of a record and notes the time. -/
def retire (t : Entities) (e : EntityIndex) (now : Single) : Entities :=
  let cleared := (clearings t.layout.system).foldl
    (fun t (offset, cells) => t.overwrite (t.base e + offset.toNat) cells) t
  { cleared with states :=
    cleared.states.setIfInBounds e.toNat { free := true, freeTime := now, linked := false } }

def release (t : Entities) (e : EntityIndex) (now : Single) : Outcome Entities :=
  if t.hasClearings e then .ok (t.retire e now) else .error .fault

def free (t : Entities) (e : EntityIndex) (now : Single) : Outcome Entities := do
  t.checkFreeable e
  t.release e now

def setLinked (t : Entities) (e : EntityIndex) (linked : Bool) : Outcome Entities := do
  let s ← t.state e
  return { t with states := t.states.setIfInBounds e.toNat { s with linked } }

end Entities

end EntityMachine
