import EntityMachine.Entities
import EntityMachine.MessagePack
import EntityMachine.Segment
import EntityMachine.StringPool

/-! Snapshots: everything that a running program can change, at one instant. The program itself is not
part of it; a snapshot is restored where the same program runs. -/
namespace EntityMachine

structure Snapshot where
  time : Single
  frame : UInt64
  globals : Segment
  entities : Entities
  strings : StringPool
  deriving Inhabited

/-! ## Bytes

Structures are maps from field names to values, cells are plain numbers, and an
absent offset is nil; the string pool's index is left out and built again. Reading is lenient about
form: fields come in any order or as a list, unknown fields are skipped, absent offsets may be
missing, numbers have any width that fits, bytes pass for a list of small numbers. Whether the state
makes sense is not asked here. -/

namespace Packed

/-! ## Writing -/

def ofText (text : String) : Packed := .text text.toUTF8.toList

def ofFields (fields : List (String × Packed)) : Packed :=
  .map (fields.map fun (name, value) => (ofText name, value))

def ofOffset : Option Nat → Packed
  | some n => .unsigned n
  | none => .nil

def ofSingle (x : Single) : Packed := .single x.bits

def ofCells (cells : Array Cell) : Packed :=
  .list (cells.toList.map fun c => .unsigned c.bits.toNat)

/-! ## Reading -/

def natBelow? (bound : Nat) : Packed → Option Nat
  | .unsigned n => if n < bound then some n else none
  | .signed i => if 0 ≤ i ∧ i < bound then some i.toNat else none
  | _ => none

def word? : Packed → Option Nat := natBelow? 0x10000000000000000

def bool? : Packed → Option Bool
  | .bool b => some b
  | _ => none

/-- Wider numbers and integers are rounded to a single. -/
def single? : Packed → Option Single
  | .single bits => some ⟨bits⟩
  | .double bits => some (.ofDoubleBits bits)
  | .unsigned n => some (.ofInt n)
  | .signed i => some (.ofInt i)
  | _ => none

def ofUTF8? (bytes : List UInt8) : Option String := String.fromUTF8? ⟨bytes.toArray⟩

def text? : Packed → Option String
  | .text bytes => ofUTF8? bytes
  | .binary bytes => ofUTF8? bytes
  | _ => none

def optional? (value? : Packed → Option α) : Packed → Option (Option α)
  | .nil => some none
  | v => (value? v).map some

def gather? (item? : Packed → Option α) : List Packed → Array α → Option (Array α)
  | [], done => some done
  | v :: rest, done =>
    match item? v with
    | some a => gather? item? rest (done.push a)
    | none => none

/-- A list, item by item. No bytes at all are an empty list, too. -/
def list? (item? : Packed → Option α) : Packed → Option (Array α)
  | .list items => gather? item? items #[]
  | .binary [] => some #[]
  | _ => none

/-- The field that a key names: by its name in bytes, or by its place. No place means that the field
is unknown; a key of another kind is refused. -/
def fieldPlace? (names : List String) : Packed → Option (Option Nat)
  | .text bytes | .binary bytes =>
    some (names.findIdx? fun name => name.toUTF8.toList == bytes)
  | .unsigned n => some (if n < names.length then some n else none)
  | _ => none

def collectFields (names : List String) :
    List (Packed × Packed) → List (Option Packed) → Option (List (Option Packed))
  | [], found => some found
  | (key, value) :: rest, found => do
    match ← fieldPlace? names key with
    | none => collectFields names rest found
    | some i =>
      if (found.getD i none).isSome then none
      else collectFields names rest (found.set i (some value))

def fields? (names : List String) : Packed → Option (List (Option Packed))
  | .list items => if items.length = names.length then some (items.map some) else none
  | .map entries => collectFields names entries (names.map fun _ => none)
  | _ => none

/-- The values of the fields of a structure of plain numbers. Bytes give them, too, a number each, and
those left over are not looked at. -/
def numericFields? (names : List String) : Packed → Option (List (Option Packed))
  | .binary bytes =>
    if names.length ≤ bytes.length then
      some ((bytes.take names.length).map fun b => some (.unsigned b.toNat))
    else none
  | v => fields? names v

def required? (value? : Packed → Option α) (field : Option Packed) : Option α := field.bind value?

def offset? (bound : Nat) : Option Packed → Option (Option Nat)
  | none => some none
  | some v => optional? (natBelow? bound) v

end Packed

open Packed

namespace Cell

def ofPacked? (v : Packed) : Option Cell := (natBelow? 0x100000000 v).map fun n => ⟨UInt32.ofNat n⟩

end Cell

namespace Segment

def toPacked (s : Segment) : Packed := ofFields [("cells", ofCells s.cells)]

def ofPacked? (v : Packed) : Option Segment := do
  match ← fields? ["cells"] v with
  | [cells] => return ⟨← required? (list? Cell.ofPacked?) cells⟩
  | _ => none

end Segment

namespace SystemFields

def toPacked (f : SystemFields) : Packed :=
  ofFields (names.zip (f.toList.map fun offset => ofOffset (offset.map UInt16.toNat)))

def ofPacked? (v : Packed) : Option SystemFields := do
  let offsets ← (← fields? names v).mapM (offset? 0x10000)
  match offsets.map fun offset => offset.map UInt16.ofNat with
  | [frame, think, nextthink, model, modelindex, solid, takedamage, origin, angles, classname] =>
    return { frame, think, nextthink, model, modelindex, solid, takedamage, origin, angles,
             classname }
  | _ => none

end SystemFields

namespace Layout

def toPacked (l : Layout) : Packed :=
  ofFields [("field_count", .unsigned l.fieldCount), ("system", l.system.toPacked)]

def ofPacked? (v : Packed) : Option Layout := do
  match ← fields? ["field_count", "system"] v with
  | [fieldCount, system] =>
    return {
      fieldCount := ← required? word? fieldCount
      system := ← required? SystemFields.ofPacked? system }
  | _ => none

end Layout

namespace EntityConfig

def toPacked (c : EntityConfig) : Packed :=
  ofFields [("capacity", .unsigned c.capacity), ("reserved", .unsigned c.reserved),
    ("free_hysteresis", ofSingle c.hysteresis), ("startup_grace", ofSingle c.startupGrace)]

def ofPacked? (v : Packed) : Option EntityConfig := do
  match ← numericFields? ["capacity", "reserved", "free_hysteresis", "startup_grace"] v with
  | [capacity, reserved, hysteresis, startupGrace] =>
    return {
      capacity := ← required? word? capacity
      reserved := ← required? word? reserved
      hysteresis := ← required? single? hysteresis
      startupGrace := ← required? single? startupGrace }
  | _ => none

end EntityConfig

namespace RecordState

def toPacked (s : RecordState) : Packed :=
  ofFields [("free", .bool s.free), ("free_time", ofSingle s.freeTime), ("linked", .bool s.linked)]

def ofPacked? (v : Packed) : Option RecordState := do
  match ← fields? ["free", "free_time", "linked"] v with
  | [free, freeTime, linked] =>
    return {
      free := ← required? bool? free
      freeTime := ← required? single? freeTime
      linked := ← required? bool? linked }
  | _ => none

end RecordState

namespace Entities

def toPacked (t : Entities) : Packed :=
  ofFields [("layout", t.layout.toPacked), ("config", t.config.toPacked), ("cells", ofCells t.cells),
    ("states", .list (t.states.toList.map RecordState.toPacked))]

def ofPacked? (v : Packed) : Option Entities := do
  match ← fields? ["layout", "config", "cells", "states"] v with
  | [layout, config, cells, states] =>
    return {
      layout := ← required? Layout.ofPacked? layout
      config := ← required? EntityConfig.ofPacked? config
      cells := ← required? (list? Cell.ofPacked?) cells
      states := ← required? (list? RecordState.ofPacked?) states }
  | _ => none

end Entities

namespace StringPool

def toPacked (p : StringPool) : Packed :=
  ofFields [("data", ofText p.data), ("temp_base", ofOffset p.ringBase),
    ("next_temp", .unsigned p.cursor)]

def ofPacked? (v : Packed) : Option StringPool := do
  match ← fields? ["data", "temp_base", "next_temp"] v with
  | [data, ringBase, cursor] =>
    let pool : StringPool := {
      data := ← required? text? data
      index := ∅
      ringBase := ← offset? offsetLimit ringBase
      cursor := ← required? word? cursor }
    return pool.reindex
  | _ => none

end StringPool

namespace Snapshot

def toPacked (s : Snapshot) : Packed :=
  ofFields [("time", ofSingle s.time), ("frame", .unsigned s.frame.toNat),
    ("globals", s.globals.toPacked), ("entities", s.entities.toPacked),
    ("strings", s.strings.toPacked)]

def ofPacked? (v : Packed) : Option Snapshot := do
  match ← fields? ["time", "frame", "globals", "entities", "strings"] v with
  | [time, frame, globals, entities, strings] =>
    return {
      time := ← required? single? time
      frame := UInt64.ofNat (← required? word? frame)
      globals := ← required? Segment.ofPacked? globals
      entities := ← required? Entities.ofPacked? entities
      strings := ← required? StringPool.ofPacked? strings }
  | _ => none

def encode (s : Snapshot) : List UInt8 := s.toPacked.bytes

/-- Bytes after the snapshot are not looked at. -/
def decode? (bytes : List UInt8) : Option Snapshot := do
  let (v, _) ← Packed.read? bytes
  ofPacked? v

def decode (bytes : List UInt8) : Outcome Snapshot :=
  match decode? bytes with
  | some s => .ok s
  | none => .fail (.serialization "malformed snapshot")

end Snapshot

/-! ## Archives

A flat folder of named files that snapshots are kept in. A name is a path: it starts in
the archive's folder, or with a slash at the root. The folder lies in the one for temporary files; of
the rest of the file system only two devices are there. The one that is always full refuses every
byte, and the one that is always empty takes them and keeps none. -/

inductive Folder where
  | archive
  | temporary
  | root
  | devices
  deriving DecidableEq, Inhabited, Repr

inductive Location where
  | folder (place : Folder)
  | file (place : Folder) (name : String)
  | fullDevice
  | emptyDevice
  | nowhere
  deriving DecidableEq, Repr

structure Archive where
  files : List ((Folder × String) × List UInt8)
  deriving Inhabited

namespace Folder

def maxNameBytes : Nat := 255

def isFileName (name : String) : Bool :=
  decide (name.utf8ByteSize ≤ maxNameBytes) && name.toList.all fun c => c.toNat != 0

def parent : Folder → Folder
  | archive => temporary
  | temporary | root | devices => root

def find : Folder → String → Location
  | root, "tmp" => .folder temporary
  | root, "dev" => .folder devices
  | devices, "full" => .fullDevice
  | devices, "null" => .emptyDevice
  | root, _ | devices, _ => .nowhere
  | place, name => if isFileName name then .file place name else .nowhere

end Folder

namespace Location

def maxPathBytes : Nat := 4095

def archivePathBytes : Nat := 32

/-- Follows one component of a path. A dot, or nothing between two slashes, stays in a folder, and two
dots lead to the one above. Nothing leads on from what is no folder. -/
def enter : Location → String → Location
  | folder place, "" | folder place, "." => folder place
  | folder place, ".." => folder place.parent
  | folder place, name => place.find name
  | _, _ => nowhere

def ofPath (path : String) : Location :=
  let absolute := path.startsWith "/"
  let bytes := path.utf8ByteSize + if absolute then 0 else archivePathBytes
  if maxPathBytes < bytes then nowhere
  else (path.splitOn "/").foldl enter (folder (if absolute then .root else .archive))

end Location

namespace Archive

def empty : Archive := ⟨[]⟩

def read (a : Archive) (name : String) : Outcome (List UInt8) :=
  let failure := Outcome.fail (.io s!"failed to open file '{name}'")
  match Location.ofPath name with
  | .file place name =>
    match a.files.find? fun f => f.1 == (place, name) with
    | some f => .ok f.2
    | none => failure
  | .emptyDevice => .ok []
  | _ => failure

def write (a : Archive) (name : String) (bytes : List UInt8) : Outcome Archive :=
  let failure := Outcome.fail (.io s!"failed to create file '{name}'")
  match Location.ofPath name with
  | .file place name =>
    .ok ⟨((place, name), bytes) :: a.files.filter fun f => f.1 != (place, name)⟩
  | .emptyDevice => .ok a
  | .fullDevice => if bytes.isEmpty then .ok a else failure
  | _ => failure

def save (a : Archive) (name : String) (s : Snapshot) : Outcome Archive := a.write name s.encode

def load (a : Archive) (name : String) : Outcome Snapshot := do
  Snapshot.decode (← a.read name)

end Archive

end EntityMachine
