import Std.Data.HashMap
import EntityMachine.Cell

/-! The string pool. Texts lie back to back in one string, each closed by a NUL, and an id is a byte
offset into it, so an id may also name the end of a stored text. Interned texts stay for good and
are found again through an index. Short-lived texts go into a ring of sixteen slots, which is made
on first use; the index never names a slot. -/
namespace EntityMachine

structure StringPool where
  data : String
  index : Std.HashMap String StringId
  ringBase : Option Nat
  cursor : Nat

namespace StringPool

def ringSlots : Nat := 16

def slotBytes : Nat := 128

def ringBytes : Nat := ringSlots * slotBytes

def offsetLimit : Nat := 0x100000000

def untilNul (text : String.Slice) : String := (text.takeWhile (· ≠ '\x00')).copy

def nuls (count : Nat) : String := String.ofList (List.replicate count '\x00')

/-! ## Lookup -/

def size (pool : StringPool) : Nat := pool.data.utf8ByteSize

def isEmpty (pool : StringPool) : Bool := decide (pool.size ≤ 1)

/-- The text at an offset, unless it is past the end or inside a character. -/
def get? (pool : StringPool) (id : StringId) : Option String :=
  (pool.data.pos? ⟨id.toNat⟩).map fun start => untilNul (pool.data.sliceFrom start)

/-- An id that names nothing counts as the empty text. -/
def resolve (pool : StringPool) (id : StringId) : String := (pool.get? id).getD ""

def lookup? (pool : StringPool) (text : String) : Option StringId := pool.index[text]?

def isTemporary (pool : StringPool) (id : StringId) : Bool :=
  match pool.ringBase with
  | some base => decide (base ≤ id.toNat ∧ id.toNat < base + ringBytes)
  | none => false

/-! ## Index -/

def emptyIndex : Std.HashMap String StringId := (∅ : Std.HashMap String StringId).insert "" .null

/-- Adds texts that lie one after the other, each with its NUL; an earlier copy keeps its entry. -/
def indexTexts : List String → Nat → Std.HashMap String StringId → Std.HashMap String StringId
  | [], _, index => index
  | text :: rest, offset, index =>
    let index := if offset < offsetLimit then index.insertIfNew text (.ofNat offset) else index
    indexTexts rest (offset + text.utf8ByteSize + 1) index

def indexRange (data : String) (first last : Nat) (index : Std.HashMap String StringId) :
    Std.HashMap String StringId :=
  match data.pos? ⟨first⟩, data.pos? ⟨last⟩ with
  | some start, some stop =>
    match data.slice? start stop with
    | some region => indexTexts ((region.split '\x00').toList.map (·.copy)) first index
    | none => index
  | _, _ => index

def indexOf (data : String) : Option Nat → Std.HashMap String StringId
  | none => indexRange data 0 data.utf8ByteSize emptyIndex
  | some base =>
    indexRange data (base + ringBytes) data.utf8ByteSize (indexRange data 0 base emptyIndex)

def reindex (pool : StringPool) : StringPool :=
  { pool with index := indexOf pool.data pool.ringBase }

/-! ## Construction -/

def empty : StringPool := { data := "\x00", index := emptyIndex, ringBase := none, cursor := 0 }

instance : Inhabited StringPool := ⟨empty⟩

/-- A pool over texts that are already laid out. Offset 0 is made the empty text, and the last text
is closed. -/
def ofBlob (blob : String) : StringPool :=
  let opened := if blob.startsWith '\x00' then blob else "\x00" ++ blob
  let closed := if opened.endsWith '\x00' then opened else opened ++ "\x00"
  ({ empty with data := closed } : StringPool).reindex

/-! ## Storing -/

/-- The id of a text cut at its first NUL, stored at the end if it is new. There is none if the
pool has outgrown its offsets. -/
def intern? (pool : StringPool) (text : String) : Option (StringId × StringPool) :=
  let text := untilNul text.toSlice
  match pool.lookup? text with
  | some id => some (id, pool)
  | none =>
    if pool.size < offsetLimit then
      let id := StringId.ofNat pool.size
      some (id, { pool with data := pool.data ++ text ++ "\x00", index := pool.index.insert text id })
    else none

def fitting : Nat → List Char → List Char
  | _, [] => []
  | room, c :: rest => if c.utf8Size ≤ room then c :: fitting (room - c.utf8Size) rest else []

/-- A slot's bytes: as much of the text as fits before a NUL, then NULs to the end. -/
def slotText (text : String) : String :=
  let kept := String.ofList (fitting (slotBytes - 1) text.toList)
  kept ++ nuls (slotBytes - kept.utf8ByteSize)

def replaceBytes? (data : String) (first count : Nat) (text : String) : Option String :=
  match data.pos? ⟨first⟩, data.pos? ⟨first + count⟩ with
  | some start, some stop => some ((data.sliceTo start).copy ++ text ++ (data.sliceFrom stop).copy)
  | _, _ => none

def withRing? (pool : StringPool) : Option (Nat × StringPool) :=
  match pool.ringBase with
  | some base => some (base, pool)
  | none =>
    if pool.size < offsetLimit then
      some (pool.size,
        { pool with data := pool.data ++ nuls ringBytes, ringBase := some pool.size })
    else none

/-- Writes a text, cut at its first NUL and to a slot's room, into the next slot of the ring. The
empty text needs no slot. -/
def temporary? (pool : StringPool) (text : String) : Option (StringId × StringPool) :=
  let text := untilNul text.toSlice
  if text.isEmpty then some (.null, pool)
  else do
    let (base, pool) ← pool.withRing?
    let start := base + pool.cursor * slotBytes
    let data ← replaceBytes? pool.data start slotBytes (slotText text)
    if start < offsetLimit then
      some (.ofNat start, { pool with data, cursor := (pool.cursor + 1) % ringSlots })
    else none

end StringPool
end EntityMachine
