/-! MessagePack: a self-describing byte format of nested values. `emit` writes a value in its shortest
form; `read?` reads the value at the front of some bytes, in any form, and gives what is left. -/
namespace EntityMachine

/-- A value of the format. Integers keep the signedness they were written with, and texts their bytes,
valid or not. -/
inductive Packed where
  | nil
  | bool (b : Bool)
  | unsigned (n : Nat)
  | signed (i : Int)
  | single (bits : UInt32)
  | double (bits : UInt64)
  | text (bytes : List UInt8)
  | binary (bytes : List UInt8)
  | list (items : List Packed)
  | map (entries : List (Packed × Packed))
  | extension (type : UInt8) (bytes : List UInt8)
  deriving Inhabited

namespace Packed

/-! ## Numbers as bytes -/

def bigEndian : Nat → Nat → List UInt8
  | 0, _ => []
  | width + 1, n => UInt8.ofNat (n / Nat.pow 256 width) :: bigEndian width n

def ofBigEndian (bytes : List UInt8) : Nat := bytes.foldl (fun n b => 256 * n + b.toNat) 0

def signedOfBigEndian (bytes : List UInt8) : Int :=
  Int.bmod (ofBigEndian bytes) (Nat.pow 256 bytes.length)

/-! ## Writing -/

def marked (marker : UInt8) (width n : Nat) : List UInt8 := marker :: bigEndian width n

def unsignedBytes (n : Nat) : List UInt8 :=
  if n < 0x80 then [UInt8.ofNat n]
  else if n < 0x100 then marked 0xcc 1 n
  else if n < 0x10000 then marked 0xcd 2 n
  else if n < 0x100000000 then marked 0xce 4 n
  else marked 0xcf 8 n

def markedSigned (marker : UInt8) (width : Nat) (i : Int) : List UInt8 :=
  marked marker width (i % (Nat.pow 256 width : Nat)).toNat

def signedBytes (i : Int) : List UInt8 :=
  if -32 ≤ i ∧ i < 0 then [UInt8.ofNat (i % 256).toNat]
  else if -0x80 ≤ i ∧ i < 0x80 then markedSigned 0xd0 1 i
  else if -0x8000 ≤ i ∧ i < 0x8000 then markedSigned 0xd1 2 i
  else if -0x80000000 ≤ i ∧ i < 0x80000000 then markedSigned 0xd2 4 i
  else markedSigned 0xd3 8 i

def textHeader (length : Nat) : List UInt8 :=
  if length < 32 then [UInt8.ofNat (0xa0 + length)]
  else if length < 0x100 then marked 0xd9 1 length
  else if length < 0x10000 then marked 0xda 2 length
  else marked 0xdb 4 length

def binaryHeader (length : Nat) : List UInt8 :=
  if length < 0x100 then marked 0xc4 1 length
  else if length < 0x10000 then marked 0xc5 2 length
  else marked 0xc6 4 length

def listHeader (length : Nat) : List UInt8 :=
  if length < 16 then [UInt8.ofNat (0x90 + length)]
  else if length < 0x10000 then marked 0xdc 2 length
  else marked 0xdd 4 length

def mapHeader (length : Nat) : List UInt8 :=
  if length < 16 then [UInt8.ofNat (0x80 + length)]
  else if length < 0x10000 then marked 0xde 2 length
  else marked 0xdf 4 length

def extensionHeader (type : UInt8) (length : Nat) : List UInt8 :=
  if length = 1 then [0xd4, type]
  else if length = 2 then [0xd5, type]
  else if length = 4 then [0xd6, type]
  else if length = 8 then [0xd7, type]
  else if length = 16 then [0xd8, type]
  else if length < 0x100 then marked 0xc7 1 length ++ [type]
  else if length < 0x10000 then marked 0xc8 2 length ++ [type]
  else marked 0xc9 4 length ++ [type]

mutual

def emit : Packed → Array UInt8 → Array UInt8
  | nil, out => out.push 0xc0
  | bool false, out => out.push 0xc2
  | bool true, out => out.push 0xc3
  | unsigned n, out => out.appendList (unsignedBytes n)
  | signed i, out => out.appendList (signedBytes i)
  | single bits, out => out.appendList (marked 0xca 4 bits.toNat)
  | double bits, out => out.appendList (marked 0xcb 8 bits.toNat)
  | text bytes, out => (out.appendList (textHeader bytes.length)).appendList bytes
  | binary bytes, out => (out.appendList (binaryHeader bytes.length)).appendList bytes
  | list items, out => emitItems items (out.appendList (listHeader items.length))
  | map entries, out => emitEntries entries (out.appendList (mapHeader entries.length))
  | extension type bytes, out =>
    (out.appendList (extensionHeader type bytes.length)).appendList bytes

def emitItems : List Packed → Array UInt8 → Array UInt8
  | [], out => out
  | item :: rest, out => emitItems rest (emit item out)

def emitEntries : List (Packed × Packed) → Array UInt8 → Array UInt8
  | [], out => out
  | (key, value) :: rest, out => emitEntries rest (emit value (emit key out))

end

def bytes (v : Packed) : List UInt8 := (v.emit #[]).toList

/-! ## Reading -/

abbrev Reader (α : Type) := List UInt8 → Option (α × List UInt8)

def takeBytes (count : Nat) : Reader (List UInt8) := fun input =>
  let taken := input.take count
  if taken.length = count then some (taken, input.drop count) else none

def takeNumber (width : Nat) : Reader Nat := fun input =>
  (takeBytes width input).map fun (bytes, rest) => (ofBigEndian bytes, rest)

def takeSigned (width : Nat) : Reader Int := fun input =>
  (takeBytes width input).map fun (bytes, rest) => (signedOfBigEndian bytes, rest)

def takeItems (item : Reader α) : Nat → Array α → Reader (Array α)
  | 0, items, input => some (items, input)
  | count + 1, items, input =>
    match item input with
    | some (v, rest) => takeItems item count (items.push v) rest
    | none => none

def takePair (item : Reader Packed) : Reader (Packed × Packed) := fun input => do
  let (key, rest) ← item input
  let (value, rest) ← item rest
  return ((key, value), rest)

def takeText (length : Nat) : Reader Packed := fun input =>
  (takeBytes length input).map fun (bytes, rest) => (text bytes, rest)

def takeBinary (length : Nat) : Reader Packed := fun input =>
  (takeBytes length input).map fun (bytes, rest) => (binary bytes, rest)

def takeList (item : Reader Packed) (length : Nat) : Reader Packed := fun input =>
  (takeItems item length #[] input).map fun (items, rest) => (list items.toList, rest)

def takeMap (item : Reader Packed) (length : Nat) : Reader Packed := fun input =>
  (takeItems (takePair item) length #[] input).map fun (entries, rest) => (map entries.toList, rest)

def takeExtension (length : Nat) : Reader Packed := fun input => do
  let (type, rest) ← takeBytes 1 input
  let (bytes, rest) ← takeBytes length rest
  return (extension (type.headD 0) bytes, rest)

def sized (width : Nat) (body : Nat → Reader Packed) : Reader Packed := fun input => do
  let (length, rest) ← takeNumber width input
  body length rest

/-- Reads a value that is no list, map or extension, by the marker that came before. -/
def scalar? (marker : UInt8) : Reader Packed := fun input =>
  let n := marker.toNat
  if n < 0x80 then some (unsigned n, input)
  else if 0xe0 ≤ n then some (signed (n - 256), input)
  else if 0xa0 ≤ n ∧ n < 0xc0 then takeText (n - 0xa0) input
  else match n with
    | 0xc0 => some (nil, input)
    | 0xc2 => some (bool false, input)
    | 0xc3 => some (bool true, input)
    | 0xc4 => sized 1 takeBinary input
    | 0xc5 => sized 2 takeBinary input
    | 0xc6 => sized 4 takeBinary input
    | 0xca => (takeNumber 4 input).map fun (bits, rest) => (single (UInt32.ofNat bits), rest)
    | 0xcb => (takeNumber 8 input).map fun (bits, rest) => (double (UInt64.ofNat bits), rest)
    | 0xcc => (takeNumber 1 input).map fun (n, rest) => (unsigned n, rest)
    | 0xcd => (takeNumber 2 input).map fun (n, rest) => (unsigned n, rest)
    | 0xce => (takeNumber 4 input).map fun (n, rest) => (unsigned n, rest)
    | 0xcf => (takeNumber 8 input).map fun (n, rest) => (unsigned n, rest)
    | 0xd0 => (takeSigned 1 input).map fun (i, rest) => (signed i, rest)
    | 0xd1 => (takeSigned 2 input).map fun (i, rest) => (signed i, rest)
    | 0xd2 => (takeSigned 4 input).map fun (i, rest) => (signed i, rest)
    | 0xd3 => (takeSigned 8 input).map fun (i, rest) => (signed i, rest)
    | 0xd9 => sized 1 takeText input
    | 0xda => sized 2 takeText input
    | 0xdb => sized 4 takeText input
    | _ => none

/-- Reads a list, map or extension by its marker, or says that the marker is none of theirs. -/
def container? (item : Reader Packed) (marker : UInt8) : Option (Reader Packed) :=
  let n := marker.toNat
  if 0x80 ≤ n ∧ n < 0x90 then some (takeMap item (n - 0x80))
  else if 0x90 ≤ n ∧ n < 0xa0 then some (takeList item (n - 0x90))
  else match n with
    | 0xc7 => some (sized 1 takeExtension)
    | 0xc8 => some (sized 2 takeExtension)
    | 0xc9 => some (sized 4 takeExtension)
    | 0xd4 => some (takeExtension 1)
    | 0xd5 => some (takeExtension 2)
    | 0xd6 => some (takeExtension 4)
    | 0xd7 => some (takeExtension 8)
    | 0xd8 => some (takeExtension 16)
    | 0xdc => some (sized 2 (takeList item))
    | 0xdd => some (sized 4 (takeList item))
    | 0xde => some (sized 2 (takeMap item))
    | 0xdf => some (sized 4 (takeMap item))
    | _ => none

def readNested? : Nat → Reader Packed
  | _, [] => none
  | 0, marker :: rest =>
    match container? (fun _ => none) marker with
    | some _ => none
    | none => scalar? marker rest
  | depth + 1, marker :: rest =>
    match container? (readNested? depth) marker with
    | some body => body rest
    | none => scalar? marker rest

/-- Containers nested deeper are refused. -/
def maxNesting : Nat := 1023

def read? : Reader Packed := readNested? maxNesting

end Packed
end EntityMachine
