import EntityMachine.MessagePack
import Mathlib.Tactic.Ring

/-!
Reading back what was written. A value whose numbers and lengths fit the format is written in its
shortest form, and reading that form gives the value and leaves what came behind it.
-/
namespace EntityMachine.Packed

/-! ## Numbers -/

theorem bigEndian_length (width n : Nat) : (bigEndian width n).length = width := by
  induction width with
  | zero => rfl
  | succ width ih => rw [bigEndian, List.length_cons, ih]

theorem foldl_bigEndian (width n high : Nat) :
    (bigEndian width n).foldl (fun n b => 256 * n + b.toNat) high =
      high * 256 ^ width + n % 256 ^ width := by
  induction width generalizing high with
  | zero => simp [bigEndian, Nat.mod_one]
  | succ width ih =>
      have digit : (UInt8.ofNat (n / 256 ^ width)).toNat = n / 256 ^ width % 256 := UInt8.toNat_ofNat'
      rw [bigEndian, List.foldl_cons, ih, Nat.pow_eq, digit, Nat.mod_pow_succ, pow_succ]
      ring

theorem ofBigEndian_bigEndian {width n : Nat} (small : n < 256 ^ width) :
    ofBigEndian (bigEndian width n) = n := by
  rw [ofBigEndian, foldl_bigEndian, Nat.zero_mul, Nat.zero_add, Nat.mod_eq_of_lt small]

theorem takeBytes_append (bytes rest : List UInt8) :
    takeBytes bytes.length (bytes ++ rest) = some (bytes, rest) := by
  simp [takeBytes]

theorem takeNumber_bigEndian {width n : Nat} (small : n < 256 ^ width) (rest : List UInt8) :
    takeNumber width (bigEndian width n ++ rest) = some (n, rest) := by
  have taken := takeBytes_append (bigEndian width n) rest
  rw [bigEndian_length] at taken
  simp only [takeNumber, taken, Option.map_some, ofBigEndian_bigEndian small]

theorem takeSigned_bigEndian {width : Nat} {i : Int} (low : -(256 ^ width : Nat) ≤ 2 * i)
    (high : 2 * i < (256 ^ width : Nat)) (rest : List UInt8) :
    takeSigned width (bigEndian width (i % (256 ^ width : Nat)).toNat ++ rest) = some (i, rest) := by
  have positive : 0 < 256 ^ width := Nat.pow_pos (by decide)
  have below : (i % (256 ^ width : Nat)).toNat < 256 ^ width := by omega
  have residue : ((i % (256 ^ width : Nat)).toNat : Int) = i % (256 ^ width : Nat) :=
    Int.toNat_of_nonneg (Int.emod_nonneg _ (by omega))
  have taken := takeBytes_append (bigEndian width (i % (256 ^ width : Nat)).toNat) rest
  rw [bigEndian_length] at taken
  simp only [takeSigned, taken, Option.map_some, signedOfBigEndian, bigEndian_length,
    ofBigEndian_bigEndian below, residue, Nat.pow_eq, Int.emod_bmod]
  rw [Int.bmod_eq_of_le_mul_two (by omega) (by omega)]

theorem sized_bigEndian {width length : Nat} (small : length < 256 ^ width)
    (body : Nat → Reader Packed) (rest : List UInt8) :
    sized width body (bigEndian width length ++ rest) = body length rest := by
  rw [sized, takeNumber_bigEndian small]
  rfl

/-! ## What is written -/

mutual

theorem emit_toList (v : Packed) (out : Array UInt8) : (v.emit out).toList = out.toList ++ v.bytes := by
  cases v with
  | bool b => cases b <;> simp [bytes, emit]
  | list items => simp [bytes, emit, emitItems_toList items]
  | map entries => simp [bytes, emit, emitEntries_toList entries]
  | _ => simp [bytes, emit]

theorem emitItems_toList (items : List Packed) (out : Array UInt8) :
    (emitItems items out).toList = out.toList ++ items.flatMap bytes := by
  cases items with
  | nil => simp [emitItems]
  | cons item rest => simp [emitItems, emitItems_toList rest, emit_toList item]

theorem emitEntries_toList (entries : List (Packed × Packed)) (out : Array UInt8) :
    (emitEntries entries out).toList = out.toList ++ entries.flatMap fun e => e.1.bytes ++ e.2.bytes := by
  cases entries with
  | nil => simp [emitEntries]
  | cons entry rest =>
      obtain ⟨key, value⟩ := entry
      simp [emitEntries, emitEntries_toList rest, emit_toList key, emit_toList value]

end

theorem unsigned_bytes (n : Nat) : (unsigned n).bytes = unsignedBytes n := by simp [bytes, emit]

theorem signed_bytes (i : Int) : (signed i).bytes = signedBytes i := by simp [bytes, emit]

theorem single_bytes (bits : UInt32) : (single bits).bytes = marked 0xca 4 bits.toNat := by
  simp [bytes, emit]

theorem double_bytes (bits : UInt64) : (double bits).bytes = marked 0xcb 8 bits.toNat := by
  simp [bytes, emit]

theorem binary_bytes (bytes : List UInt8) :
    (binary bytes).bytes = binaryHeader bytes.length ++ bytes := by
  simp [Packed.bytes, emit]

theorem extension_bytes (type : UInt8) (bytes : List UInt8) :
    (extension type bytes).bytes = extensionHeader type bytes.length ++ bytes := by
  simp [Packed.bytes, emit]

theorem text_bytes (bytes : List UInt8) : (text bytes).bytes = textHeader bytes.length ++ bytes := by
  simp [Packed.bytes, emit]

theorem list_bytes (items : List Packed) :
    (list items).bytes = listHeader items.length ++ items.flatMap bytes := by
  simp [bytes, emit, emitItems_toList]

theorem map_bytes (entries : List (Packed × Packed)) :
    (map entries).bytes =
      mapHeader entries.length ++ entries.flatMap fun e => e.1.bytes ++ e.2.bytes := by
  simp [bytes, emit, emitEntries_toList]

/-! ## Markers -/

section Markers
variable {depth n : Nat} {marker : UInt8} {rest : List UInt8}

theorem readNested?_scalar (plain : ∀ item, container? item marker = none) :
    readNested? depth (marker :: rest) = scalar? marker rest := by
  cases depth with
  | zero => simp only [readNested?, plain]
  | succ depth => simp only [readNested?, plain]

theorem readNested?_container {body : Reader Packed → Reader Packed}
    (opens : ∀ item, container? item marker = some (body item)) :
    readNested? (depth + 1) (marker :: rest) = body (readNested? depth) rest := by
  simp only [readNested?, opens]

theorem marker_toNat (small : n < 256) : (UInt8.ofNat n).toNat = n := UInt8.toNat_ofNat_of_lt' small

theorem plain_marker (item : Reader Packed) (small : n < 256)
    (plain : n < 0x80 ∨ 0xa0 ≤ n ∧ n < 0xc7 ∨ 0xe0 ≤ n) : container? item (UInt8.ofNat n) = none := by
  simp only [container?, marker_toNat small]
  rw [if_neg (by omega), if_neg (by omega)]
  split <;> first | rfl | omega

theorem scalar?_unsigned (small : n < 0x80) :
    scalar? (UInt8.ofNat n) rest = some (unsigned n, rest) := by
  simp only [scalar?, marker_toNat (show n < 256 by omega), if_pos small]

theorem scalar?_signed (high : 0xe0 ≤ n) (small : n < 256) :
    scalar? (UInt8.ofNat n) rest = some (signed (n - 256), rest) := by
  simp only [scalar?, marker_toNat small]
  rw [if_neg (by omega), if_pos high]

theorem scalar?_text (small : n < 32) :
    scalar? (UInt8.ofNat (0xa0 + n)) rest = takeText n rest := by
  simp only [scalar?, marker_toNat (show 0xa0 + n < 256 by omega)]
  rw [if_neg (by omega), if_neg (by omega), if_pos (by omega), Nat.add_sub_cancel_left]

theorem container?_map (item : Reader Packed) (small : n < 16) :
    container? item (UInt8.ofNat (0x80 + n)) = some (takeMap item n) := by
  simp only [container?, marker_toNat (show 0x80 + n < 256 by omega)]
  rw [if_pos (by omega), Nat.add_sub_cancel_left]

theorem container?_list (item : Reader Packed) (small : n < 16) :
    container? item (UInt8.ofNat (0x90 + n)) = some (takeList item n) := by
  simp only [container?, marker_toNat (show 0x90 + n < 256 by omega)]
  rw [if_neg (by omega), if_pos (by omega), Nat.add_sub_cancel_left]

end Markers

/-! ## Headers -/

section Headers
variable {depth n width : Nat} {marker : UInt8} {rest : List UInt8}

theorem read_number {v : Nat → Packed} (plain : ∀ item, container? item marker = none)
    (reads : ∀ input, scalar? marker input = (takeNumber width input).map fun (n, rest) => (v n, rest))
    (small : n < 256 ^ width) :
    readNested? depth (marked marker width n ++ rest) = some (v n, rest) := by
  rw [marked, List.cons_append, readNested?_scalar plain, reads, takeNumber_bigEndian small]
  rfl

theorem read_signed {i : Int} (plain : ∀ item, container? item marker = none)
    (reads : ∀ input, scalar? marker input =
      (takeSigned width input).map fun (i, rest) => (signed i, rest))
    (low : -(256 ^ width : Nat) ≤ 2 * i) (high : 2 * i < (256 ^ width : Nat)) :
    readNested? depth (markedSigned marker width i ++ rest) = some (signed i, rest) := by
  rw [markedSigned, marked, List.cons_append, readNested?_scalar plain, reads, Nat.pow_eq,
    takeSigned_bigEndian low high]
  rfl

theorem read_sized {body : Nat → Reader Packed} (plain : ∀ item, container? item marker = none)
    (reads : scalar? marker = sized width body) (small : n < 256 ^ width) :
    readNested? depth (marked marker width n ++ rest) = body n rest := by
  rw [marked, List.cons_append, readNested?_scalar plain, reads, sized_bigEndian small]

theorem read_container {body : Reader Packed → Nat → Reader Packed}
    (opens : ∀ item, container? item marker = some (sized width (body item)))
    (small : n < 256 ^ width) :
    readNested? (depth + 1) (marked marker width n ++ rest) = body (readNested? depth) n rest := by
  rw [marked, List.cons_append, readNested?_container opens, sized_bigEndian small]

theorem read_unsignedBytes (small : n < 2 ^ 64) :
    readNested? depth (unsignedBytes n ++ rest) = some (unsigned n, rest) := by
  unfold unsignedBytes
  repeat' split
  · rename_i short
    rw [List.singleton_append, readNested?_scalar fun item => plain_marker item (by omega) (.inl short),
      scalar?_unsigned short]
  -- The other classes differ only in marker and width.
  all_goals exact read_number (fun _ => rfl) (fun _ => rfl) (by omega)

theorem read_signedBytes {i : Int} (low : -2 ^ 63 ≤ i) (high : i < 2 ^ 63) :
    readNested? depth (signedBytes i ++ rest) = some (signed i, rest) := by
  unfold signedBytes
  repeat' split
  · have byte : (i % 256).toNat < 256 := by omega
    have top : 0xe0 ≤ (i % 256).toNat := by omega
    have value : ((i % 256).toNat : Int) - 256 = i := by omega
    rw [List.singleton_append, readNested?_scalar fun item => plain_marker item byte (.inr (.inr top)),
      scalar?_signed top byte, value]
  all_goals exact read_signed (fun _ => rfl) (fun _ => rfl) (by omega) (by omega)

theorem read_textHeader (small : n < 2 ^ 32) :
    readNested? depth (textHeader n ++ rest) = takeText n rest := by
  unfold textHeader
  repeat' split
  · rename_i short
    have plain (item : Reader Packed) := plain_marker item (n := 0xa0 + n) (by omega)
      (.inr (.inl ⟨by omega, by omega⟩))
    rw [List.singleton_append, readNested?_scalar plain, scalar?_text short]
  all_goals exact read_sized (fun _ => rfl) rfl (by omega)

theorem read_binaryHeader (small : n < 2 ^ 32) :
    readNested? depth (binaryHeader n ++ rest) = takeBinary n rest := by
  unfold binaryHeader
  repeat' split
  all_goals exact read_sized (fun _ => rfl) rfl (by omega)

theorem read_listHeader (small : n < 2 ^ 32) :
    readNested? (depth + 1) (listHeader n ++ rest) = takeList (readNested? depth) n rest := by
  unfold listHeader
  repeat' split
  · rename_i short
    rw [List.singleton_append, readNested?_container fun item => container?_list item short]
  all_goals exact read_container (fun _ => rfl) (by omega)

theorem read_mapHeader (small : n < 2 ^ 32) :
    readNested? (depth + 1) (mapHeader n ++ rest) = takeMap (readNested? depth) n rest := by
  unfold mapHeader
  repeat' split
  · rename_i short
    rw [List.singleton_append, readNested?_container fun item => container?_map item short]
  all_goals exact read_container (fun _ => rfl) (by omega)

theorem read_extensionHeader (type : UInt8) (small : n < 2 ^ 32) :
    readNested? (depth + 1) (extensionHeader type n ++ rest) = takeExtension n (type :: rest) := by
  unfold extensionHeader
  repeat' split
  any_goals
    subst n
    rw [List.cons_append, readNested?_container fun _ => rfl]
    rfl
  all_goals
    rw [List.append_assoc, read_container (fun _ => rfl) (by omega)]
    rfl

end Headers

/-! ## Whole values -/

/-- The format has room for the value: numbers of at most 64 bits, lengths of at most 32, and containers
nested at most so deep. -/
inductive Fits : Nat → Packed → Prop
  | nil {depth} : Fits depth .nil
  | bool {depth} (b : Bool) : Fits depth (.bool b)
  | unsigned {depth n} : n < 2 ^ 64 → Fits depth (.unsigned n)
  | signed {depth i} : -2 ^ 63 ≤ i → i < 2 ^ 63 → Fits depth (.signed i)
  | single {depth} (bits : UInt32) : Fits depth (.single bits)
  | double {depth} (bits : UInt64) : Fits depth (.double bits)
  | text {depth} {bytes : List UInt8} : bytes.length < 2 ^ 32 → Fits depth (.text bytes)
  | binary {depth} {bytes : List UInt8} : bytes.length < 2 ^ 32 → Fits depth (.binary bytes)
  | list {depth} {items : List Packed} : items.length < 2 ^ 32 → (∀ v ∈ items, Fits depth v) →
      Fits (depth + 1) (.list items)
  | map {depth} {entries : List (Packed × Packed)} : entries.length < 2 ^ 32 →
      (∀ e ∈ entries, Fits depth e.1) → (∀ e ∈ entries, Fits depth e.2) →
      Fits (depth + 1) (.map entries)
  | extension {depth} (type : UInt8) {bytes : List UInt8} : bytes.length < 2 ^ 32 →
      Fits (depth + 1) (.extension type bytes)

theorem takeItems_flatMap {item : Reader α} {encode : α → List UInt8} (items : List α)
    (reads : ∀ v ∈ items, ∀ rest, item (encode v ++ rest) = some (v, rest)) (done : Array α)
    (rest : List UInt8) :
    takeItems item items.length done (items.flatMap encode ++ rest) =
      some (done ++ items.toArray, rest) := by
  -- The reader keeps what it has read so far, so the induction is general over that.
  induction items generalizing done with
  | nil => simp [takeItems]
  | cons v later ih =>
      rw [List.flatMap_cons, List.append_assoc, List.length_cons, takeItems,
        reads v List.mem_cons_self]
      simp only
      rw [ih fun w member => reads w (List.mem_cons_of_mem v member)]
      simp

theorem takePair_append {item : Reader Packed} {key value : Packed} {k v : List UInt8}
    (first : ∀ rest, item (k ++ rest) = some (key, rest))
    (second : ∀ rest, item (v ++ rest) = some (value, rest)) (rest : List UInt8) :
    takePair item ((k ++ v) ++ rest) = some ((key, value), rest) := by
  simp [takePair, List.append_assoc, first, second]

/-- Reading a written value gives the value, and leaves what comes behind it. -/
theorem readNested?_bytes {depth : Nat} {v : Packed} (fits : Fits depth v) (rest : List UInt8) :
    readNested? depth (v.bytes ++ rest) = some (v, rest) := by
  -- Over the nesting that the format has room for, general over what comes behind the value.
  induction fits generalizing rest with
  | nil => exact readNested?_scalar fun _ => rfl
  | bool b => cases b <;> exact readNested?_scalar fun _ => rfl
  | unsigned small =>
      rw [unsigned_bytes]
      exact read_unsignedBytes small
  | signed low high =>
      rw [signed_bytes]
      exact read_signedBytes low high
  | single bits =>
      rw [single_bytes, read_number (v := fun n => .single (.ofNat n)) (fun _ => rfl) (fun _ => rfl)
        bits.toNat_lt, UInt32.ofNat_toNat]
  | double bits =>
      rw [double_bytes, read_number (v := fun n => .double (.ofNat n)) (fun _ => rfl) (fun _ => rfl)
        bits.toNat_lt, UInt64.ofNat_toNat]
  | text small =>
      rw [text_bytes, List.append_assoc, read_textHeader small, takeText, takeBytes_append]
      rfl
  | binary small =>
      rw [binary_bytes, List.append_assoc, read_binaryHeader small, takeBinary, takeBytes_append]
      rfl
  | list small _ ih =>
      rw [list_bytes, List.append_assoc, read_listHeader small, takeList,
        takeItems_flatMap _ ih]
      simp
  | map small _ _ keys values =>
      rw [map_bytes, List.append_assoc, read_mapHeader small, takeMap,
        takeItems_flatMap _ fun e member => takePair_append (keys e member) (values e member)]
      simp
  | extension type small =>
      rw [extension_bytes, List.append_assoc, read_extensionHeader type small]
      simp [takeExtension, takeBytes]

end EntityMachine.Packed
