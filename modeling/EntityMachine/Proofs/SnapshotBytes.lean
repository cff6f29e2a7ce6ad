import EntityMachine.Proofs.PackedReading
import EntityMachine.Snapshot

/-!
Snapshots read back from their bytes. Each structure gives its fields back in the order of their names,
each field its value bit for bit, and all of it fits the format. Only the index of the string pool is
not among the bytes.
-/
namespace EntityMachine
namespace Packed

/-! ## Texts, numbers and lists -/

theorem toList_loop (bytes : ByteArray) (i : Nat) (done : List UInt8) :
    ByteArray.toList.loop bytes i done = done.reverse ++ bytes.data.toList.drop i := by
  fun_induction ByteArray.toList.loop bytes i done with
  | case1 i done inside ih =>
      have next : bytes.data.toList.drop i = bytes.get! i :: bytes.data.toList.drop (i + 1) := by
        rw [List.drop_eq_getElem_cons (by simpa using inside)]
        simp [ByteArray.get!, inside]
      rw [ih, next, List.reverse_cons, List.append_assoc]
      rfl
  | case2 i done outside =>
      rw [List.drop_eq_nil_of_le (by simpa using Nat.le_of_not_lt outside), List.append_nil]

theorem textBytes_eq (text : String) : text.toUTF8.toList = text.toByteArray.data.toList :=
  toList_loop _ 0 []

theorem textBytes_length (text : String) : text.toUTF8.toList.length = text.utf8ByteSize := by
  rw [textBytes_eq]
  simp

theorem textBytes_inj {text other : String} :
    text.toUTF8.toList = other.toUTF8.toList ↔ text = other := by
  rw [textBytes_eq, textBytes_eq, Array.toList_inj, ← String.toByteArray_inj]
  exact ⟨ByteArray.ext, congrArg _⟩

theorem text?_ofText (text : String) : text? (ofText text) = some text := by
  rw [ofText, text?, ofUTF8?, textBytes_eq, Array.toArray_toList]
  exact dif_pos text.isValidUTF8

theorem word?_unsigned {n : Nat} (small : n < 2 ^ 64) : word? (.unsigned n) = some n := if_pos small

theorem offset?_ofOffset {bound : Nat} {offset : Option Nat} (small : ∀ n ∈ offset, n < bound) :
    offset? bound (some (ofOffset offset)) = some offset := by
  cases offset with
  | none => rfl
  | some n => simp [offset?, ofOffset, optional?, natBelow?, small n rfl]

theorem gather?_map {item? : Packed → Option α} {encode : α → Packed} (items : List α)
    (reads : ∀ a, item? (encode a) = some a) (done : Array α) :
    gather? item? (items.map encode) done = some (done ++ items.toArray) := by
  induction items generalizing done with
  | nil => simp [gather?]
  | cons a rest ih => simp [gather?, reads, ih]

theorem list?_map {item? : Packed → Option α} {encode : α → Packed}
    (reads : ∀ a, item? (encode a) = some a) (items : Array α) :
    list? item? (.list (items.toList.map encode)) = some items := by
  rw [list?, gather?_map _ reads]
  simp

/-! ## Structures -/

section Structures
variable {names : List String} {fields : List (String × Packed)}

theorem fieldPlace?_ofText (names : List String) (name : String) :
    fieldPlace? names (ofText name) = some (names.findIdx? (· == name)) := by
  simp only [fieldPlace?, ofText]
  congr 2
  funext other
  rw [Bool.eq_iff_iff, beq_iff_eq, beq_iff_eq]
  exact textBytes_inj

theorem collectFields_entries (done rest : List (String × Packed))
    (named : names = (done ++ rest).map Prod.fst) (distinct : names.Nodup) :
    collectFields names (rest.map fun field => (ofText field.1, field.2))
      (done.map (fun field => some field.2) ++ rest.map fun _ => none) =
        some ((done ++ rest).map fun field => some field.2) := by
  -- Over the fields still to come. Names are distinct, so each finds its own place.
  induction rest generalizing done with
  | nil => simp [collectFields]
  | cons field rest ih =>
      obtain ⟨_, _, apart⟩ := List.nodup_append.mp (List.map_append ▸ named ▸ distinct)
      have place : names.findIdx? (· == field.1) = some done.length := by
        have earlier : (done.map Prod.fst).findIdx? (· == field.1) = none := by
          rw [List.findIdx?_eq_none_iff]
          intro name member
          exact beq_false_of_ne (apart name member field.1 List.mem_cons_self)
        rw [named, List.map_append, List.findIdx?_append, earlier]
        simp [List.findIdx?_cons]
      have later := ih (done ++ [field]) (by rw [named, List.append_assoc]; rfl)
      rw [List.append_assoc] at later
      simpa [collectFields, fieldPlace?_ofText, place] using later

theorem fields?_ofFields (named : fields.map Prod.fst = names) (distinct : names.Nodup) :
    fields? names (ofFields fields) = some (fields.map fun field => some field.2) := by
  have collected := collectFields_entries [] fields named.symm distinct
  subst named
  simpa [fields?, ofFields, Function.comp_def] using collected

theorem numericFields?_ofFields (names : List String) (fields : List (String × Packed)) :
    numericFields? names (ofFields fields) = fields? names (ofFields fields) := rfl

end Structures

end Packed

/-! ## The state of a program -/

open Packed

theorem Cell.ofPacked?_bits (c : Cell) : Cell.ofPacked? (.unsigned c.bits.toNat) = some c := by
  simp [Cell.ofPacked?, natBelow?, show c.bits.toNat < 0x100000000 from c.bits.toNat_lt]

theorem Segment.ofPacked?_toPacked (s : Segment) : ofPacked? s.toPacked = some s := by
  simp [ofPacked?, toPacked, fields?_ofFields, required?, ofCells, list?_map Cell.ofPacked?_bits]

theorem SystemFields.ofPacked?_toPacked (f : SystemFields) : ofPacked? f.toPacked = some f := by
  have reads (offset : Option UInt16) :
      offset? 0x10000 (some (ofOffset (offset.map UInt16.toNat))) = some (offset.map UInt16.toNat) := by
    refine offset?_ofOffset fun n member => ?_
    obtain ⟨word, _, rfl⟩ := Option.map_eq_some_iff.mp member
    exact word.toNat_lt
  simp [ofPacked?, toPacked, fields?_ofFields, toList, names, reads, Function.comp_def]

theorem Layout.ofPacked?_toPacked (l : Layout) (small : l.fieldCount < 2 ^ 64) :
    ofPacked? l.toPacked = some l := by
  simp [ofPacked?, toPacked, fields?_ofFields, required?, word?_unsigned small,
    SystemFields.ofPacked?_toPacked]

theorem EntityConfig.ofPacked?_toPacked (c : EntityConfig) (capacity : c.capacity < 2 ^ 64)
    (reserved : c.reserved < 2 ^ 64) : ofPacked? c.toPacked = some c := by
  simp [ofPacked?, toPacked, numericFields?_ofFields, fields?_ofFields, required?,
    word?_unsigned capacity, word?_unsigned reserved, ofSingle, single?]

theorem RecordState.ofPacked?_toPacked (s : RecordState) : ofPacked? s.toPacked = some s := by
  simp [ofPacked?, toPacked, fields?_ofFields, required?, bool?, ofSingle, single?]

/-- Lengths and numbers are no larger than the format writes them. -/
structure Entities.Sized (t : Entities) : Prop where
  fieldCount : t.layout.fieldCount < 2 ^ 64
  capacity : t.config.capacity < 2 ^ 64
  reserved : t.config.reserved < 2 ^ 64
  cells : t.cells.size < 2 ^ 32
  states : t.states.size < 2 ^ 32

theorem Entities.ofPacked?_toPacked {t : Entities} (sized : t.Sized) : ofPacked? t.toPacked = some t := by
  simp [ofPacked?, toPacked, fields?_ofFields, required?, ofCells, list?_map Cell.ofPacked?_bits,
    list?_map RecordState.ofPacked?_toPacked, Layout.ofPacked?_toPacked _ sized.fieldCount,
    EntityConfig.ofPacked?_toPacked _ sized.capacity sized.reserved]

structure StringPool.Sized (p : StringPool) : Prop where
  text : p.size < 2 ^ 32
  ringBase : ∀ base ∈ p.ringBase, base < offsetLimit
  cursor : p.cursor < 2 ^ 64

theorem StringPool.ofPacked?_toPacked {p : StringPool} (sized : p.Sized) :
    ofPacked? p.toPacked = some p.reindex := by
  simp [ofPacked?, toPacked, fields?_ofFields, required?, text?_ofText, offset?_ofOffset sized.ringBase,
    word?_unsigned sized.cursor, reindex]

theorem Snapshot.ofPacked?_toPacked {s : Snapshot} (entities : s.entities.Sized)
    (strings : s.strings.Sized) :
    ofPacked? s.toPacked = some { s with strings := s.strings.reindex } := by
  simp [ofPacked?, toPacked, fields?_ofFields, required?, ofSingle, single?,
    word?_unsigned s.frame.toNat_lt, Segment.ofPacked?_toPacked,
    Entities.ofPacked?_toPacked entities, StringPool.ofPacked?_toPacked strings]

/-! ## The format has room for it -/

theorem Packed.ofText_fits {depth : Nat} {text : String} (short : text.utf8ByteSize < 2 ^ 32) :
    Fits depth (ofText text) := .text (textBytes_length text ▸ short)

theorem Packed.ofFields_fits {depth : Nat} {fields : List (String × Packed)}
    (few : fields.length < 2 ^ 32) (short : ∀ field ∈ fields, field.1.utf8ByteSize < 2 ^ 32)
    (fit : ∀ field ∈ fields, Fits depth field.2) : Fits (depth + 1) (ofFields fields) := by
  refine .map (by rwa [List.length_map]) ?_ ?_
  all_goals
    intro entry member
    obtain ⟨field, listed, rfl⟩ := List.mem_map.mp member
  · exact ofText_fits (short field listed)
  · exact fit field listed

theorem Packed.ofOffset_fits {depth : Nat} {offset : Option Nat} (small : ∀ n ∈ offset, n < 2 ^ 64) :
    Fits depth (ofOffset offset) := by
  cases offset with
  | none => exact .nil
  | some n => exact .unsigned (small n rfl)

theorem Packed.ofCells_fits {depth : Nat} {cells : Array Cell} (few : cells.size < 2 ^ 32) :
    Fits (depth + 1) (ofCells cells) := by
  apply Fits.list (by simpa using few)
  intro v member
  obtain ⟨c, _, rfl⟩ := List.mem_map.mp member
  exact .unsigned (Nat.lt_trans c.bits.toNat_lt (by decide))

section Fits
variable {depth : Nat}

theorem Segment.toPacked_fits {s : Segment} (few : s.size < 2 ^ 32) : Fits (depth + 2) s.toPacked :=
  ofFields_fits (by simp) (by simp +decide) (by simp [ofCells_fits few])

theorem SystemFields.toPacked_fits (f : SystemFields) : Fits (depth + 1) f.toPacked := by
  refine ofFields_fits (by simp [names, toList]) ?_ ?_
  all_goals rintro ⟨name, value⟩ member
  · have short : ∀ name ∈ names, name.utf8ByteSize < 2 ^ 32 := by decide
    exact short name (List.of_mem_zip member).1
  · obtain ⟨offset, _, rfl⟩ := List.mem_map.mp (List.of_mem_zip member).2
    apply ofOffset_fits
    intro n given
    obtain ⟨word, _, rfl⟩ := Option.map_eq_some_iff.mp given
    exact Nat.lt_trans word.toNat_lt (by decide)

theorem Layout.toPacked_fits {l : Layout} (small : l.fieldCount < 2 ^ 64) :
    Fits (depth + 2) l.toPacked :=
  ofFields_fits (by simp) (by simp +decide)
    (by simp [Fits.unsigned small, SystemFields.toPacked_fits])

theorem EntityConfig.toPacked_fits {c : EntityConfig} (capacity : c.capacity < 2 ^ 64)
    (reserved : c.reserved < 2 ^ 64) : Fits (depth + 1) c.toPacked :=
  ofFields_fits (by simp) (by simp +decide)
    (by simp [Fits.unsigned capacity, Fits.unsigned reserved, ofSingle, Fits.single])

theorem RecordState.toPacked_fits (s : RecordState) : Fits (depth + 1) s.toPacked :=
  ofFields_fits (by simp) (by simp +decide) (by simp [Fits.bool, ofSingle, Fits.single])

theorem Entities.toPacked_fits {t : Entities} (sized : t.Sized) : Fits (depth + 3) t.toPacked := by
  have states : Fits (depth + 2) (.list (t.states.toList.map RecordState.toPacked)) := by
    apply Fits.list (by simpa using sized.states)
    intro v member
    obtain ⟨state, _, rfl⟩ := List.mem_map.mp member
    exact state.toPacked_fits
  exact ofFields_fits (by simp) (by simp +decide)
    (by simp [Layout.toPacked_fits sized.fieldCount, states, ofCells_fits sized.cells,
      EntityConfig.toPacked_fits sized.capacity sized.reserved])

theorem StringPool.toPacked_fits {p : StringPool} (sized : p.Sized) : Fits (depth + 1) p.toPacked := by
  have base : Fits depth (ofOffset p.ringBase) :=
    ofOffset_fits fun n given => Nat.lt_trans (sized.ringBase n given) (by decide)
  exact ofFields_fits (by simp) (by simp +decide)
    (by simp [ofText_fits sized.text, base, Fits.unsigned sized.cursor])

theorem Snapshot.toPacked_fits {s : Snapshot} (globals : s.globals.size < 2 ^ 32)
    (entities : s.entities.Sized) (strings : s.strings.Sized) : Fits (depth + 4) s.toPacked :=
  ofFields_fits (by simp) (by simp +decide)
    (by simp [ofSingle, Fits.single, Fits.unsigned s.frame.toNat_lt, Segment.toPacked_fits globals,
      Entities.toPacked_fits entities, StringPool.toPacked_fits strings])

end Fits

/-- Reading the bytes of a snapshot gives it back, with the index built anew. -/
theorem Snapshot.decode_encode {s : Snapshot} (globals : s.globals.size < 2 ^ 32)
    (entities : s.entities.Sized) (strings : s.strings.Sized) :
    decode s.encode = .ok { s with strings := s.strings.reindex } := by
  have read : readNested? maxNesting (s.toPacked.bytes ++ []) = some (s.toPacked, []) :=
    readNested?_bytes (toPacked_fits globals entities strings) []
  rw [List.append_nil] at read
  have decoded : decode? s.encode = some { s with strings := s.strings.reindex } := by
    rw [decode?, encode, read?, read, Option.bind_eq_bind, Option.bind_some]
    exact ofPacked?_toPacked entities strings
  rw [decode, decoded]

end EntityMachine
