import EntityMachine.StringPool
import Mathlib.Data.List.Basic

/-!
The index of the string pool. A pool that grew from an empty one or from laid out texts holds texts one
after the other, each with its NUL, before and behind the ring. Its index is what reading those texts
again finds, so it need not be kept with the data.
-/
namespace EntityMachine.StringPool

/-! ## Texts in a row -/

/-- Texts one after the other, each with its NUL. -/
def laidOut : List String → String
  | [] => ""
  | text :: rest => text ++ "\x00" ++ laidOut rest

def Plain (text : String) : Prop := '\x00' ∉ text.toList

theorem untilNul_plain (text : String.Slice) : Plain (untilNul text) := by
  have kept : (text.takeWhile (· ≠ '\x00')).all (· ≠ '\x00') = true := String.Slice.all_takeWhile
  rw [String.Slice.all_prop_eq, List.all_eq_true] at kept
  intro member
  exact absurd (kept _ member) (by simp)

theorem untilNul_eq {text : String} (plain : Plain text) : untilNul text.toSlice = text := by
  have kept : text.takeWhile (· ≠ '\x00') = text.toSlice := by
    rw [String.takeWhile_eq_toSlice_iff, String.all_prop_eq, List.all_eq_true]
    intro c member
    exact decide_eq_true fun same => plain (same ▸ member)
  rw [String.takeWhile_eq_takeWhile_toSlice] at kept
  rw [untilNul, kept, String.copy_toSlice]

theorem laidOut_append (earlier later : List String) :
    laidOut (earlier ++ later) = laidOut earlier ++ laidOut later := by
  induction earlier with
  | nil => simp [laidOut]
  | cons text rest ih => simp [laidOut, ih, String.append_assoc]

theorem laidOut_split (texts : List String) (plain : ∀ text ∈ texts, Plain text) :
    (laidOut texts).toList.splitOn '\x00' = (texts ++ [""]).map String.toList := by
  induction texts with
  | nil => simp [laidOut]
  | cons text rest ih =>
      have first := plain text List.mem_cons_self
      have later := ih fun other member => plain other (List.mem_cons_of_mem text member)
      have opened : (laidOut (text :: rest)).toList = text.toList ++ '\x00' :: (laidOut rest).toList := by
        simp [laidOut]
      rw [opened, List.splitOn_append_cons_self_of_not_mem first, later]
      rfl

theorem exists_laidOut (chars : List Char) :
    ∃ texts tail, (∀ text ∈ texts, Plain text) ∧ '\x00' ∉ tail ∧
      chars = (laidOut texts).toList ++ tail := by
  -- Over the characters from the back: one either closes an empty text or opens the first one further.
  induction chars with
  | nil => exact ⟨[], [], by simp, by simp, by simp [laidOut]⟩
  | cons c rest ih =>
      obtain ⟨texts, tail, plain, unclosed, rfl⟩ := ih
      by_cases closes : c = '\x00'
      · refine ⟨"" :: texts, tail, ?_, unclosed, by simp [laidOut, closes]⟩
        intro text member
        rcases List.mem_cons.mp member with rfl | later
        · simp [Plain]
        · exact plain text later
      · cases texts with
        | nil =>
            refine ⟨[], c :: tail, by simp, ?_, by simp [laidOut]⟩
            simp [unclosed, Ne.symm closes]
        | cons text texts =>
            refine ⟨(String.singleton c ++ text) :: texts, tail, ?_, unclosed, by simp [laidOut]⟩
            intro other member
            rcases List.mem_cons.mp member with rfl | later
            · have first := plain text List.mem_cons_self
              simp only [Plain, String.toList_append, String.toList_singleton, List.mem_append,
                List.mem_singleton, not_or]
              exact ⟨Ne.symm closes, first⟩
            · exact plain other (List.mem_cons_of_mem text later)

theorem closed_laidOut {data opened : String} (closed : data = opened ++ "\x00") :
    ∃ texts, (∀ text ∈ texts, Plain text) ∧ data = laidOut texts := by
  obtain ⟨texts, tail, plain, unclosed, same⟩ := exists_laidOut data.toList
  refine ⟨texts, plain, ?_⟩
  have last : data.toList.getLast? = some '\x00' := by simp [closed]
  rw [same, List.getLast?_append] at last
  cases found : tail.getLast? with
  | none =>
      rw [List.getLast?_eq_none_iff.mp found, List.append_nil] at same
      exact String.toList_inj.mp same
  | some c =>
      rw [found, Option.some_or, Option.some.injEq] at last
      exact absurd (last ▸ List.mem_of_getLast? found) unclosed

/-! ## Positions -/

theorem pos?_of_append {text first second : String} (parts : text = first ++ second) :
    ∃ p, text.pos? ⟨first.utf8ByteSize⟩ = some p ∧ p.Splits first second := by
  subst parts
  have valid : first.rawEndPos.IsValid (first ++ second) :=
    String.Pos.Raw.isValid_rawEndPos.append_right second
  have checked : first.rawEndPos.isValidForSlice (first ++ second).toSlice = true :=
    String.Pos.Raw.isValidForSlice_eq_true_iff.mpr valid.toSlice
  refine ⟨(first ++ second).pos first.rawEndPos valid, ?_, String.Pos.splits_append_rawEndPos⟩
  rw [String.pos?, String.Slice.pos?]
  exact congrArg (Option.map _) (dif_pos checked)

theorem pos?_offset {text : String} {offset : Nat} {p : text.Pos}
    (found : text.pos? ⟨offset⟩ = some p) : p.offset.byteIdx = offset := by
  obtain ⟨q, located, rfl⟩ := Option.map_eq_some_iff.mp found
  rw [String.Slice.pos?] at located
  split at located
  · cases located
    rfl
  · cases located

theorem indexRange_of_append {data before region after : String} (index : Std.HashMap String StringId)
    (parts : data = before ++ region ++ after) :
    indexRange data before.utf8ByteSize (before.utf8ByteSize + region.utf8ByteSize) index =
      indexTexts ((region.toList.splitOn '\x00').map String.ofList) before.utf8ByteSize index := by
  obtain ⟨start, starts, first⟩ := pos?_of_append (parts.trans (String.append_assoc ..))
  obtain ⟨stop, stops, second⟩ := pos?_of_append parts
  obtain ⟨ordered, copied⟩ := String.copy_slice_eq_iff_splits.mpr ⟨before, after, first, second⟩
  rw [String.utf8ByteSize_append] at stops
  have sliced : data.slice? start stop = some (data.slice start stop ordered) := dif_pos ordered
  simp only [indexRange, starts, stops, sliced, String.Slice.toList_split_char, copied]

/-! ## Indexing -/

theorem indexTexts_append (earlier later : List String) (offset : Nat)
    (index : Std.HashMap String StringId) :
    indexTexts (earlier ++ later) offset index =
      indexTexts later (offset + (laidOut earlier).utf8ByteSize) (indexTexts earlier offset index) := by
  induction earlier generalizing offset index with
  | nil => simp [indexTexts, laidOut]
  | cons text rest ih =>
      have width : (laidOut (text :: rest)).utf8ByteSize =
          text.utf8ByteSize + 1 + (laidOut rest).utf8ByteSize := by simp [laidOut]; rfl
      rw [List.cons_append, indexTexts, indexTexts, ih, width]
      simp only [Nat.add_assoc]

theorem indexTexts_equiv {index other : Std.HashMap String StringId} (same : index.Equiv other)
    (texts : List String) (offset : Nat) :
    (indexTexts texts offset index).Equiv (indexTexts texts offset other) := by
  induction texts generalizing offset index other with
  | nil => exact same
  | cons text rest ih =>
      rw [indexTexts, indexTexts]
      split
      · exact ih (same.insertIfNew _ _) _
      · exact ih same _

theorem mem_indexTexts {text : String} {index : Std.HashMap String StringId} (known : text ∈ index)
    (texts : List String) (offset : Nat) : text ∈ indexTexts texts offset index := by
  induction texts generalizing offset index with
  | nil => exact known
  | cons first rest ih =>
      rw [indexTexts]
      split
      · exact ih (Std.HashMap.mem_insertIfNew.mpr (.inr known)) _
      · exact ih known _

theorem indexTexts_known {text : String} {index : Std.HashMap String StringId} (known : text ∈ index)
    (offset : Nat) : (indexTexts [text] offset index).Equiv index := by
  rw [indexTexts, indexTexts]
  split
  · refine .of_forall_getElem?_eq fun other => ?_
    rw [Std.HashMap.getElem?_insertIfNew, if_neg fun new => new.2 known]
  · exact .rfl

theorem indexTexts_new {text : String} {index : Std.HashMap String StringId} (new : text ∉ index)
    {offset : Nat} (small : offset < offsetLimit) :
    (indexTexts [text] offset index).Equiv (index.insert text (.ofNat offset)) := by
  rw [indexTexts, indexTexts, if_pos small]
  refine .of_forall_getElem?_eq fun other => ?_
  rw [Std.HashMap.getElem?_insertIfNew, Std.HashMap.getElem?_insert]
  simp [new]

theorem indexRange_laidOut {data before after : String} {texts : List String} {first last : Nat}
    {index : Std.HashMap String StringId} (parts : data = before ++ laidOut texts ++ after)
    (starts : first = before.utf8ByteSize) (stops : last = first + (laidOut texts).utf8ByteSize)
    (plain : ∀ text ∈ texts, Plain text) (known : "" ∈ index) :
    (indexRange data first last index).Equiv (indexTexts texts first index) := by
  subst starts stops
  rw [indexRange_of_append index parts, laidOut_split texts plain, List.map_map]
  -- Splitting at each NUL leaves an empty text behind the last, which is known already.
  have texts_eq : (texts ++ [""]).map (String.ofList ∘ String.toList) = texts ++ [""] :=
    List.map_id'' (fun _ => String.ofList_toList) _
  rw [texts_eq, indexTexts_append]
  exact indexTexts_known (mem_indexTexts known _ _) _

/-! ## Slots -/

theorem nuls_size (count : Nat) : (nuls count).utf8ByteSize = count := by
  induction count with
  | zero => rfl
  | succ count ih =>
      have more : nuls (count + 1) = String.singleton '\x00' ++ nuls count := String.ofList_cons
      rw [more, String.utf8ByteSize_append, ih, String.utf8ByteSize_singleton]
      exact Nat.add_comm 1 count

theorem nuls_add (first second : Nat) : nuls (first + second) = nuls first ++ nuls second := by
  rw [nuls, List.replicate_add, String.ofList_append]
  rfl

theorem fitting_size (room : Nat) (chars : List Char) :
    (String.ofList (fitting room chars)).utf8ByteSize ≤ room := by
  induction chars generalizing room with
  | nil => exact Nat.zero_le _
  | cons c rest ih =>
      rw [fitting]
      split
      · have later := ih (room - c.utf8Size)
        rw [String.ofList_cons, String.utf8ByteSize_append, String.utf8ByteSize_singleton]
        omega
      · exact Nat.zero_le _

theorem slotText_size (text : String) : (slotText text).utf8ByteSize = slotBytes := by
  have kept := fitting_size (slotBytes - 1) text.toList
  rw [slotText, String.utf8ByteSize_append, nuls_size]
  omega

theorem replaceBytes?_part {data before region after : String}
    (parts : data = before ++ region ++ after) (text : String) :
    replaceBytes? data before.utf8ByteSize region.utf8ByteSize text = some (before ++ text ++ after) := by
  obtain ⟨start, starts, opens⟩ := pos?_of_append (parts.trans String.append_assoc)
  obtain ⟨stop, stops, closes⟩ := pos?_of_append parts
  rw [String.utf8ByteSize_append] at stops
  simp only [replaceBytes?, starts, stops, opens.copy_sliceTo_eq, closes.copy_sliceFrom_eq]

/-- Slots one after the other, each with the text that it was given. -/
def slotRow : List String → String
  | [] => ""
  | text :: rest => slotText text ++ slotRow rest

theorem slotRow_append (earlier later : List String) :
    slotRow (earlier ++ later) = slotRow earlier ++ slotRow later := by
  induction earlier with
  | nil => simp [slotRow]
  | cons text rest ih => simp [slotRow, ih, String.append_assoc]

theorem slotRow_size (slots : List String) :
    (slotRow slots).utf8ByteSize = slots.length * slotBytes := by
  induction slots with
  | nil => simp [slotRow]
  | cons text rest ih =>
      rw [slotRow, String.utf8ByteSize_append, slotText_size, ih, List.length_cons, Nat.succ_mul]
      exact Nat.add_comm _ _

theorem slotRow_blank (count : Nat) :
    slotRow (List.replicate count "") = nuls (count * slotBytes) := by
  have blank : slotText "" = nuls slotBytes := by simp [slotText, fitting]
  induction count with
  | zero => simp [slotRow, nuls]
  | succ count ih =>
      rw [List.replicate_succ, slotRow, ih, blank, ← nuls_add, Nat.succ_mul]
      exact congrArg nuls (Nat.add_comm _ _)

theorem replaceBytes?_slot {data opening closing : String} {slots : List String} {i : Nat}
    (inside : i < slots.length) (parts : data = opening ++ slotRow slots ++ closing) (text : String) :
    replaceBytes? data (opening.utf8ByteSize + i * slotBytes) slotBytes (slotText text) =
      some (opening ++ slotRow (slots.set i text) ++ closing) := by
  have row : slotRow slots =
      slotRow (slots.take i) ++ (slotText slots[i] ++ slotRow (slots.drop (i + 1))) := by
    have around : slots.take i ++ slots[i] :: slots.drop (i + 1) = slots := by simp
    rw [← slotRow, ← slotRow_append, around]
  have place : (opening ++ slotRow (slots.take i)).utf8ByteSize =
      opening.utf8ByteSize + i * slotBytes := by
    rw [String.utf8ByteSize_append, slotRow_size, List.length_take, Nat.min_eq_left (Nat.le_of_lt inside)]
  have whole : data = opening ++ slotRow (slots.take i) ++ slotText slots[i] ++
      (slotRow (slots.drop (i + 1)) ++ closing) := by
    rw [parts, row]
    simp only [String.append_assoc]
  have replaced := replaceBytes?_part whole (slotText text)
  rw [place, slotText_size] at replaced
  rw [replaced, List.set_eq_take_cons_drop text inside, slotRow_append, slotRow]
  simp only [String.append_assoc]

theorem temporary?_first {p : StringPool} {text : String} (absent : p.ringBase = none)
    (start : p.cursor = 0) (small : p.size < offsetLimit) (plain : Plain text)
    (filled : text.isEmpty = false) :
    p.temporary? text = some (.ofNat p.size, { p with
      data := p.data ++ slotText text ++ nuls (ringBytes - slotBytes)
      ringBase := some p.size
      cursor := 1 }) := by
  have parts : p.data ++ nuls ringBytes =
      p.data ++ nuls slotBytes ++ nuls (ringBytes - slotBytes) := by
    rw [String.append_assoc, ← nuls_add]
    rfl
  have placed := replaceBytes?_part parts (slotText text)
  rw [nuls_size] at placed
  have first : p.data.utf8ByteSize < offsetLimit := small
  have next : 1 % ringSlots = 1 := rfl
  simp [temporary?, untilNul_eq plain, filled, withRing?, absent, start, size, placed, first, next]

/-! ## Pools -/

/-- What an empty pool, or one over laid out texts, becomes as texts are stored. -/
inductive Reachable : StringPool → Prop
  | empty : Reachable .empty
  | blob (text : String) : Reachable (.ofBlob text)
  | intern {p p' : StringPool} {text : String} {id : StringId} :
      Reachable p → p.intern? text = some (id, p') → Reachable p'
  | temporary {p p' : StringPool} {text : String} {id : StringId} :
      Reachable p → p.temporary? text = some (id, p') → Reachable p'

/-- Where the ring lies, if there is one. -/
def RingAt (before : List String) (ring : String) : Option Nat → Prop
  | none => before = [] ∧ ring = ""
  | some base => base = (laidOut before).utf8ByteSize ∧ base < offsetLimit ∧
      ring.utf8ByteSize = ringBytes

/-- The data is texts in a row, the ring, and texts in a row; the index names the first copy of each
text outside the ring. -/
structure Rows (p : StringPool) (before : List String) (ring : String) (after : List String) : Prop where
  plain : ∀ text ∈ before ++ after, Plain text
  data : p.data = laidOut before ++ ring ++ laidOut after
  ringAt : RingAt before ring p.ringBase
  cursor : p.cursor < ringSlots
  indexed : p.index.Equiv (indexTexts after ((laidOut before).utf8ByteSize + ring.utf8ByteSize)
    (indexTexts before 0 emptyIndex))

theorem mem_emptyIndex : "" ∈ emptyIndex := Std.HashMap.mem_insert_self

theorem indexOf_row {data : String} {texts : List String} (plain : ∀ text ∈ texts, Plain text)
    (row : data = laidOut texts) : (indexOf data none).Equiv (indexTexts texts 0 emptyIndex) := by
  have parts : data = "" ++ laidOut texts ++ "" := by rw [row, String.empty_append, String.append_empty]
  exact indexRange_laidOut parts rfl (by rw [row, Nat.zero_add]) plain mem_emptyIndex

theorem empty_rows : Rows .empty [] "" [""] where
  plain := by simp [Plain]
  data := by simp [empty, laidOut]
  ringAt := ⟨rfl, rfl⟩
  cursor := by decide
  indexed := (indexTexts_known mem_emptyIndex _).symm

theorem ofBlob_rows (blob : String) : ∃ texts, Rows (ofBlob blob) [] "" texts := by
  have closed (opened : String) : ∃ start : String,
      (if opened.endsWith '\x00' then opened else opened ++ "\x00") = start ++ "\x00" := by
    split
    · rename_i ends
      exact String.endsWith_char_iff_exists_append.mp ends
    · exact ⟨opened, rfl⟩
  obtain ⟨start, ends⟩ := closed (if blob.startsWith '\x00' then blob else "\x00" ++ blob)
  obtain ⟨texts, plain, row⟩ := closed_laidOut ends
  refine ⟨texts, plain, ?_, ⟨rfl, rfl⟩, Nat.zero_lt_succ 15, ?_⟩
  · rw [laidOut, String.empty_append, String.empty_append]
    exact row
  · exact indexOf_row plain row

theorem Rows.size_eq {p : StringPool} {before after : List String} {ring : String}
    (rows : Rows p before ring after) : p.size =
      (laidOut before).utf8ByteSize + ring.utf8ByteSize + (laidOut after).utf8ByteSize := by
  rw [size, rows.data, String.utf8ByteSize_append, String.utf8ByteSize_append]

theorem Rows.opening {p : StringPool} {before after : List String} {ring : String}
    (rows : Rows p before ring after) :
    p.data = "" ++ laidOut before ++ (ring ++ laidOut after) := by
  rw [rows.data, String.empty_append, String.append_assoc]

theorem Rows.closing {p : StringPool} {before after : List String} {ring : String}
    (rows : Rows p before ring after) :
    p.data = (laidOut before ++ ring) ++ laidOut after ++ "" := by
  rw [rows.data, String.append_empty]

theorem intern?_cases {p p' : StringPool} {text : String} {id : StringId}
    (stored : p.intern? text = some (id, p')) :
    (p.lookup? (untilNul text.toSlice) = some id ∧ p' = p) ∨
      (p.lookup? (untilNul text.toSlice) = none ∧ p.size < offsetLimit ∧ id = .ofNat p.size ∧
        p' = { p with
          data := p.data ++ untilNul text.toSlice ++ "\x00"
          index := p.index.insert (untilNul text.toSlice) (.ofNat p.size) }) := by
  rw [intern?] at stored
  split at stored
  · rename_i known
    cases stored
    exact .inl ⟨known, rfl⟩
  · rename_i unknown
    split at stored
    · rename_i small
      cases stored
      exact .inr ⟨unknown, small, rfl, rfl⟩
    · cases stored

theorem intern_rows {p p' : StringPool} {text : String} {id : StringId} {before after : List String}
    {ring : String} (rows : Rows p before ring after) (stored : p.intern? text = some (id, p')) :
    ∃ more, Rows p' before ring (after ++ more) := by
  rcases intern?_cases stored with ⟨-, rfl⟩ | ⟨unknown, small, -, rfl⟩
  · exact ⟨[], by rwa [List.append_nil]⟩
  · refine ⟨[untilNul text.toSlice], ?_, ?_, rows.ringAt, rows.cursor, ?_⟩
    · rw [← List.append_assoc]
      intro other member
      rcases List.mem_append.mp member with earlier | last
      · exact rows.plain other earlier
      · rw [List.mem_singleton.mp last]
        exact untilNul_plain _
    · rw [laidOut_append, rows.data]
      simp [laidOut, String.append_assoc]
    · have absent : untilNul text.toSlice ∉ p.index := by
        rw [Std.HashMap.mem_iff_isSome_getElem?, ← lookup?, unknown]
        exact Bool.false_ne_true
      -- A text that is new to the pool is new to the texts read so far.
      have new := mt rows.indexed.mem_iff.mpr absent
      rw [indexTexts_append, ← rows.size_eq]
      exact (rows.indexed.insert _ _).trans (indexTexts_new new small).symm

def ringed (p : StringPool) : StringPool :=
  { p with data := p.data ++ nuls ringBytes, ringBase := some p.size }

theorem Rows.unringed {p : StringPool} {before after : List String} {ring : String}
    (rows : Rows p before ring after) (absent : p.ringBase = none) :
    before = [] ∧ ring = "" ∧ p.data = laidOut after := by
  have there := rows.ringAt
  rw [absent] at there
  obtain ⟨rfl, rfl⟩ := there
  exact ⟨rfl, rfl, by simpa [laidOut] using rows.data⟩

theorem ringed_rows {p : StringPool} {before after : List String} {ring : String}
    (rows : Rows p before ring after) (absent : p.ringBase = none) (small : p.size < offsetLimit) :
    Rows p.ringed after (slotRow (List.replicate ringSlots "")) [] := by
  obtain ⟨rfl, rfl, whole⟩ := rows.unringed absent
  have blank : slotRow (List.replicate ringSlots "") = nuls ringBytes := slotRow_blank ringSlots
  refine ⟨?_, ?_, ⟨congrArg _ whole, small, ?_⟩, rows.cursor, rows.indexed⟩
  · rw [List.append_nil]
    exact rows.plain
  · rw [blank, ringed, whole, laidOut, String.append_empty]
  · rw [blank, nuls_size]

theorem temporary?_empty {p : StringPool} {text : String}
    (nothing : (untilNul text.toSlice).isEmpty = true) : p.temporary? text = some (.null, p) := by
  simp only [temporary?, nothing, ↓reduceIte]

theorem temporary?_ringed {p : StringPool} {text : String} (absent : p.ringBase = none)
    (small : p.size < offsetLimit) (filled : (untilNul text.toSlice).isEmpty = false) :
    p.temporary? text = p.ringed.temporary? text := by
  have made : p.withRing? = p.ringed.withRing? := by
    simp only [withRing?, ringed, absent, if_pos small]
  simp only [temporary?, filled, Bool.false_eq_true, ↓reduceIte, made]

theorem Rows.slots {p : StringPool} {before slots after : List String} {base : Nat}
    (rows : Rows p before (slotRow slots) after) (based : p.ringBase = some base) :
    base = (laidOut before).utf8ByteSize ∧ base < offsetLimit ∧ slots.length = ringSlots := by
  have there := rows.ringAt
  rw [based] at there
  obtain ⟨place, small, room⟩ := there
  rw [slotRow_size] at room
  exact ⟨place, small, Nat.eq_of_mul_eq_mul_right (by decide) room⟩

theorem temporary?_slot {p : StringPool} {text : String} {before slots after : List String} {base : Nat}
    (rows : Rows p before (slotRow slots) after) (based : p.ringBase = some base)
    (filled : (untilNul text.toSlice).isEmpty = false) :
    p.temporary? text = if base + p.cursor * slotBytes < offsetLimit then
      some (.ofNat (base + p.cursor * slotBytes), { p with
        data := laidOut before ++ slotRow (slots.set p.cursor (untilNul text.toSlice)) ++ laidOut after
        cursor := (p.cursor + 1) % ringSlots }) else none := by
  obtain ⟨place, -, full⟩ := rows.slots based
  have replaced := replaceBytes?_slot (full ▸ rows.cursor) rows.data (untilNul text.toSlice)
  rw [← place] at replaced
  simp [temporary?, filled, withRing?, based, replaced]

theorem slot_rows {p : StringPool} {before slots after : List String} {base : Nat}
    (rows : Rows p before (slotRow slots) after) (based : p.ringBase = some base) (text : String) :
    Rows { p with
      data := laidOut before ++ slotRow (slots.set p.cursor text) ++ laidOut after
      cursor := (p.cursor + 1) % ringSlots } before (slotRow (slots.set p.cursor text)) after := by
  obtain ⟨place, small, full⟩ := rows.slots based
  have room : (slotRow (slots.set p.cursor text)).utf8ByteSize = (slotRow slots).utf8ByteSize := by
    rw [slotRow_size, slotRow_size, List.length_set]
  refine ⟨rows.plain, rfl, ?_, Nat.mod_lt _ (by decide), ?_⟩
  · rw [based]
    refine ⟨place, small, ?_⟩
    rw [room, slotRow_size, full]
    rfl
  · rw [room]
    exact rows.indexed

theorem temporary_rows {p p' : StringPool} {text : String} {id : StringId}
    {before slots after : List String} (rows : Rows p before (slotRow slots) after)
    (stored : p.temporary? text = some (id, p')) :
    p'.index = p.index ∧ ∃ before' slots' after', Rows p' before' (slotRow slots') after' ∧
      (before' = before ∧ after' = after ∧ slots'.length = slots.length ∨
        p.ringBase = none ∧ before' = after ∧ after' = []) := by
  cases filled : (untilNul text.toSlice).isEmpty with
  | true =>
      rw [temporary?_empty filled] at stored
      cases stored
      exact ⟨rfl, before, slots, after, rows, .inl ⟨rfl, rfl, rfl⟩⟩
  | false =>
      have written {q : StringPool} {base : Nat} {before slots after : List String}
          (rows : Rows q before (slotRow slots) after) (based : q.ringBase = some base)
          (stored : q.temporary? text = some (id, p')) : p'.index = q.index ∧
          ∃ slots', Rows p' before (slotRow slots') after ∧ slots'.length = slots.length := by
        rw [temporary?_slot rows based filled] at stored
        split at stored
        · cases stored
          exact ⟨rfl, _, slot_rows rows based _, List.length_set⟩
        · cases stored
      cases based : p.ringBase with
      | some base =>
          obtain ⟨index, slots', rows', count⟩ := written rows based stored
          exact ⟨index, before, slots', after, rows', .inl ⟨rfl, rfl, count⟩⟩
      | none =>
          by_cases small : p.size < offsetLimit
          · rw [temporary?_ringed based small filled] at stored
            obtain ⟨index, slots', rows', -⟩ := written (ringed_rows rows based small) rfl stored
            exact ⟨index, after, slots', [], rows', .inr ⟨rfl, rfl, rfl⟩⟩
          · simp [temporary?, filled, withRing?, based, small] at stored

theorem reachable_slots {p : StringPool} (reachable : p.Reachable) :
    ∃ before slots after, Rows p before (slotRow slots) after := by
  induction reachable with
  | empty => exact ⟨[], [], [""], empty_rows⟩
  | blob text =>
      obtain ⟨texts, rows⟩ := ofBlob_rows text
      exact ⟨[], [], texts, rows⟩
  | intern _ stored ih =>
      obtain ⟨before, slots, after, rows⟩ := ih
      obtain ⟨more, rows⟩ := intern_rows rows stored
      exact ⟨before, slots, after ++ more, rows⟩
  | temporary _ stored ih =>
      obtain ⟨before, slots, after, rows⟩ := ih
      obtain ⟨-, before, slots, after, rows, -⟩ := temporary_rows rows stored
      exact ⟨before, slots, after, rows⟩

theorem reachable_rows {p : StringPool} (reachable : p.Reachable) :
    ∃ before ring after, Rows p before ring after := by
  obtain ⟨before, slots, after, rows⟩ := reachable_slots reachable
  exact ⟨before, slotRow slots, after, rows⟩

theorem Rows.reindexed {p : StringPool} {before after : List String} {ring : String}
    (rows : Rows p before ring after) : p.reindex.index.Equiv p.index := by
  refine Std.HashMap.Equiv.trans ?_ rows.indexed.symm
  rw [reindex]
  cases based : p.ringBase with
  | none =>
      obtain ⟨rfl, rfl, whole⟩ := rows.unringed based
      exact indexOf_row rows.plain whole
  | some base =>
      have there := rows.ringAt
      rw [based] at there
      obtain ⟨rfl, small, room⟩ := there
      -- The data is read in two runs, with the ring left out between them.
      have first := indexRange_laidOut rows.opening rfl (Nat.zero_add _).symm
        (fun text member => rows.plain text (List.mem_append_left _ member)) mem_emptyIndex
      have known := first.mem_iff.mpr (mem_indexTexts mem_emptyIndex before 0)
      have start : (laidOut before).utf8ByteSize + ringBytes = (laidOut before ++ ring).utf8ByteSize := by
        rw [String.utf8ByteSize_append, room]
      have stop : p.data.utf8ByteSize =
          (laidOut before).utf8ByteSize + ringBytes + (laidOut after).utf8ByteSize := by
        rw [← room]
        exact rows.size_eq
      have second := indexRange_laidOut rows.closing start stop
        (fun text member => rows.plain text (List.mem_append_right _ member)) known
      rw [room]
      exact second.trans (indexTexts_equiv first _ _)

end EntityMachine.StringPool
