import EntityMachine.Proofs.PoolIndex
import Mathlib.Data.List.TakeWhile

/-!
Coherence of the string pool over whole histories. Texts are closed on both sides of the ring, so what an
offset outside the ring names never depends on the ring or on texts stored later. The index names the
first copy of each text outside the ring, so it never has to be kept with the data.
-/
namespace EntityMachine.StringPool

/-! ## Texts at offsets -/

theorem Plain.passes {text : String} (plain : Plain text) :
    ∀ c ∈ text.toList, decide (c ≠ '\x00') = true :=
  fun _ member => decide_eq_true fun same => plain (same ▸ member)

theorem untilNul_toList (text : String.Slice) :
    (untilNul text).toList = text.copy.toList.takeWhile (· ≠ '\x00') := by
  have parts : text.copy = untilNul text ++ (text.dropWhile (· ≠ '\x00')).copy :=
    String.Slice.takeWhile_append_dropWhile.symm
  -- What is left starts with a NUL, if anything is.
  have rest : (text.dropWhile (· ≠ '\x00')).copy.toList.takeWhile (· ≠ '\x00') = [] := by
    have stops : ((text.dropWhile (· ≠ '\x00')).takeWhile (· ≠ '\x00')).isEmpty = true :=
      String.Slice.isEmpty_takeWhile_dropWhile
    rw [String.Slice.isEmpty_takeWhile, String.Slice.startsWith_prop_eq_head?] at stops
    cases chars : (text.dropWhile (· ≠ '\x00')).copy.toList with
    | nil => rfl
    | cons c later =>
        rw [chars] at stops
        rw [List.takeWhile_cons_of_neg]
        simpa using stops
  rw [parts, String.toList_append, List.takeWhile_append_of_pos (untilNul_plain text).passes, rest,
    List.append_nil]

theorem untilNul_copy (text : String.Slice) : untilNul text.copy.toSlice = untilNul text := by
  apply String.toList_inj.mp
  rw [untilNul_toList, untilNul_toList, String.copy_toSlice]

theorem untilNul_size (text : String) :
    (untilNul text.toSlice).utf8ByteSize ≤ text.utf8ByteSize := by
  have parts : text.toSlice.copy =
      untilNul text.toSlice ++ (text.toSlice.dropWhile (· ≠ '\x00')).copy :=
    String.Slice.takeWhile_append_dropWhile.symm
  rw [String.copy_toSlice] at parts
  have sizes := congrArg String.utf8ByteSize parts
  rw [String.utf8ByteSize_append] at sizes
  exact Nat.le.intro sizes.symm

theorem untilNul_nul (text rest : String) :
    untilNul (text ++ "\x00" ++ rest).toSlice = untilNul text.toSlice := by
  apply String.toList_inj.mp
  rw [untilNul_toList, untilNul_toList, String.copy_toSlice, String.copy_toSlice, String.append_assoc,
    String.toList_append, List.takeWhile_append]
  split
  · rename_i whole
    rw [(List.takeWhile_prefix _).eq_of_length whole]
    simp
  · rfl

theorem untilNul_closed {text : String} (plain : Plain text) (rest : String) :
    untilNul (text ++ "\x00" ++ rest).toSlice = text := by
  rw [untilNul_nul, untilNul_eq plain]

theorem untilNul_append {text : String} (closed : '\x00' ∈ text.toList) (rest : String) :
    untilNul (text ++ rest).toSlice = untilNul text.toSlice := by
  apply String.toList_inj.mp
  rw [untilNul_toList, untilNul_toList, String.copy_toSlice, String.copy_toSlice,
    String.toList_append, List.takeWhile_append]
  have short : text.toList.takeWhile (· ≠ '\x00') ≠ text.toList := by
    intro whole
    have passes := List.takeWhile_eq_self_iff.mp whole _ closed
    simp at passes
  split
  · rename_i same
    exact absurd ((List.takeWhile_prefix _).eq_of_length same) short
  · rfl

theorem get?_iff (p : StringPool) (id : StringId) (text : String) :
    p.get? id = some text ↔ ∃ opening closing : String, p.data = opening ++ closing ∧
      opening.utf8ByteSize = id.toNat ∧ untilNul closing.toSlice = text := by
  constructor
  · intro found
    obtain ⟨start, starts, named⟩ := Option.map_eq_some_iff.mp found
    refine ⟨(p.data.sliceTo start).copy, (p.data.sliceFrom start).copy, start.splits.eq_append, ?_, ?_⟩
    · rw [String.Slice.utf8ByteSize_copy, String.utf8ByteSize_sliceTo]
      exact pos?_offset starts
    · rw [untilNul_copy, named]
  · rintro ⟨opening, closing, parts, place, named⟩
    obtain ⟨start, starts, splits⟩ := pos?_of_append parts
    rw [place] at starts
    rw [get?, starts, Option.map_some, ← named, ← splits.copy_sliceFrom_eq, untilNul_copy]

theorem resolve_stored {p : StringPool} {id : StringId} {text : String} (before after : String)
    (parts : p.data = before ++ (text ++ "\x00" ++ after)) (place : before.utf8ByteSize = id.toNat)
    (plain : Plain text) : p.resolve id = text := by
  have found := (get?_iff p id text).mpr ⟨before, _, parts, place, untilNul_closed plain after⟩
  rw [resolve, found, Option.getD_some]

theorem append_split {first second third fourth : String} (same : first ++ second = third ++ fourth)
    (short : first.utf8ByteSize ≤ third.utf8ByteSize) :
    ∃ middle, third = first ++ middle ∧ second = middle ++ fourth := by
  obtain ⟨p, starts, left⟩ := pos?_of_append (rfl : first ++ second = first ++ second)
  obtain ⟨q, stops, right⟩ := pos?_of_append same
  refine (left.le_iff_exists_eq_append right).mp ?_
  change p.offset.byteIdx ≤ q.offset.byteIdx
  rw [pos?_offset starts, pos?_offset stops]
  exact short

/-- Empty, or with a NUL at the end. -/
def Closed (text : String) : Prop := text = "" ∨ ∃ earlier, text = earlier ++ "\x00"

theorem Closed.behind {first second : String} (closed : Closed (first ++ second)) : Closed second := by
  rcases closed with nothing | ⟨earlier, ends⟩
  · have sizes := congrArg String.utf8ByteSize nothing
    rw [String.utf8ByteSize_append] at sizes
    exact .inl (String.utf8ByteSize_eq_zero_iff.mp (Nat.eq_zero_of_add_eq_zero sizes).2)
  · by_cases short : first.utf8ByteSize ≤ earlier.utf8ByteSize
    · obtain ⟨middle, -, last⟩ := append_split ends short
      exact .inr ⟨middle, last⟩
    · have sizes := congrArg String.utf8ByteSize ends
      rw [String.utf8ByteSize_append, String.utf8ByteSize_append] at sizes
      have one : ("\x00" : String).utf8ByteSize = 1 := rfl
      exact .inl (String.utf8ByteSize_eq_zero_iff.mp (by omega))

theorem Closed.nul_mem {text : String} (closed : Closed text) (filled : text ≠ "") :
    '\x00' ∈ text.toList := by
  rcases closed with nothing | ⟨earlier, rfl⟩
  · exact absurd nothing filled
  · simp

theorem Closed.append {first second : String} (left : Closed first) (right : Closed second) :
    Closed (first ++ second) := by
  rcases right with rfl | ⟨earlier, rfl⟩
  · rwa [String.append_empty]
  · exact .inr ⟨first ++ earlier, String.append_assoc.symm⟩

theorem laidOut_closed (texts : List String) : Closed (laidOut texts) := by
  rcases texts.eq_nil_or_concat with rfl | ⟨earlier, last, rfl⟩
  · exact .inl rfl
  · refine .inr ⟨laidOut earlier ++ last, ?_⟩
    rw [List.concat_eq_append, laidOut_append]
    simp [laidOut, String.append_assoc]

theorem get?_moved {p p' : StringPool} {opening opening' region closing closing' : String}
    (parts : p.data = opening ++ region ++ closing) (parts' : p'.data = opening' ++ region ++ closing')
    (place : opening'.utf8ByteSize = opening.utf8ByteSize) (closed : Closed region) {id : StringId}
    (low : opening.utf8ByteSize ≤ id.toNat)
    (high : id.toNat < opening.utf8ByteSize + region.utf8ByteSize) {text : String}
    (found : p.get? id = some text) : p'.get? id = some text := by
  obtain ⟨front, back, split, here, named⟩ := (get?_iff p id text).mp found
  have first : opening ++ (region ++ closing) = front ++ back := by
    rw [← split, parts]
    exact String.append_assoc.symm
  obtain ⟨inner, rfl, after⟩ := append_split first (here ▸ low)
  rw [String.utf8ByteSize_append] at here
  obtain ⟨rest, rfl, rfl⟩ := append_split after.symm (by omega)
  have filled : rest ≠ "" := by
    rintro rfl
    rw [String.append_empty] at high
    omega
  have ends := closed.behind.nul_mem filled
  refine (get?_iff p' id text).mpr ⟨opening' ++ inner, rest ++ closing', ?_, ?_, ?_⟩
  · rw [parts']
    simp only [String.append_assoc]
  · rw [String.utf8ByteSize_append, place, here]
  · rw [← named, untilNul_append ends, untilNul_append ends]

theorem get?_region {p p' : StringPool} {opening opening' closing closing' : String}
    {texts : List String} (parts : p.data = opening ++ laidOut texts ++ closing)
    (parts' : p'.data = opening' ++ laidOut texts ++ closing')
    (place : opening'.utf8ByteSize = opening.utf8ByteSize) {id : StringId}
    (low : opening.utf8ByteSize ≤ id.toNat)
    (high : id.toNat < opening.utf8ByteSize + (laidOut texts).utf8ByteSize) :
    p'.get? id = p.get? id := by
  apply Option.ext
  intro text
  constructor
  · exact get?_moved parts' parts place.symm (laidOut_closed texts) (place ▸ low) (place ▸ high)
  · exact get?_moved parts parts' place (laidOut_closed texts) low high

/-! ## What later pools keep -/

/-- The offset lies before or behind the ring, if there is one. -/
def OutsideRing (p : StringPool) (offset : Nat) : Prop :=
  ∀ base, p.ringBase = some base → offset < base ∨ base + ringBytes ≤ offset

theorem outsideRing_iff (p : StringPool) (id : StringId) :
    p.isTemporary id = false ↔ p.OutsideRing id.toNat := by
  unfold isTemporary OutsideRing
  cases p.ringBase with
  | none => simp
  | some base =>
      simp only [decide_eq_false_iff_not, Option.some.injEq, forall_eq']
      omega

theorem Rows.outside_iff {p : StringPool} {before after : List String} {ring : String}
    (rows : Rows p before ring after) (offset : Nat) : p.OutsideRing offset ↔
      offset < (laidOut before).utf8ByteSize ∨
        (laidOut before).utf8ByteSize + ring.utf8ByteSize ≤ offset := by
  have there := rows.ringAt
  unfold OutsideRing
  cases based : p.ringBase with
  | none =>
      rw [based] at there
      obtain ⟨rfl, rfl⟩ := there
      simp [laidOut]
  | some base =>
      rw [based] at there
      obtain ⟨rfl, -, room⟩ := there
      simp [room]

/-- Every offset outside the ring names the same text later, or goes on naming none, and every text that
is found is found at the same offset later. -/
structure Extends (p p' : StringPool) : Prop where
  grown : p.size ≤ p'.size
  outside : ∀ offset, offset < p.size → p.OutsideRing offset → p'.OutsideRing offset
  texts : ∀ id : StringId, id.toNat < p.size → p.OutsideRing id.toNat → p'.get? id = p.get? id
  index : ∀ text id, p.lookup? text = some id → p'.lookup? text = some id

theorem Extends.refl (p : StringPool) : p.Extends p where
  grown := Nat.le_refl _
  outside := fun _ _ outside => outside
  texts := fun _ _ _ => rfl
  index := fun _ _ found => found

theorem Extends.trans {p q r : StringPool} (first : p.Extends q) (second : q.Extends r) :
    p.Extends r where
  grown := Nat.le_trans first.grown second.grown
  outside := fun offset inside outside =>
    second.outside offset (Nat.lt_of_lt_of_le inside first.grown) (first.outside offset inside outside)
  texts := fun id inside outside =>
    (second.texts id (Nat.lt_of_lt_of_le inside first.grown) (first.outside _ inside outside)).trans
      (first.texts id inside outside)
  index := fun text id found => second.index text id (first.index text id found)

theorem Rows.extends {p p' : StringPool} {before after more : List String} {ring ring' : String}
    (rows : Rows p before ring after) (rows' : Rows p' before ring' (after ++ more))
    (room : ring'.utf8ByteSize = ring.utf8ByteSize)
    (index : ∀ text id, p.lookup? text = some id → p'.lookup? text = some id) : p.Extends p' where
  grown := by
    rw [rows.size_eq, rows'.size_eq, room, laidOut_append, String.utf8ByteSize_append]
    omega
  outside := by
    intro offset _
    rw [rows.outside_iff, rows'.outside_iff, room]
    exact id
  texts := by
    intro id inside outside
    rw [rows.size_eq] at inside
    rcases (rows.outside_iff id.toNat).mp outside with low | high
    · refine get?_region rows.opening rows'.opening rfl (Nat.zero_le _) ?_
      rwa [String.utf8ByteSize_empty, Nat.zero_add]
    · have later : p'.data = (laidOut before ++ ring') ++ laidOut after ++ laidOut more := by
        rw [rows'.data, laidOut_append, ← String.append_assoc]
      have place : (laidOut before ++ ring').utf8ByteSize = (laidOut before ++ ring).utf8ByteSize := by
        rw [String.utf8ByteSize_append, String.utf8ByteSize_append, room]
      refine get?_region rows.closing later place ?_ ?_
      · rwa [String.utf8ByteSize_append]
      · rwa [String.utf8ByteSize_append]
  index := index

theorem Rows.ringed_extends {p p' : StringPool} {before after : List String} {ring ring' : String}
    (rows : Rows p before ring after) (absent : p.ringBase = none) (rows' : Rows p' after ring' [])
    (index : ∀ text id, p.lookup? text = some id → p'.lookup? text = some id) : p.Extends p' := by
  obtain ⟨-, -, whole⟩ := rows.unringed absent
  have size : p.size = (laidOut after).utf8ByteSize := congrArg String.utf8ByteSize whole
  refine ⟨?_, ?_, ?_, index⟩
  · rw [rows'.size_eq, size, Nat.add_assoc]
    exact Nat.le_add_right _ _
  · intro offset inside _
    rw [rows'.outside_iff]
    exact .inl (size ▸ inside)
  · intro id inside _
    have earlier : p.data = "" ++ laidOut after ++ "" := by
      rw [whole, String.empty_append, String.append_empty]
    refine get?_region earlier rows'.opening rfl (Nat.zero_le _) ?_
    rwa [String.utf8ByteSize_empty, Nat.zero_add, ← size]

/-! ## First copies -/

def placed : List String → Nat → List (String × Nat)
  | [], _ => []
  | text :: rest, offset => (text, offset) :: placed rest (offset + text.utf8ByteSize + 1)

theorem laidOut_size (text : String) (rest : List String) :
    (laidOut (text :: rest)).utf8ByteSize = text.utf8ByteSize + 1 + (laidOut rest).utf8ByteSize := by
  rw [laidOut, String.utf8ByteSize_append, String.utf8ByteSize_append]
  rfl

theorem mem_placed (texts : List String) (start : Nat) (text : String) (offset : Nat) :
    (text, offset) ∈ placed texts start ↔ ∃ earlier later, texts = earlier ++ text :: later ∧
      offset = start + (laidOut earlier).utf8ByteSize := by
  induction texts generalizing start with
  | nil => simp [placed]
  | cons first rest ih =>
      rw [placed, List.mem_cons, ih]
      constructor
      · rintro (here | ⟨earlier, later, rfl, rfl⟩)
        · cases here
          exact ⟨[], rest, rfl, rfl⟩
        · refine ⟨first :: earlier, later, rfl, ?_⟩
          rw [laidOut_size]
          omega
      · rintro ⟨earlier, later, parts, rfl⟩
        cases earlier with
        | nil =>
            cases parts
            exact .inl rfl
        | cons other earlier =>
            cases parts
            refine .inr ⟨earlier, later, rfl, ?_⟩
            rw [laidOut_size]
            omega

theorem placed_bounds {texts : List String} {start : Nat} {place : String × Nat}
    (member : place ∈ placed texts start) :
    start ≤ place.2 ∧ place.2 < start + (laidOut texts).utf8ByteSize := by
  obtain ⟨text, offset⟩ := place
  obtain ⟨earlier, later, rfl, rfl⟩ := (mem_placed texts start text offset).mp member
  rw [laidOut_append, String.utf8ByteSize_append, laidOut_size]
  constructor <;> simp only <;> omega

theorem placed_ascending (texts : List String) (start : Nat) :
    (placed texts start).Pairwise (·.2 < ·.2) := by
  induction texts generalizing start with
  | nil => exact .nil
  | cons text rest ih =>
      refine .cons (fun place member => ?_) (ih _)
      have above := (placed_bounds member).1
      simp only
      omega

theorem indexTexts_get (texts : List String) (start : Nat) (index : Std.HashMap String StringId)
    (small : start + (laidOut texts).utf8ByteSize ≤ offsetLimit) (text : String) :
    (indexTexts texts start index)[text]? =
      (index[text]?).or (((placed texts start).find? (·.1 == text)).map fun place => .ofNat place.2) := by
  induction texts generalizing start index with
  | nil => simp [indexTexts, placed]
  | cons first rest ih =>
      rw [laidOut_size] at small
      rw [indexTexts, if_pos (by omega), ih _ _ (by omega), Std.HashMap.getElem?_insertIfNew, placed,
        List.find?_cons]
      by_cases same : first = text
      · subst same
        by_cases known : first ∈ index
        · simp [known]
        · simp [known]
      · have other : (first == text) = false := beq_eq_false_iff_ne.mpr same
        simp only [other, Bool.false_eq_true, false_and, ↓reduceIte]

def places (before : List String) (ring : String) (after : List String) : List (String × Nat) :=
  placed before 0 ++ placed after ((laidOut before).utf8ByteSize + ring.utf8ByteSize)

theorem places_ascending (before : List String) (ring : String) (after : List String) :
    (places before ring after).Pairwise (·.2 < ·.2) := by
  refine List.pairwise_append.mpr ⟨placed_ascending _ _, placed_ascending _ _, ?_⟩
  intro place low other high
  have below := (placed_bounds low).2
  have above := (placed_bounds high).1
  omega

/-- A text stands between two NULs, or between the start and a NUL, and not in the ring. -/
structure StoredAt (p : StringPool) (text : String) (offset : Nat) : Prop where
  plain : Plain text
  outside : p.OutsideRing offset
  parts : ∃ opening closing : String, p.data = opening ++ text ++ "\x00" ++ closing ∧
    opening.utf8ByteSize = offset ∧ Closed opening

/-- Of all offsets at which the text is stored, this is the first. -/
structure FirstCopy (p : StringPool) (text : String) (id : StringId) : Prop where
  stored : p.StoredAt text id.toNat
  first : ∀ offset, p.StoredAt text offset → id.toNat ≤ offset

theorem laidOut_cut {texts : List String} (plain : ∀ text ∈ texts, Plain text)
    {front back : String} (parts : laidOut texts = front ++ back) (more : back ≠ "")
    (closed : Closed front) :
    ∃ earlier text later, texts = earlier ++ text :: later ∧ front = laidOut earlier ∧
      back = text ++ "\x00" ++ laidOut later := by
  induction texts generalizing front with
  | nil =>
      have none := congrArg String.utf8ByteSize parts
      rw [String.utf8ByteSize_append] at none
      exact absurd (String.utf8ByteSize_eq_zero_iff.mp (Nat.eq_zero_of_add_eq_zero none.symm).2) more
  | cons first rest ih =>
      rcases closed with rfl | ⟨earlier, rfl⟩
      · exact ⟨[], first, rest, rfl, rfl, by rw [← laidOut, parts, String.empty_append]⟩
      -- The front holds a NUL, so the first text lies in it with its own.
      · have named : first = untilNul earlier.toSlice := by
          rw [← untilNul_closed (plain first List.mem_cons_self) (laidOut rest), ← laidOut, parts,
            untilNul_nul]
        have long : (first ++ "\x00").utf8ByteSize ≤ (earlier ++ "\x00").utf8ByteSize := by
          have shorter := untilNul_size earlier
          rw [← named] at shorter
          rw [String.utf8ByteSize_append, String.utf8ByteSize_append]
          exact Nat.add_le_add_right shorter _
        obtain ⟨inner, whole, after⟩ := append_split parts long
        have closes : Closed inner := (whole ▸ .inr ⟨earlier, rfl⟩ : Closed (first ++ "\x00" ++ inner)).behind
        obtain ⟨before, text, later, rfl, rfl, rfl⟩ :=
          ih (fun text member => plain text (List.mem_cons_of_mem first member)) after closes
        exact ⟨first :: before, text, later, rfl, whole, rfl⟩

theorem stored_in_row {data opening closing front back text : String} {texts : List String}
    (plain : ∀ other ∈ texts, Plain other) (parts : data = opening ++ laidOut texts ++ closing)
    (split : data = front ++ text ++ "\x00" ++ back) (whole : Plain text) (closed : Closed front)
    (low : opening.utf8ByteSize ≤ front.utf8ByteSize)
    (high : front.utf8ByteSize < opening.utf8ByteSize + (laidOut texts).utf8ByteSize) :
    (text, front.utf8ByteSize) ∈ placed texts opening.utf8ByteSize := by
  have first : opening ++ (laidOut texts ++ closing) = front ++ (text ++ ("\x00" ++ back)) := by
    rw [← String.append_assoc, ← parts, split, String.append_assoc, String.append_assoc]
  obtain ⟨inner, rfl, after⟩ := append_split first low
  rw [String.utf8ByteSize_append] at high
  obtain ⟨rest, row, tail⟩ := append_split after.symm (by omega)
  have more : rest ≠ "" := by
    rintro rfl
    rw [row, String.append_empty] at high
    omega
  obtain ⟨before, other, later, rfl, rfl, rfl⟩ := laidOut_cut plain row more closed.behind
  have same : text = other := by
    rw [← untilNul_closed whole back, String.append_assoc, tail, String.append_assoc,
      untilNul_closed (plain other (by simp))]
  rw [String.utf8ByteSize_append]
  exact (mem_placed _ _ _ _).mpr ⟨before, later, by rw [same], rfl⟩

theorem stored_of_row {p : StringPool} {opening closing text : String} {texts : List String}
    {offset : Nat} (plain : ∀ other ∈ texts, Plain other)
    (parts : p.data = opening ++ laidOut texts ++ closing) (closed : Closed opening)
    (member : (text, offset) ∈ placed texts opening.utf8ByteSize) (outside : p.OutsideRing offset) :
    p.StoredAt text offset := by
  obtain ⟨before, later, rfl, rfl⟩ := (mem_placed _ _ _ _).mp member
  refine ⟨plain text (by simp), outside, opening ++ laidOut before, laidOut later ++ closing, ?_,
    String.utf8ByteSize_append, closed.append (laidOut_closed before)⟩
  rw [parts, laidOut_append, laidOut]
  simp only [String.append_assoc]

theorem slotRow_closed (slots : List String) : Closed (slotRow slots) := by
  have slot (text : String) : Closed (slotText text) := by
    have kept := fitting_size (slotBytes - 1) text.toList
    obtain ⟨count, more⟩ : ∃ count, slotBytes -
        (String.ofList (fitting (slotBytes - 1) text.toList)).utf8ByteSize = count + 1 :=
      Nat.exists_eq_add_one.mpr (Nat.sub_pos_of_lt (Nat.lt_of_le_of_lt kept (by decide)))
    refine .inr ⟨String.ofList (fitting (slotBytes - 1) text.toList) ++ nuls count, ?_⟩
    rw [slotText, more, nuls_add, ← String.append_assoc]
    rfl
  induction slots with
  | nil => exact .inl rfl
  | cons text rest ih => exact (slot text).append ih

theorem Rows.storedAt_iff {p : StringPool} {before slots after : List String}
    (rows : Rows p before (slotRow slots) after) (text : String) (offset : Nat) :
    p.StoredAt text offset ↔ (text, offset) ∈ places before (slotRow slots) after := by
  have earlier : ∀ other ∈ before, Plain other :=
    fun other member => rows.plain other (List.mem_append_left after member)
  have later : ∀ other ∈ after, Plain other :=
    fun other member => rows.plain other (List.mem_append_right before member)
  have place : (laidOut before ++ slotRow slots).utf8ByteSize =
      (laidOut before).utf8ByteSize + (slotRow slots).utf8ByteSize := String.utf8ByteSize_append
  rw [places, List.mem_append, ← place]
  constructor
  · rintro ⟨whole, outside, front, back, split, rfl, closed⟩
    rcases (rows.outside_iff _).mp outside with low | high
    · refine .inl (stored_in_row earlier rows.opening split whole closed (Nat.zero_le _) ?_)
      rwa [String.utf8ByteSize_empty, Nat.zero_add]
    · refine .inr (stored_in_row later rows.closing split whole closed (place ▸ high) ?_)
      have inside := congrArg String.utf8ByteSize (rows.data.symm.trans split)
      have one : ("\x00" : String).utf8ByteSize = 1 := rfl
      simp only [String.utf8ByteSize_append] at inside ⊢
      omega
  · rintro (low | high)
    · refine stored_of_row earlier rows.opening (.inl rfl) low ((rows.outside_iff _).mpr (.inl ?_))
      simpa using (placed_bounds low).2
    · refine stored_of_row later rows.closing ((laidOut_closed _).append (slotRow_closed _)) high ?_
      exact (rows.outside_iff _).mpr (.inr (place ▸ (placed_bounds high).1))

theorem find?_first {text : String} {all : List (String × Nat)}
    (ascending : all.Pairwise (·.2 < ·.2)) (offset : Nat) :
    all.find? (·.1 == text) = some (text, offset) ↔
      (text, offset) ∈ all ∧ ∀ other, (text, other) ∈ all → offset ≤ other := by
  induction all with
  | nil => simp
  | cons place rest ih =>
      obtain ⟨first, start⟩ := place
      obtain ⟨below, ascending⟩ := List.pairwise_cons.mp ascending
      by_cases same : first = text
      · subst same
        simp only [List.find?_cons, beq_self_eq_true, Option.some.injEq, List.mem_cons, Prod.mk.injEq,
          true_and]
        constructor
        · rintro rfl
          refine ⟨.inl rfl, ?_⟩
          rintro other (rfl | member)
          · exact Nat.le_refl _
          · exact Nat.le_of_lt (below _ member)
        · rintro ⟨rfl | member, least⟩
          · rfl
          · have above := below _ member
            have low := least start (.inl rfl)
            simp only at above
            omega
      · have other : (first == text) = false := beq_eq_false_iff_ne.mpr same
        simp only [List.find?_cons, other, ih ascending, List.mem_cons, Prod.mk.injEq, Ne.symm same,
          false_and, false_or]

end EntityMachine.StringPool
