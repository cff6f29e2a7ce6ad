import EntityMachine.Proofs.PoolCoherence

/-!
Histories of the string pool. Whatever is interned, put into the ring or indexed again, a pool that
started empty or over a blob stays cut into texts, its ids keep their texts, and its index stays what
reading the data again would give.
-/
namespace EntityMachine.StringPool

inductive Fresh : StringPool → Prop
  | empty : Fresh .empty
  | blob (blob : String) : Fresh (.ofBlob blob)

/-- What becomes of a pool as texts are stored and its index is rebuilt. -/
inductive Grows (p : StringPool) : StringPool → Prop
  | refl : Grows p p
  | intern {q q' : StringPool} {text : String} {id : StringId} :
      Grows p q → q.intern? text = some (id, q') → Grows p q'
  | temporary {q q' : StringPool} {text : String} {id : StringId} :
      Grows p q → q.temporary? text = some (id, q') → Grows p q'
  | reindex {q : StringPool} : Grows p q → Grows p q.reindex

/-! ## The invariant -/

def Opens (before slots after : List String) : Prop :=
  before.head? = some "" ∨ before = [] ∧ slots = [] ∧ after.head? = some ""

/-- The data is cut into texts around slots, and starts with the empty text. -/
structure Settled (p : StringPool) (before slots after : List String) : Prop where
  rows : Rows p before (slotRow slots) after
  opens : Opens before slots after

theorem Opens.places {before slots after : List String} (opens : Opens before slots after) :
    (places before (slotRow slots) after).head? = some ("", 0) := by
  rcases opens with first | ⟨rfl, rfl, first⟩
  · obtain ⟨rest, rfl⟩ := List.head?_eq_some_iff.mp first
    rfl
  · obtain ⟨rest, rfl⟩ := List.head?_eq_some_iff.mp first
    rfl

theorem empty_settled : Settled .empty [] [] [""] := ⟨empty_rows, .inr ⟨rfl, rfl, rfl⟩⟩

theorem ofBlob_settled (blob : String) : ∃ texts, Settled (ofBlob blob) [] [] texts := by
  obtain ⟨texts, rows⟩ := ofBlob_rows blob
  refine ⟨texts, rows, .inr ⟨rfl, rfl, ?_⟩⟩
  obtain ⟨-, -, whole⟩ := rows.unringed rfl
  have opened (rest : String) : ∃ closing : String,
      (if rest.endsWith '\x00' then rest else rest ++ "\x00") = rest ++ closing := by
    split
    · exact ⟨"", by rw [String.append_empty]⟩
    · exact ⟨"\x00", rfl⟩
  have starts : ∃ rest, (if blob.startsWith '\x00' then blob else "\x00" ++ blob) = "\x00" ++ rest := by
    split
    · rename_i first
      exact String.startsWith_char_iff_exists_append.mp first
    · exact ⟨blob, rfl⟩
  obtain ⟨rest, first⟩ := starts
  obtain ⟨closing, last⟩ := opened ("\x00" ++ rest)
  have head : laidOut texts = "" ++ "\x00" ++ (rest ++ closing) := by
    rw [← whole, String.empty_append, ← String.append_assoc, ← last, ← first]
    rfl
  cases texts with
  | nil =>
      have none := congrArg String.toList head
      simp [laidOut] at none
  | cons text later =>
      -- The first text ends at the first NUL, which is the first character.
      have named := untilNul_closed (rows.plain text (by simp)) (laidOut later)
      rw [← laidOut, head, untilNul_closed (by simp [Plain])] at named
      rw [← named]
      rfl

theorem intern_settled {p p' : StringPool} {text : String} {id : StringId}
    {before slots after : List String} (settled : Settled p before slots after)
    (stored : p.intern? text = some (id, p')) :
    p.Extends p' ∧ ∃ more, Settled p' before slots (after ++ more) := by
  obtain ⟨more, rows⟩ := intern_rows settled.rows stored
  have opens : Opens before slots (after ++ more) := by
    rcases settled.opens with first | ⟨rfl, rfl, first⟩
    · exact .inl first
    · exact .inr ⟨rfl, rfl, by rw [List.head?_append, first, Option.some_or]⟩
  refine ⟨settled.rows.extends rows rfl ?_, more, rows, opens⟩
  intro known at_ found
  rcases intern?_cases stored with ⟨-, rfl⟩ | ⟨new, -, -, rfl⟩
  · exact found
  · have other : untilNul text.toSlice ≠ known := by
      rintro rfl
      rw [found] at new
      cases new
    rw [lookup?, Std.HashMap.getElem?_insert, if_neg (by simpa using other)]
    exact found

theorem temporary_settled {p p' : StringPool} {text : String} {id : StringId}
    {before slots after : List String} (settled : Settled p before slots after)
    (stored : p.temporary? text = some (id, p')) :
    p.Extends p' ∧ ∃ before slots after, Settled p' before slots after := by
  obtain ⟨index, before', slots', after', rows, kept⟩ := temporary_rows settled.rows stored
  have found : ∀ text id, p.lookup? text = some id → p'.lookup? text = some id := by
    intro text id found
    rw [lookup?, index]
    exact found
  rcases kept with ⟨rfl, rfl, count⟩ | ⟨absent, rfl, rfl⟩
  · have room : (slotRow slots').utf8ByteSize = (slotRow slots).utf8ByteSize := by
      rw [slotRow_size, slotRow_size, count]
    have rows' : Rows p' before' (slotRow slots') (after' ++ []) := by rwa [List.append_nil]
    have opens : Opens before' slots' after' := by
      rcases settled.opens with first | ⟨none, rfl, first⟩
      · exact .inl first
      · exact .inr ⟨none, List.eq_nil_of_length_eq_zero count, first⟩
    exact ⟨settled.rows.extends rows' room found, before', slots', after', rows, opens⟩
  · obtain ⟨rfl, -, -⟩ := settled.rows.unringed absent
    have opens : Opens before' slots' [] := by
      rcases settled.opens with none | ⟨-, -, first⟩
      · cases none
      · exact .inl first
    exact ⟨settled.rows.ringed_extends absent rows found, before', slots', [], rows, opens⟩

theorem Rows.lookup?_reindex {p : StringPool} {before after : List String} {ring : String}
    (rows : Rows p before ring after) (text : String) : p.reindex.lookup? text = p.lookup? text :=
  rows.reindexed.getElem?_eq

theorem reindex_settled {p : StringPool} {before slots after : List String}
    (settled : Settled p before slots after) :
    p.Extends p.reindex ∧ Settled p.reindex before slots after := by
  have rows : Rows p.reindex before (slotRow slots) after :=
    { settled.rows with indexed := settled.rows.reindexed.trans settled.rows.indexed }
  have rows' : Rows p.reindex before (slotRow slots) (after ++ []) := by rwa [List.append_nil]
  refine ⟨settled.rows.extends rows' rfl ?_, rows, settled.opens⟩
  intro text id found
  rwa [settled.rows.lookup?_reindex]

theorem Grows.settled {p q : StringPool} (grown : p.Grows q) {before slots after : List String}
    (settled : Settled p before slots after) :
    p.Extends q ∧ ∃ before slots after, Settled q before slots after := by
  induction grown with
  | refl => exact ⟨.refl p, before, slots, after, settled⟩
  | intern _ stored ih =>
      obtain ⟨earlier, before, slots, after, settled⟩ := ih
      obtain ⟨later, more, settled⟩ := intern_settled settled stored
      exact ⟨earlier.trans later, before, slots, after ++ more, settled⟩
  | temporary _ stored ih =>
      obtain ⟨earlier, before, slots, after, settled⟩ := ih
      obtain ⟨later, settled⟩ := temporary_settled settled stored
      exact ⟨earlier.trans later, settled⟩
  | reindex _ ih =>
      obtain ⟨earlier, before, slots, after, settled⟩ := ih
      obtain ⟨later, settled⟩ := reindex_settled settled
      exact ⟨earlier.trans later, before, slots, after, settled⟩

theorem fresh_settled {p : StringPool} (fresh : Fresh p) :
    ∃ before slots after, Settled p before slots after := by
  cases fresh with
  | empty => exact ⟨[], [], [""], empty_settled⟩
  | blob blob =>
      obtain ⟨texts, settled⟩ := ofBlob_settled blob
      exact ⟨[], [], texts, settled⟩

/-! ## What is found -/

theorem StoredAt.resolves {p : StringPool} {text : String} {id : StringId}
    (stored : p.StoredAt text id.toNat) : p.get? id = some text := by
  obtain ⟨plain, -, opening, closing, parts, place, -⟩ := stored
  refine (get?_iff p id text).mpr ⟨opening, text ++ "\x00" ++ closing, ?_, place,
    untilNul_closed plain closing⟩
  rw [parts]
  simp only [String.append_assoc]

theorem StoredAt.inside {p : StringPool} {text : String} {offset : Nat}
    (stored : p.StoredAt text offset) : offset < p.size := by
  obtain ⟨-, -, opening, closing, parts, rfl, -⟩ := stored
  have one : ("\x00" : String).utf8ByteSize = 1 := rfl
  rw [size, parts]
  simp only [String.utf8ByteSize_append]
  omega

theorem toNat_ofNat {offset : Nat} (small : offset < offsetLimit) :
    (StringId.ofNat offset).toNat = offset :=
  UInt32.toNat_ofNat_of_lt' small

theorem ofNat_toNat (id : StringId) : StringId.ofNat id.toNat = id := by
  rw [StringId.ofNat, StringId.toNat, UInt32.ofNat_toNat]

theorem Settled.lookup?_eq {p : StringPool} {before slots after : List String}
    (settled : Settled p before slots after) (small : p.size < offsetLimit) (text : String) :
    p.lookup? text = ((places before (slotRow slots) after).find? (·.1 == text)).map
      fun place => .ofNat place.2 := by
  have whole := settled.rows.size_eq
  have entry : p.index[text]? = _ := settled.rows.indexed.getElem?_eq
  rw [indexTexts_get after _ _ (by omega), indexTexts_get before _ _ (by omega)] at entry
  rw [lookup?, entry, Option.or_assoc, ← Option.map_or, ← List.find?_append, ← places]
  by_cases blank : text = ""
  · -- The empty text is entered from the start, and stands first of all.
    subst blank
    obtain ⟨rest, first⟩ := List.head?_eq_some_iff.mp settled.opens.places
    have known : emptyIndex[""]? = some .null := Std.HashMap.getElem?_insert_self
    rw [known, Option.some_or, first, List.find?_cons]
    rfl
  · have absent : emptyIndex[text]? = none := by simp [emptyIndex, Ne.symm blank]
    rw [absent, Option.none_or]

theorem Settled.lookup?_iff {p : StringPool} {before slots after : List String}
    (settled : Settled p before slots after) (small : p.size < offsetLimit) (text : String)
    (id : StringId) : p.lookup? text = some id ↔ p.FirstCopy text id := by
  have ascending := places_ascending before (slotRow slots) after
  rw [settled.lookup?_eq small, Option.map_eq_some_iff]
  constructor
  · rintro ⟨⟨found, offset⟩, search, rfl⟩
    obtain rfl : found = text := by simpa using List.find?_some search
    obtain ⟨member, first⟩ := (find?_first ascending offset).mp search
    have stored := (settled.rows.storedAt_iff _ _).mpr member
    have exactly : (StringId.ofNat offset).toNat = offset :=
      toNat_ofNat (Nat.lt_trans stored.inside small)
    refine ⟨exactly.symm ▸ stored, fun other copy => ?_⟩
    rw [exactly]
    exact first other ((settled.rows.storedAt_iff _ _).mp copy)
  · rintro ⟨stored, first⟩
    refine ⟨(text, id.toNat), (find?_first ascending id.toNat).mpr ⟨?_, ?_⟩, ofNat_toNat id⟩
    · exact (settled.rows.storedAt_iff _ _).mp stored
    · intro other member
      exact first other ((settled.rows.storedAt_iff _ _).mpr member)

/-! ## What is stored -/

theorem intern?_stores {p : StringPool} (small : p.size < offsetLimit) (text : String) :
    ∃ id after, p.intern? text = some (id, after) := by
  rw [intern?]
  split
  · exact ⟨_, p, rfl⟩
  · rw [if_pos small]
    exact ⟨_, _, rfl⟩

/-- An id that interning gave stands for the cut text, outside the ring. -/
structure Names (p : StringPool) (id : StringId) (text : String) : Prop where
  inside : id.toNat < p.size
  outside : p.OutsideRing id.toNat
  resolves : p.get? id = some (untilNul text.toSlice)
  known : p.lookup? (untilNul text.toSlice) = some id

theorem Names.later {p q : StringPool} {id : StringId} {text : String} (named : p.Names id text)
    (extended : p.Extends q) : q.Names id text where
  inside := Nat.lt_of_lt_of_le named.inside extended.grown
  outside := extended.outside _ named.inside named.outside
  resolves := (extended.texts id named.inside named.outside).trans named.resolves
  known := extended.index _ id named.known

theorem Names.again {p : StringPool} {id : StringId} {text other : String} (named : p.Names id text)
    (same : untilNul other.toSlice = untilNul text.toSlice) : p.intern? other = some (id, p) := by
  simp only [intern?, same, named.known]

theorem intern?_names {p after : StringPool} {id : StringId} {text : String}
    {earlier slots later : List String} (settled : Settled p earlier slots later)
    (small : p.size < offsetLimit) (stored : p.intern? text = some (id, after)) :
    after.Names id text := by
  rcases intern?_cases stored with ⟨known, rfl⟩ | ⟨new, small, rfl, rfl⟩
  · have copy := (settled.lookup?_iff small _ _).mp known
    exact ⟨copy.stored.inside, copy.stored.outside, copy.stored.resolves, known⟩
  · -- The text is the last one, behind everything that was there.
    have behind : p.OutsideRing p.size := by
      rw [settled.rows.outside_iff, settled.rows.size_eq]
      exact .inr (Nat.le_add_right _ _)
    have place := toNat_ofNat small
    refine ⟨?_, place.symm ▸ behind, ?_, Std.HashMap.getElem?_insert_self⟩
    · rw [place]
      simp only [size, String.utf8ByteSize_append]
      exact Nat.lt_succ_of_le (Nat.le_add_right _ _)
    · refine (get?_iff _ _ _).mpr ⟨p.data, untilNul text.toSlice ++ "\x00", ?_, place.symm, ?_⟩
      · exact String.append_assoc
      · have cut := untilNul_closed (untilNul_plain text.toSlice) ""
        rwa [String.append_empty] at cut

theorem Settled.starts {p : StringPool} {before slots after : List String}
    (settled : Settled p before slots after) : p.get? .null = some "" := by
  have first : ("", StringId.null.toNat) ∈ places before (slotRow slots) after :=
    List.mem_of_head? settled.opens.places
  exact ((settled.rows.storedAt_iff _ _).mpr first).resolves

/-- What a pool promises, whatever happens to it later. -/
structure Coherent (p : StringPool) : Prop where
  starts : p.get? .null = some ""
  /-- Any text can be stored. Its id names it, cut at its first NUL, ever after. Texts with the same cut
  are found there and add nothing, all others get other ids. -/
  stores : ∀ text, ∃ id after, p.intern? text = some (id, after) ∧ ∀ later, after.Grows later →
    later.get? id = some (untilNul text.toSlice) ∧
    (∀ other, untilNul other.toSlice = untilNul text.toSlice →
      later.intern? other = some (id, later)) ∧
    (later.size < offsetLimit → ∀ other, untilNul other.toSlice ≠ untilNul text.toSlice →
      ∀ otherId next, later.intern? other = some (otherId, next) → otherId ≠ id)
  /-- What stands outside the ring stays, and stays outside. -/
  keeps : ∀ id : StringId, id.toNat < p.size → p.isTemporary id = false → ∀ later, p.Grows later →
    later.isTemporary id = false ∧ later.get? id = p.get? id
  /-- The index names the first copy of each text outside the ring, and nothing else. -/
  finds : ∀ text id, p.lookup? text = some id ↔ p.FirstCopy text id
  found : ∀ text id, p.lookup? text = some id → p.get? id = some text ∧ p.isTemporary id = false
  rebuilds : ∀ text, p.reindex.lookup? text = p.lookup? text

theorem Settled.stores {p : StringPool} {before slots after : List String}
    (settled : Settled p before slots after) {text : String} {id : StringId} {next : StringPool}
    (small : p.size < offsetLimit) (stored : p.intern? text = some (id, next)) {later : StringPool}
    (grown : next.Grows later) : later.Names id text ∧
      (later.size < offsetLimit → ∀ other, untilNul other.toSlice ≠ untilNul text.toSlice →
        ∀ otherId last, later.intern? other = some (otherId, last) → otherId ≠ id) := by
  obtain ⟨-, more, settled'⟩ := intern_settled settled stored
  obtain ⟨extended, before', slots', after', settled''⟩ := grown.settled settled'
  have named := (intern?_names settled small stored).later extended
  refine ⟨named, ?_⟩
  intro small' other different otherId last stored' same
  -- Both texts would be read at one offset of the last pool.
  have first := (named.later (intern_settled settled'' stored').1).resolves
  have second := (intern?_names settled'' small' stored').resolves
  rw [same, first, Option.some.injEq] at second
  exact different second.symm

/-- A pool is coherent at any point of any history. -/
theorem coherent_throughout {start p : StringPool} (fresh : Fresh start) (grown : start.Grows p)
    (small : p.size < offsetLimit) : p.Coherent := by
  obtain ⟨_, _, _, begun⟩ := fresh_settled fresh
  obtain ⟨-, before, slots, after, settled⟩ := grown.settled begun
  have finds := settled.lookup?_iff small
  refine ⟨settled.starts, ?_, ?_, finds, ?_, settled.rows.lookup?_reindex⟩
  · intro text
    obtain ⟨id, next, stored⟩ := intern?_stores small text
    refine ⟨id, next, stored, fun later onward => ?_⟩
    obtain ⟨named, apart⟩ := settled.stores small stored onward
    exact ⟨named.resolves, fun other same => named.again same, apart⟩
  · intro id inside outside later onward
    obtain ⟨extended, -⟩ := onward.settled settled
    rw [outsideRing_iff] at outside ⊢
    exact ⟨extended.outside _ inside outside, extended.texts id inside outside⟩
  · intro text id known
    have copy := (finds text id).mp known
    exact ⟨copy.stored.resolves, (outsideRing_iff p id).mpr copy.stored.outside⟩

def onceRinged : StringPool :=
  { empty with
    data := "\x00" ++ slotText "ok" ++ nuls (ringBytes - slotBytes)
    ringBase := some 1
    cursor := 1 }

def behindRing : StringPool :=
  { onceRinged with
    data := onceRinged.data ++ "a" ++ "\x00"
    index := onceRinged.index.insert "a" ⟨2049⟩ }

theorem coherent_throughout_behind_ring : Fresh .empty ∧ StringPool.empty.Grows behindRing ∧
    behindRing.size < offsetLimit ∧ behindRing.lookup? "a" = some ⟨2049⟩ ∧ behindRing.Coherent := by
  have ring : StringPool.empty.temporary? "ok" = some (⟨1⟩, onceRinged) :=
    temporary?_first rfl rfl (by decide) (by simp [Plain]) (by decide)
  have size : onceRinged.size = 2049 := by
    simp only [onceRinged, StringPool.size, String.utf8ByteSize_append, slotText_size, nuls_size]
    rfl
  have cut : untilNul "a".toSlice = "a" := untilNul_eq (by simp [Plain])
  have new : onceRinged.lookup? "a" = none := by simp [onceRinged, lookup?, empty, emptyIndex]
  have stored : onceRinged.intern? "a" = some (⟨2049⟩, behindRing) := by
    rw [intern?, cut, new, size]
    rfl
  have grown : StringPool.empty.Grows behindRing := .intern (.temporary .refl ring) stored
  have letter : ("a" : String).utf8ByteSize = 1 := rfl
  have nul : ("\x00" : String).utf8ByteSize = 1 := rfl
  have small : behindRing.size < offsetLimit := by
    rw [StringPool.size, behindRing, String.utf8ByteSize_append, String.utf8ByteSize_append, letter, nul,
      ← StringPool.size, size]
    decide
  exact ⟨.empty, grown, small, Std.HashMap.getElem?_insert_self, coherent_throughout .empty grown small⟩

end EntityMachine.StringPool
