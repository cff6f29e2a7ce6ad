import EntityMachine.Proofs.PoolHistories

/-!
Turns of the ring. Short-lived texts are written to the slots one after the other, and after the last slot to
the first again. So a text stays where it was written until the ring has gone all the way round, whatever is
interned or indexed again meanwhile, and the text that comes then takes its place and its id.
-/
namespace EntityMachine.StringPool

/-! ## What is kept of a text -/

/-- The longest beginning of a text, cut at its first NUL, that leaves room for a NUL in a slot. -/
structure Kept (text kept : String) : Prop where
  begins : ∃ rest, untilNul text.toSlice = kept ++ rest
  short : kept.utf8ByteSize ≤ 127
  longest : ∀ other rest : String, untilNul text.toSlice = other ++ rest → other.utf8ByteSize ≤ 127 →
    ∃ more, kept = other ++ more

theorem fitting_begins (room : Nat) (chars : List Char) : fitting room chars <+: chars := by
  induction chars generalizing room with
  | nil => exact List.prefix_refl _
  | cons c rest ih =>
      rw [fitting]
      split
      · exact (List.prefix_cons_inj c).mpr (ih _)
      · exact List.nil_prefix

theorem fitting_longest {room : Nat} {other chars : List Char} (begins : other <+: chars)
    (short : (String.ofList other).utf8ByteSize ≤ room) : other <+: fitting room chars := by
  induction chars generalizing room other with
  | nil => exact begins
  | cons c rest ih =>
      cases other with
      | nil => exact List.nil_prefix
      | cons first more =>
          obtain ⟨rfl, later⟩ := List.cons_prefix_cons.mp begins
          rw [String.ofList_cons, String.utf8ByteSize_append, String.utf8ByteSize_singleton] at short
          rw [fitting, if_pos (by omega)]
          exact (List.prefix_cons_inj first).mpr (ih later (by omega))

def slotKept (text : String) : String := String.ofList (fitting (slotBytes - 1) text.toList)

theorem slotKept_kept (text : String) : Kept text (slotKept (untilNul text.toSlice)) := by
  refine ⟨?_, fitting_size _ _, fun other rest parts short => ?_⟩
  · obtain ⟨rest, parts⟩ := fitting_begins (slotBytes - 1) (untilNul text.toSlice).toList
    refine ⟨String.ofList rest, String.toList_inj.mp ?_⟩
    rw [slotKept, ← String.ofList_append, String.toList_ofList, parts]
  · have begins : other.toList <+: (untilNul text.toSlice).toList := by
      rw [parts, String.toList_append]
      exact List.prefix_append _ _
    have fits : (String.ofList other.toList).utf8ByteSize ≤ slotBytes - 1 := by rwa [String.ofList_toList]
    obtain ⟨more, whole⟩ := fitting_longest begins fits
    refine ⟨String.ofList more, String.toList_inj.mp ?_⟩
    rw [slotKept, String.toList_ofList, String.toList_append, String.toList_ofList, whole]

theorem Kept.whole {text kept : String} (held : Kept text kept) (plain : Plain text)
    (short : text.utf8ByteSize ≤ 127) : kept = text := by
  obtain ⟨rest, parts⟩ := held.begins
  obtain ⟨more, longer⟩ := held.longest text "" (by rw [untilNul_eq plain, String.append_empty]) short
  have sizes := congrArg String.utf8ByteSize parts
  rw [untilNul_eq plain, longer] at sizes
  simp only [String.utf8ByteSize_append] at sizes
  have none : more = "" := String.utf8ByteSize_eq_zero_iff.mp (by omega)
  rw [longer, none, String.append_empty]

theorem slotKept_plain {text : String} (plain : Plain text) : Plain (slotKept text) := by
  intro member
  rw [slotKept, String.toList_ofList] at member
  exact plain ((fitting_begins _ _).subset member)

theorem slotText_eq (text : String) : ∃ rest, slotText text = slotKept text ++ "\x00" ++ rest := by
  have room : slotBytes - (slotKept text).utf8ByteSize =
      1 + (slotBytes - 1 - (slotKept text).utf8ByteSize) := by
    have short : (slotKept text).utf8ByteSize ≤ slotBytes - 1 := fitting_size _ _
    have some_ : 1 ≤ slotBytes := by decide
    omega
  refine ⟨nuls (slotBytes - 1 - (slotKept text).utf8ByteSize), ?_⟩
  rw [String.append_assoc]
  change slotKept text ++ nuls (slotBytes - (slotKept text).utf8ByteSize) = _
  rw [room, nuls_add]
  rfl

/-! ## The ring -/

/-- Where the next short-lived text goes. A ring that is yet to be made starts at the end of the data. -/
def slotPlace (p : StringPool) : Nat := p.ringBase.getD p.size + p.cursor * slotBytes

/-- The ring starts here, and its slots were given these texts. -/
structure Holds (p : StringPool) (base : Nat) (slots : List String) : Prop where
  rows : ∃ before after, Rows p before (slotRow slots) after
  based : p.ringBase = some base

namespace Holds
variable {p p' : StringPool} {base : Nat} {slots : List String}

theorem full (holds : p.Holds base slots) : slots.length = ringSlots ∧ p.cursor < ringSlots := by
  obtain ⟨⟨before, after, rows⟩, based⟩ := holds
  exact ⟨(rows.slots based).2.2, rows.cursor⟩

theorem place_eq (holds : p.Holds base slots) : p.slotPlace = base + p.cursor * slotBytes := by
  rw [slotPlace, holds.based, Option.getD_some]

theorem slot_inside {i : Nat} (inside : i < ringSlots) : i * slotBytes + slotBytes ≤ ringBytes := by
  rw [← Nat.succ_mul]
  exact Nat.mul_le_mul_right _ inside

theorem size_le (holds : p.Holds base slots) : base + ringBytes ≤ p.size := by
  obtain ⟨⟨before, after, rows⟩, based⟩ := holds
  obtain ⟨rfl, -, count⟩ := rows.slots based
  have ring : (slotRow slots).utf8ByteSize = ringBytes := by rw [slotRow_size, count, ringBytes]
  rw [rows.size_eq, ring]
  exact Nat.le_add_right _ _

theorem reads (holds : p.Holds base slots) {i : Nat} {text : String} (given : slots[i]? = some text)
    (plain : Plain text) (small : base + i * slotBytes < offsetLimit) :
    p.get? (.ofNat (base + i * slotBytes)) = some (slotKept text) ∧
      p.isTemporary (.ofNat (base + i * slotBytes)) = true := by
  have place := toNat_ofNat small
  obtain ⟨inside, found⟩ := List.getElem?_eq_some_iff.mp given
  constructor
  · obtain ⟨⟨before, after, rows⟩, based⟩ := holds
    obtain ⟨rfl, -, -⟩ := rows.slots based
    obtain ⟨rest, closed⟩ := slotText_eq text
    have row : slotRow slots = slotRow (slots.take i) ++ (slotText text ++ slotRow (slots.drop (i + 1))) := by
      have around : slots.take i ++ text :: slots.drop (i + 1) = slots := by rw [← found]; simp
      rw [← slotRow, ← slotRow_append, around]
    refine (get?_iff p _ _).mpr ⟨laidOut before ++ slotRow (slots.take i),
      slotKept text ++ "\x00" ++ (rest ++ slotRow (slots.drop (i + 1)) ++ laidOut after), ?_, ?_,
      untilNul_closed (slotKept_plain plain) _⟩
    · rw [rows.data, row, closed]
      simp only [String.append_assoc]
    · rw [String.utf8ByteSize_append, slotRow_size, List.length_take, Nat.min_eq_left (Nat.le_of_lt inside),
        place]
  · have last := slot_inside (holds.full.1 ▸ inside)
    have width : 0 < slotBytes := by decide
    rw [isTemporary, holds.based]
    exact decide_eq_true (by rw [place]; omega)

theorem intern {text : String} {id : StringId} (holds : p.Holds base slots)
    (stored : p.intern? text = some (id, p')) : p'.Holds base slots ∧ p'.cursor = p.cursor := by
  obtain ⟨⟨before, after, rows⟩, based⟩ := holds
  obtain ⟨more, rows'⟩ := intern_rows rows stored
  rcases intern?_cases stored with ⟨-, rfl⟩ | ⟨-, -, -, rfl⟩
  · exact ⟨⟨⟨before, _, rows'⟩, based⟩, rfl⟩
  · exact ⟨⟨⟨before, _, rows'⟩, based⟩, rfl⟩

theorem reindex (holds : p.Holds base slots) : p.reindex.Holds base slots := by
  obtain ⟨⟨before, after, rows⟩, based⟩ := holds
  exact ⟨⟨before, after, { rows with indexed := rows.reindexed.trans rows.indexed }⟩, based⟩

theorem temporary (holds : p.Holds base slots) {text : String} (filled : untilNul text.toSlice ≠ "") :
    ∃ p' : StringPool, (p.temporary? text = if p.slotPlace < offsetLimit then
        some (.ofNat p.slotPlace, p') else none) ∧
      p'.Holds base (slots.set p.cursor (untilNul text.toSlice)) ∧
      p'.cursor = (p.cursor + 1) % ringSlots ∧ p'.size = p.size := by
  have place := holds.place_eq
  obtain ⟨⟨before, after, rows⟩, based⟩ := holds
  have said : (untilNul text.toSlice).isEmpty = false := by
    rw [Bool.eq_false_iff]
    exact mt String.isEmpty_iff.mp filled
  have written := slot_rows rows based (untilNul text.toSlice)
  refine ⟨_, ?_, ⟨⟨before, after, written⟩, based⟩, rfl, ?_⟩
  · rw [temporary?_slot rows based said, place]
  · rw [written.size_eq, rows.size_eq, slotRow_size, slotRow_size, List.length_set]

end Holds

/-! ## Turns -/

/-- What becomes of a pool while so many texts are written to the ring. Interned texts, a rebuilt index and
empty texts take no turn. -/
inductive Turns (p : StringPool) : Nat → StringPool → Prop
  | refl : Turns p 0 p
  | intern {count : Nat} {q q' : StringPool} {text : String} {id : StringId} :
      Turns p count q → q.intern? text = some (id, q') → Turns p count q'
  | reindex {count : Nat} {q : StringPool} : Turns p count q → Turns p count q.reindex
  | blank {count : Nat} {q q' : StringPool} {text : String} {id : StringId} :
      Turns p count q → untilNul text.toSlice = "" → q.temporary? text = some (id, q') → Turns p count q'
  | filled {count : Nat} {q q' : StringPool} {text : String} {id : StringId} :
      Turns p count q → untilNul text.toSlice ≠ "" → q.temporary? text = some (id, q') →
      Turns p (count + 1) q'

theorem Turns.grows {p q : StringPool} {count : Nat} (turned : p.Turns count q) : p.Grows q := by
  induction turned with
  | refl => exact .refl
  | intern _ stored ih => exact .intern ih stored
  | reindex _ ih => exact .reindex ih
  | blank _ _ stored ih => exact .temporary ih stored
  | filled _ _ stored ih => exact .temporary ih stored

theorem temporary?_blank {p p' : StringPool} {text : String} {id : StringId}
    (blank : untilNul text.toSlice = "") (stored : p.temporary? text = some (id, p')) : p' = p := by
  rw [temporary?_empty (String.isEmpty_iff.mpr blank)] at stored
  cases stored
  rfl

/-- Each turn takes the next slot, so a slot that is not reached keeps its text. -/
theorem Turns.holds {p q : StringPool} {base count : Nat} {slots : List String} (turned : p.Turns count q)
    (holds : p.Holds base slots) :
    ∃ slots', q.Holds base slots' ∧ q.cursor = (p.cursor + count) % ringSlots ∧
      ∀ i, (∀ k, k < count → (p.cursor + k) % ringSlots ≠ i) → slots'[i]? = slots[i]? := by
  induction turned with
  | refl => exact ⟨slots, holds, (Nat.mod_eq_of_lt holds.full.2).symm, fun _ _ => rfl⟩
  | intern _ stored ih =>
      obtain ⟨slots', held, cursor, kept⟩ := ih
      obtain ⟨held', same⟩ := held.intern stored
      exact ⟨slots', held', same.trans cursor, kept⟩
  | reindex _ ih =>
      obtain ⟨slots', held, cursor, kept⟩ := ih
      exact ⟨slots', held.reindex, cursor, kept⟩
  | blank _ blank stored ih =>
      obtain ⟨slots', held, cursor, kept⟩ := ih
      cases temporary?_blank blank stored
      exact ⟨slots', held, cursor, kept⟩
  | @filled count q q' text id _ filled stored ih =>
      obtain ⟨slots', held, cursor, kept⟩ := ih
      obtain ⟨written, came, held', next, -⟩ := held.temporary filled
      rw [came] at stored
      split at stored
      · cases stored
        refine ⟨_, held', ?_, fun i spared => ?_⟩
        · rw [next, cursor, Nat.mod_add_mod, Nat.add_assoc]
        · rw [List.getElem?_set_ne, kept i fun k before => spared k (Nat.lt_succ_of_lt before)]
          rw [cursor]
          exact spared count (Nat.lt_succ_self count)
      · cases stored

theorem Turns.around {q r : StringPool} {base count : Nat} {slots : List String}
    (holds : q.Holds base slots) {i : Nat} (inside : i < ringSlots) (last : q.cursor = (i + 1) % ringSlots)
    (turned : q.Turns count r) : ∃ slots', r.Holds base slots' ∧
      (count ≤ 15 → slots'[i]? = slots[i]?) ∧ (count = 15 → r.cursor = i) := by
  obtain ⟨slots', held, cursor, kept⟩ := turned.holds holds
  have sixteen : ringSlots = 16 := rfl
  simp only [sixteen] at inside last cursor kept
  refine ⟨slots', held, fun few => kept i fun k before => ?_, fun round => ?_⟩ <;> omega

/-- What became of a pool that a text was written to the ring of. -/
structure Written (p : StringPool) (text : String) (q : StringPool) (base : Nat) (slots : List String) : Prop where
  holds : q.Holds base slots
  slot : slots[p.cursor]? = some (untilNul text.toSlice)
  place : p.slotPlace = base + p.cursor * slotBytes
  inside : p.cursor < ringSlots
  cursor : q.cursor = (p.cursor + 1) % ringSlots
  size : q.size = p.size + if p.ringBase.isNone then ringBytes else 0

theorem Holds.written {p : StringPool} {base : Nat} {slots : List String} (holds : p.Holds base slots)
    {text : String} (filled : untilNul text.toSlice ≠ "") :
    (p.temporary? text = none ↔ offsetLimit ≤ p.slotPlace) ∧
      ∀ id q, p.temporary? text = some (id, q) →
        id = .ofNat p.slotPlace ∧ p.slotPlace < offsetLimit ∧ ∃ slots', Written p text q base slots' := by
  obtain ⟨full, inside⟩ := holds.full
  obtain ⟨after, came, held, cursor, size⟩ := holds.temporary filled
  rw [came]
  by_cases small : p.slotPlace < offsetLimit
  · rw [if_pos small]
    refine ⟨⟨nofun, fun large => absurd small (Nat.not_lt.mpr large)⟩, ?_⟩
    rintro _ _ ⟨⟩
    refine ⟨rfl, small, _, held, ?_, holds.place_eq, inside, cursor, ?_⟩
    · exact List.getElem?_set_self (full ▸ inside)
    · rw [size, holds.based]
      rfl
  · rw [if_neg small]
    exact ⟨⟨fun _ => Nat.le_of_not_lt small, fun _ => rfl⟩, nofun⟩

theorem Rows.written {p : StringPool} {before slots after : List String}
    (rows : Rows p before (slotRow slots) after) {text : String} (filled : untilNul text.toSlice ≠ "") :
    (p.temporary? text = none ↔ offsetLimit ≤ p.slotPlace) ∧
      ∀ id q, p.temporary? text = some (id, q) →
        id = .ofNat p.slotPlace ∧ p.slotPlace < offsetLimit ∧ ∃ base slots', Written p text q base slots' := by
  have said : (untilNul text.toSlice).isEmpty = false := by
    rw [Bool.eq_false_iff]
    exact mt String.isEmpty_iff.mp filled
  cases based : p.ringBase with
  | some base =>
      obtain ⟨refused, stores⟩ := Holds.written ⟨⟨before, after, rows⟩, based⟩ filled
      refine ⟨refused, fun id q stored => ?_⟩
      obtain ⟨named, small, slots', written⟩ := stores id q stored
      exact ⟨named, small, base, slots', written⟩
  | none =>
      have place : p.slotPlace = p.size + p.cursor * slotBytes := by rw [slotPlace, based, Option.getD_none]
      by_cases small : p.size < offsetLimit
      · have made : p.ringed.Holds p.size (List.replicate ringSlots "") :=
          ⟨⟨after, [], ringed_rows rows based small⟩, rfl⟩
        have same : p.ringed.slotPlace = p.slotPlace := place.symm ▸ made.place_eq
        obtain ⟨refused, stores⟩ := made.written filled
        rw [temporary?_ringed based small said, ← same]
        refine ⟨refused, fun id q stored => ?_⟩
        obtain ⟨named, inside, slots', written⟩ := stores id q stored
        refine ⟨named, inside, p.size, slots', written.holds, written.slot, ?_, written.inside,
          written.cursor, ?_⟩
        · exact same.symm.trans written.place
        · have room : p.ringed.size = p.size + ringBytes := by
            rw [StringPool.size, ringed, String.utf8ByteSize_append, nuls_size, StringPool.size]
          rw [written.size, room, based]
          rfl
      · have refused : p.temporary? text = none := by simp [temporary?, said, withRing?, based, small]
        rw [refused, place]
        refine ⟨⟨fun _ => by omega, fun _ => rfl⟩, fun id q stored => ?_⟩
        cases stored

/-! ## From the start -/

theorem Fresh.unringed {p : StringPool} (fresh : Fresh p) : p.ringBase = none ∧ p.cursor = 0 := by
  cases fresh <;> exact ⟨rfl, rfl⟩

theorem Turns.ring {start p : StringPool} {count : Nat} (fresh : Fresh start) (turned : start.Turns count p) :
    (count = 0 ∧ p.ringBase = none ∧ p.cursor = 0) ∨
      (0 < count ∧ ∃ base slots, p.Holds base slots) := by
  induction turned with
  | refl => exact .inl ⟨rfl, fresh.unringed⟩
  | intern _ stored ih =>
      rcases ih with ⟨none_, absent, first⟩ | ⟨some_, base, slots, held⟩
      · refine .inl ⟨none_, ?_⟩
        rcases intern?_cases stored with ⟨-, rfl⟩ | ⟨-, -, -, rfl⟩ <;> exact ⟨absent, first⟩
      · exact .inr ⟨some_, base, slots, (held.intern stored).1⟩
  | reindex _ ih =>
      rcases ih with unringed | ⟨some_, base, slots, held⟩
      · exact .inl unringed
      · exact .inr ⟨some_, base, slots, held.reindex⟩
  | blank _ blank stored ih =>
      cases temporary?_blank blank stored
      exact ih
  | @filled count q q' text id turned filled stored ih =>
      obtain ⟨_, _, _, begun⟩ := fresh_settled fresh
      obtain ⟨-, before, slots, after, settled⟩ := turned.grows.settled begun
      obtain ⟨-, -, base, slots', written⟩ := (settled.rows.written filled).2 id q' stored
      exact .inr ⟨Nat.succ_pos count, base, slots', written.holds⟩

theorem Turns.room {start p : StringPool} {count : Nat} (fresh : Fresh start) (turned : start.Turns count p) :
    (if count = 0 then 2048 else 0) = if p.ringBase.isNone then ringBytes else 0 := by
  rcases turned.ring fresh with ⟨rfl, absent, -⟩ | ⟨some_, base, slots, held⟩
  · rw [absent]
    rfl
  · rw [held.based, if_neg (by omega)]
    rfl

theorem Turns.place_small {start p : StringPool} {count : Nat} (fresh : Fresh start)
    (turned : start.Turns count p) (small : p.size + (if count = 0 then 2048 else 0) ≤ offsetLimit) :
    p.slotPlace < offsetLimit := by
  rcases turned.ring fresh with ⟨rfl, absent, first⟩ | ⟨some_, base, slots, held⟩
  · rw [slotPlace, absent, first, Option.getD_none]
    rw [if_pos rfl] at small
    omega
  · have inside := Holds.slot_inside held.full.2
    have width : 0 < slotBytes := by decide
    have within := held.size_le
    rw [held.place_eq]
    omega

theorem Settled.base_pos {p : StringPool} {before slots after : List String} {base : Nat}
    (settled : Settled p before slots after) (based : p.ringBase = some base) : 0 < base := by
  obtain ⟨rfl, -, count⟩ := settled.rows.slots based
  rcases settled.opens with first | ⟨-, rfl, -⟩
  · obtain ⟨rest, rfl⟩ := List.head?_eq_some_iff.mp first
    have nul : ("\x00" : String).utf8ByteSize = 1 := rfl
    simp only [laidOut, String.utf8ByteSize_append, nul]
    omega
  · cases count

/-- A short-lived text is written to the ring, unless it is empty or the place is past what ids can name. Its id
names what is kept of it until fifteen more have been written, and goes to the sixteenth. The ring is made for the
first, and no further one makes the pool longer. -/
theorem ring_lasts {start p : StringPool} {count : Nat} (fresh : Fresh start) (turned : start.Turns count p)
    (text : String) :
    (untilNul text.toSlice = "" → p.temporary? text = some (.null, p)) ∧
    (untilNul text.toSlice ≠ "" →
      (p.temporary? text = none ↔ offsetLimit ≤ p.slotPlace) ∧
      (p.size + (if count = 0 then 2048 else 0) ≤ offsetLimit → p.slotPlace < offsetLimit) ∧
      ∀ id q, p.temporary? text = some (id, q) → id ≠ .null ∧
        q.size = p.size + (if count = 0 then 2048 else 0) ∧
        ∃ kept, Kept text kept ∧ ∀ more later, q.Turns more later →
          (more ≤ 15 → later.isTemporary id = true ∧ later.get? id = some kept) ∧
          (more = 15 → ∀ next, untilNul next.toSlice ≠ "" → ∃ last, later.temporary? next = some (id, last))) := by
  refine ⟨fun blank => temporary?_empty (String.isEmpty_iff.mpr blank), fun filled => ?_⟩
  obtain ⟨_, _, _, begun⟩ := fresh_settled fresh
  obtain ⟨-, before, slots, after, settled⟩ := turned.grows.settled begun
  obtain ⟨refused, stores⟩ := settled.rows.written filled
  have room : (if count = 0 then 2048 else 0) = if p.ringBase.isNone then ringBytes else 0 :=
    turned.room fresh
  refine ⟨refused, fun small => turned.place_small fresh small, fun id q stored => ?_⟩
  obtain ⟨rfl, small, base, slots', written⟩ := stores id q stored
  obtain ⟨-, before', slots'', after', settled'⟩ := (turned.grows.temporary stored).settled begun
  have based := settled'.base_pos written.holds.based
  refine ⟨fun null => ?_, room ▸ written.size, slotKept (untilNul text.toSlice), slotKept_kept text,
    fun more later turned' => ?_⟩
  · have place := congrArg StringId.toNat null
    rw [toNat_ofNat small, written.place] at place
    exact absurd place (by change _ ≠ 0; omega)
  · obtain ⟨last, held, kept, back⟩ := turned'.around written.holds written.inside written.cursor
    refine ⟨fun few => ?_, fun round next filled => ?_⟩
    · have given := (kept few).trans written.slot
      rw [written.place]
      exact (held.reads given (untilNul_plain _) (written.place ▸ small)).symm
    · have same : later.slotPlace = p.slotPlace := by rw [held.place_eq, back round, written.place]
      obtain ⟨refused, -⟩ := held.written filled
      cases came : later.temporary? next with
      | none => exact absurd (refused.mp came) (by omega)
      | some stored =>
          obtain ⟨id, last⟩ := stored
          obtain ⟨rfl, -, -⟩ := (held.written filled).2 id last came
          exact ⟨last, by rw [same]⟩

theorem ring_lasts_past_another : Fresh .empty ∧ StringPool.empty.Turns 0 .empty ∧
    untilNul "ok".toSlice ≠ "" ∧ StringPool.empty.temporary? "ok" = some (⟨1⟩, onceRinged) ∧
    ∃ id later, onceRinged.temporary? "no" = some (id, later) ∧ onceRinged.Turns 1 later ∧
      later.get? ⟨1⟩ = some "ok" := by
  have plain : Plain "ok" := by simp [Plain]
  have ring : StringPool.empty.temporary? "ok" = some (⟨1⟩, onceRinged) :=
    temporary?_first rfl rfl (by decide) plain (by decide)
  have filled : untilNul "ok".toSlice ≠ "" := by rw [untilNul_eq plain]; decide
  have filled' : untilNul "no".toSlice ≠ "" := by rw [untilNul_eq (by simp [Plain])]; decide
  obtain ⟨refused, -, -⟩ := (ring_lasts .empty (.filled .refl filled ring) "no").2 filled'
  have place : onceRinged.slotPlace = 129 := rfl
  cases came : onceRinged.temporary? "no" with
  | none => exact absurd (refused.mp came) (by rw [place]; decide)
  | some stored =>
      have turned : onceRinged.Turns 1 stored.2 := .filled .refl filled' came
      obtain ⟨-, -, stores⟩ := (ring_lasts .empty .refl "ok").2 filled
      obtain ⟨-, -, kept, held, lasts⟩ := stores ⟨1⟩ onceRinged ring
      obtain ⟨-, found⟩ := (lasts 1 stored.2 turned).1 (by decide)
      exact ⟨.empty, .refl, filled, ring, stored.1, stored.2, rfl, turned,
        held.whole plain (by decide) ▸ found⟩

end EntityMachine.StringPool
