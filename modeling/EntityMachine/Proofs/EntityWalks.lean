import EntityMachine.Proofs.AllocationPolicy
import EntityMachine.Proofs.Frames
import EntityMachine.Proofs.NativeDiscipline

/-!
Walks over the records. A native function that is handed a record gives the next one that is wanted, and the
world once there is none. Whoever hands back what was given meets every wanted record once, in
ascending order, before the world tells that the round is over.
-/
namespace EntityMachine
open Machine Run

theorem EntityIndex.eq_of_toNat {e e' : EntityIndex} (same : e.toNat = e'.toNat) : e = e' :=
  congrArg EntityIndex.mk (UInt32.toNat_inj.mp same)

theorem StringId.isNull_eq_false_iff (id : StringId) : id.isNull = false ↔ id ≠ .null := by
  cases id
  simp [isNull, null]

namespace Entities

theorem mem_live {t : Entities} (well : t.WellFormed) (e : EntityIndex) :
    e ∈ t.live ↔ t.InUse e.toNat := by
  rw [(Session.live_ascending well).2]
  constructor
  · exact fun listed => ⟨e, listed, rfl⟩
  · rintro ⟨other, listed, same⟩
    exact EntityIndex.eq_of_toNat same ▸ listed

/-! ## One step -/

/-- What follows a record in a walk over the wanted ones: the first that is past it, or the world. -/
inductive Next (t : Entities) (wanted : EntityIndex → Prop) (start : EntityIndex) : EntityIndex → Prop where
  | found (e : EntityIndex) (used : t.InUse e.toNat) (fits : wanted e) (past : start.toNat < e.toNat)
      (first : ∀ x, t.InUse x.toNat → wanted x → start.toNat < x.toNat → e.toNat ≤ x.toNat) :
      Next t wanted start e
  | ended (none : ∀ x, t.InUse x.toNat → wanted x → x.toNat ≤ start.toNat) : Next t wanted start .world

variable {t : Entities} {start : EntityIndex}

theorem nextLive?_none (none : t.nextLive? start = none) (x : EntityIndex) (used : t.InUse x.toNat) :
    x.toNat ≤ start.toNat :=
  Nat.le_of_not_lt fun past =>
    firstFrom_none (Option.map_eq_none_iff.mp none) x.toNat past ((uses_iff t x.toNat).mpr used)

/-- A step of a walk goes forward, and passes over no record in use. -/
theorem nextLive?_some {next : EntityIndex} (well : t.WellFormed) (found : t.nextLive? start = some next) :
    t.InUse next.toNat ∧ start.toNat < next.toNat ∧
      ∀ x : EntityIndex, t.InUse x.toNat → start.toNat < x.toNat → next.toNat ≤ x.toNat := by
  obtain ⟨i, search, rfl⟩ := Option.map_eq_some_iff.mp found
  obtain ⟨past, s, here, inUse⟩ := firstAmong_some search
  have used : t.InUse i := ⟨s, here, by simpa using inUse⟩
  rw [index_toNat well (Nat.lt_of_lt_of_le used.inside well.room)]
  refine ⟨used, past, fun x other beyond => Nat.le_of_not_lt fun before => ?_⟩
  exact firstAmong_least search x.toNat beyond before ((uses_iff t x.toNat).mpr other)

theorem next_nextLive (well : t.WellFormed) (start : EntityIndex) :
    t.Next (fun _ => True) start ((t.nextLive? start).getD .world) := by
  cases search : t.nextLive? start with
  | none => exact .ended fun x used _ => nextLive?_none search x used
  | some e =>
      obtain ⟨used, past, first⟩ := nextLive?_some well search
      exact .found e used trivial past fun x other _ => first x other

theorem Next.pass {wanted : EntityIndex → Prop} {next e : EntityIndex} (past : start.toNat < next.toNat)
    (first : ∀ x : EntityIndex, t.InUse x.toNat → start.toNat < x.toNat → next.toNat ≤ x.toNat)
    (unwanted : ¬ wanted next) (later : t.Next wanted next e) : t.Next wanted start e := by
  have beyond (x : EntityIndex) (used : t.InUse x.toNat) (fits : wanted x) (after : start.toNat < x.toNat) :
      next.toNat < x.toNat := by
    refine Nat.lt_of_le_of_ne (first x used after) fun same => ?_
    exact unwanted (EntityIndex.eq_of_toNat same ▸ fits)
  cases later with
  | found e used fits further least =>
      exact .found e used fits (Nat.lt_trans past further) fun x other fits after =>
        least x other fits (beyond x other fits after)
  | ended none =>
      refine .ended fun x used fits => Nat.le_of_not_lt fun after => ?_
      exact Nat.not_lt.mpr (none x used fits) (beyond x used fits after)

/-! ## A whole round -/

/-- The records that a walk is to meet, in the order in which it is to meet them. -/
structure Itinerary (t : Entities) (wanted : EntityIndex → Prop) (stops : List EntityIndex) : Prop where
  ascending : stops.Pairwise (·.toNat < ·.toNat)
  listed : ∀ e, e ∈ stops ↔ t.InUse e.toNat ∧ e ≠ .world ∧ wanted e

theorem exists_itinerary (well : t.WellFormed) (wanted : EntityIndex → Prop) :
    ∃ stops, t.Itinerary wanted stops := by
  classical
  refine ⟨t.live.filter fun e => e ≠ .world ∧ wanted e, (Session.live_ascending well).1.filter _, fun e => ?_⟩
  rw [List.mem_filter, mem_live well, decide_eq_true_iff]

theorem Itinerary.next {wanted : EntityIndex → Prop} {stops : List EntityIndex} {e : EntityIndex} {i : Nat}
    (itinerary : t.Itinerary wanted stops) (at_ : (.world :: stops)[i]? = some start)
    (next : t.Next wanted start e) : (stops ++ [.world])[i]? = some e := by
  have beyond : ∀ x ∈ stops, EntityIndex.world.toNat < x.toNat := by
    intro x member
    refine Nat.pos_of_ne_zero fun zero => ((itinerary.listed x).mp member).2.1 ?_
    exact EntityIndex.eq_of_toNat zero
  have ring := List.pairwise_iff_getElem.mp (List.pairwise_cons.mpr ⟨beyond, itinerary.ascending⟩)
  obtain ⟨inside, rfl⟩ := List.getElem?_eq_some_iff.mp at_
  have bound : i ≤ stops.length := Nat.le_of_lt_succ inside
  -- A stop is past another one just where it stands behind it in the ring.
  have behind : ∀ k, (here : k < stops.length) →
      ((EntityIndex.world :: stops)[i].toNat < stops[k].toNat ↔ i ≤ k) := by
    intro k here
    constructor
    · refine fun past => Nat.le_of_not_lt fun before => ?_
      rcases Nat.lt_or_eq_of_le before with earlier | same
      · exact Nat.lt_asymm past (ring (k + 1) i (Nat.succ_lt_succ here) inside earlier)
      · subst same
        exact Nat.lt_irrefl _ past
    · exact fun before => ring i (k + 1) inside (Nat.succ_lt_succ here) (Nat.lt_succ_of_le before)
  cases next with
  | found e used fits past first =>
      have other : e ≠ .world := fun same => Nat.not_lt_zero _ (same ▸ past)
      obtain ⟨k, here, rfl⟩ := List.getElem_of_mem ((itinerary.listed e).mpr ⟨used, other, fits⟩)
      have before : i ≤ k := (behind k here).mp past
      have stop := (itinerary.listed stops[i]).mp (List.getElem_mem (by omega))
      have least := first stops[i] stop.1 stop.2.2 ((behind i (by omega)).mpr (Nat.le_refl i))
      have same : k = i := by
        refine Nat.le_antisymm (Nat.le_of_not_lt fun after => ?_) before
        have further := List.pairwise_iff_getElem.mp itinerary.ascending i k (by omega) here after
        omega
      subst same
      rw [List.getElem?_append_left here, List.getElem?_eq_getElem here]
  | ended none =>
      have last : i = stops.length := by
        refine Nat.le_antisymm bound (Nat.le_of_not_lt fun more => ?_)
        have stop := (itinerary.listed stops[i]).mp (List.getElem_mem more)
        have past := (behind i more).mpr (Nat.le_refl i)
        have low := none stops[i] stop.1 stop.2.2
        omega
      rw [last, List.getElem?_append_right (Nat.le_refl _), Nat.sub_self]
      rfl

end Entities

namespace Machine

/-- The record's field holds a string with that text; the null string is none. -/
def Carries (m : Machine) (field : UInt32) (text : String) (e : EntityIndex) : Prop :=
  ∃ cell, m.entities.get e field = .ok cell ∧ cell.string ≠ .null ∧ m.resolve cell.string = text

/-- The machine is to search for a text in a field that records have. -/
structure Searches (field : UInt32) (text : String) (m : Machine) : Prop where
  sound : m.Sound
  offset : m.argument 1 = .ok ⟨field⟩
  target : m.textArgument 2 = .ok text
  inside : field.toNat < m.entities.layout.fieldCount

def giving (m : Machine) (e : EntityIndex) : Machine :=
  { m with globals := m.globals.overwrite Slot.returnSlot #[.ofEntity e] }

variable {m : Machine} {start : EntityIndex} {field : UInt32} {text : String}

theorem Sound.cell_ok (sound : m.Sound) {offset : Nat} (low : offset < Slot.reserved) :
    ∃ cell, m.cell offset = .ok cell := by
  have room : Slot.reserved ≤ m.globals.size := sound.segment ▸ m.program.valid.segment
  have inside : offset < m.globals.cells.size := Nat.lt_of_lt_of_le low room
  exact ⟨m.globals.cells[offset], by rw [cell, Segment.get?, Array.getElem?_eq_getElem inside]; rfl⟩

theorem Sound.argument_ok (sound : m.Sound) {n : Nat} (few : n < Slot.maxParameters) :
    ∃ cell, m.argument n = .ok cell := by
  have low : Slot.firstParameter + n * Slot.width < Slot.reserved := by
    have slot : n < 8 := few
    change 4 + n * 3 < 28
    omega
  obtain ⟨cell, found⟩ := sound.cell_ok low
  exact ⟨cell, by rw [argument, Slot.parameter?, if_pos few]; exact found⟩

theorem Sound.entityArgument_ok (sound : m.Sound) : ∃ start, m.argument 0 = .ok (.ofEntity start) := by
  obtain ⟨cell, handed⟩ := sound.argument_ok (n := 0) (by decide)
  exact ⟨cell.entity, handed⟩

theorem giveEntity_apply (sound : m.Sound) (e : EntityIndex) :
    giveEntity e m = (.ok (), m.giving e) := by
  have room : Slot.reserved ≤ m.globals.size := sound.segment ▸ m.program.valid.segment
  have inside : Slot.returnSlot + 1 ≤ m.globals.size := Nat.le_trans (by decide) room
  exact (write_apply _ _ m).trans (if_pos inside)

theorem Sound.giving (sound : m.Sound) (e : EntityIndex) : (m.giving e).Sound :=
  sound.of_shape (m.shape_of_globals (Segment.overwrite_size _ _ _))

theorem giving_cell (sound : m.Sound) (e : EntityIndex) (offset : Nat) :
    (m.giving e).cell offset = if offset = Slot.returnSlot then .ok (.ofEntity e) else m.cell offset := by
  have room : Slot.reserved ≤ m.globals.size := sound.segment ▸ m.program.valid.segment
  have inside : Slot.returnSlot < m.globals.size := Nat.lt_of_lt_of_le (by decide) room
  rw [cell, Machine.giving, Segment.overwrite_get]
  by_cases same : offset = Slot.returnSlot
  · subst same
    rw [if_pos ⟨Nat.le_refl _, Nat.lt_succ_self _, inside⟩, if_pos rfl, Nat.sub_self]
    rfl
  · rw [if_neg same, if_neg fun covered => same (Nat.le_antisymm (Nat.le_of_lt_succ covered.2.1) covered.1)]
    rfl

end Machine

namespace Reference
variable {m : Machine} {start : EntityIndex} {field : UInt32} {text : String}

theorem nextEntity_gives (sound : m.Sound) (handed : m.argument 0 = .ok (.ofEntity start)) :
    ∃ e, nextEntity m = (.ok (), m.giving e) ∧ m.entities.Next (fun _ => True) start e := by
  refine ⟨(m.entities.nextLive? start).getD .world, ?_, Entities.next_nextLive sound.entities start⟩
  rw [nextEntity, get_bind, handed, ok_bind]
  exact giveEntity_apply sound _

/-- A search with enough steps ends at the next record that carries the text, or at the world. -/
theorem findFrom_next (sound : m.Sound) (inside : field.toNat < m.entities.layout.fieldCount) {steps : Nat}
    {cursor : EntityIndex} (enough : m.entities.size ≤ cursor.toNat + steps) :
    ∃ e, findFrom m field text steps cursor = .ok e ∧ m.entities.Next (m.Carries field text) cursor e := by
  induction steps generalizing cursor with
  | zero =>
      refine ⟨.world, rfl, .ended fun x used _ => ?_⟩
      exact Nat.le_of_lt (Nat.lt_of_lt_of_le used.inside enough)
  | succ steps ih =>
      rw [findFrom]
      cases search : m.entities.nextLive? cursor with
      | none => exact ⟨.world, rfl, .ended fun x used _ => Entities.nextLive?_none search x used⟩
      | some next =>
          obtain ⟨used, past, first⟩ := Entities.nextLive?_some sound.entities search
          obtain ⟨cell, read⟩ := sound.entities.get_ok used.inside inside
          have carries : m.Carries field text next ↔
              (!cell.string.isNull && m.resolve cell.string == text) = true := by
            rw [Bool.and_eq_true, Bool.not_eq_true', StringId.isNull_eq_false_iff, beq_iff_eq]
            constructor
            · rintro ⟨_, again, named⟩
              cases read.symm.trans again
              exact named
            · exact fun named => ⟨cell, read, named⟩
          simp only [read, Outcome.ok_bind]
          by_cases here : (!cell.string.isNull && m.resolve cell.string == text) = true
          · refine ⟨next, by rw [if_pos here]; rfl, ?_⟩
            exact .found next used (carries.mpr here) past fun x other _ => first x other
          · have closer : m.entities.size ≤ next.toNat + steps := by omega
            obtain ⟨e, searched, later⟩ := ih closer
            refine ⟨e, by rw [if_neg here]; exact searched, ?_⟩
            exact later.pass past first fun found => here (carries.mp found)

theorem find_eq (handed : m.argument 0 = .ok (.ofEntity start)) (offset : m.argument 1 = .ok ⟨field⟩)
    (target : m.textArgument 2 = .ok text) :
    find m = (liftM (findFrom m field text m.entities.size start) >>= giveEntity : Run Unit) m := by
  rw [find, get_bind, offset, ok_bind, target, ok_bind, handed, ok_bind]
  rfl

theorem find_gives (sound : m.Sound) (handed : m.argument 0 = .ok (.ofEntity start))
    (offset : m.argument 1 = .ok ⟨field⟩) (target : m.textArgument 2 = .ok text)
    (inside : field.toNat < m.entities.layout.fieldCount) :
    ∃ e, find m = (.ok (), m.giving e) ∧ m.entities.Next (m.Carries field text) start e := by
  obtain ⟨e, searched, next⟩ := findFrom_next (m := m) sound inside (Nat.le_add_left _ start.toNat)
  refine ⟨e, ?_, next⟩
  rw [find_eq handed offset target, searched, ok_bind]
  exact giveEntity_apply sound e

theorem find_outside (sound : m.Sound) (handed : m.argument 0 = .ok (.ofEntity start))
    (offset : m.argument 1 = .ok ⟨field⟩) (target : m.textArgument 2 = .ok text)
    (outside : m.entities.layout.fieldCount ≤ field.toNat) :
    (∃ e, find m = (.ok (), m.giving e) ∧ m.entities.Next (m.Carries field text) start e) ∨
      find m = (Outcome.fail (.badField field), m) := by
  have well := sound.entities
  have some : m.entities.size = m.entities.size - 1 + 1 :=
    (Nat.sub_add_cancel (Nat.le_trans well.reserved well.started)).symm
  rw [find_eq handed offset target, some, findFrom]
  cases search : m.entities.nextLive? start with
  | none =>
      refine .inl ⟨.world, giveEntity_apply sound .world, .ended fun x used _ => ?_⟩
      exact Entities.nextLive?_none search x used
  | some next =>
      obtain ⟨used, -⟩ := Entities.nextLive?_some well search
      have refused : m.entities.get next field = Outcome.fail (.badField field) := by
        rw [Entities.get, Entities.locate_crossing used.inside (Nat.lt_succ_of_le outside)]
        rfl
      refine .inr ?_
      simp only [refused]
      rfl

end Reference

/-! ## Walking -/

def Run.given (native : Run Unit) (m : Machine) : Option EntityIndex :=
  match native m with
  | (.ok (), after) => (after.cell Slot.returnSlot).toOption.map Cell.entity
  | (.error _, _) => none

/-- Machines on which a function is called, one after the other: first with the world, then with what the
call before it gave. Whatever else happens in between, records and strings stay as they are. -/
structure Walk (native : Run Unit) (before : Nat → Machine) : Prop where
  sound : ∀ i, (before i).Sound
  entities : ∀ i, (before i).entities = (before 0).entities
  strings : ∀ i, (before i).strings = (before 0).strings
  starts : (before 0).argument 0 = .ok (.ofEntity .world)
  feeds : ∀ i, ∃ e, native.given (before i) = some e ∧ (before (i + 1)).argument 0 = .ok (.ofEntity e)

namespace Walk
variable {native : Run Unit} {before : Nat → Machine} {wanted : EntityIndex → Prop}

theorem given_of_gives {m : Machine} (sound : m.Sound) {e : EntityIndex}
    (gives : native m = (.ok (), m.giving e)) : native.given m = some e := by
  rw [given, gives]
  simp only [giving_cell sound, if_pos]
  rfl

theorem goes_round (walk : Walk native before)
    (step : ∀ i start, (before i).argument 0 = .ok (.ofEntity start) →
      ∃ e, native (before i) = (.ok (), (before i).giving e) ∧ (before 0).entities.Next wanted start e)
    {stops : List EntityIndex} (itinerary : (before 0).entities.Itinerary wanted stops) (i : Nat) :
    native.given (before i) = (stops ++ [.world])[i % (stops.length + 1)]? := by
  -- Each call is handed the record that stands before its answer in the ring of stops and world.
  have handed : ∃ start, (before i).argument 0 = .ok (.ofEntity start) ∧
      (EntityIndex.world :: stops)[i % (stops.length + 1)]? = some start := by
    induction i with
    | zero => exact ⟨.world, walk.starts, rfl⟩
    | succ i ih =>
        obtain ⟨start, argument, place⟩ := ih
        obtain ⟨e, gives, next⟩ := step i start argument
        have given := given_of_gives (walk.sound i) gives
        obtain ⟨e', given', feed⟩ := walk.feeds i
        cases given.symm.trans given'
        refine ⟨e, feed, ?_⟩
        have answer := itinerary.next place next
        have inside : i % (stops.length + 1) < stops.length + 1 := Nat.mod_lt _ (Nat.succ_pos _)
        rw [← Nat.mod_add_mod]
        rcases Nat.lt_or_eq_of_le (Nat.le_of_lt_succ inside) with among | last
        · rw [List.getElem?_append_left among] at answer
          rwa [Nat.mod_eq_of_lt (Nat.succ_lt_succ among), List.getElem?_cons_succ]
        · rw [last, List.getElem?_append_right (Nat.le_refl _), Nat.sub_self] at answer
          rw [last, Nat.mod_self]
          exact answer
  obtain ⟨start, argument, place⟩ := handed
  obtain ⟨e, gives, next⟩ := step i start argument
  rw [itinerary.next place next]
  exact given_of_gives (walk.sound i) gives

end Walk

/-! ## A host that hands back -/

def Machine.handingBack (m : Machine) : Machine :=
  { m with globals := m.globals.move { source := Slot.returnSlot, target := Slot.firstParameter, count := 1 } }

def Walk.rounds (native : Run Unit) (m : Machine) : Nat → Machine
  | 0 => m
  | i + 1 => (native (rounds native m i)).2.handingBack

namespace Machine
variable {m : Machine}

theorem Sound.handingBack (sound : m.Sound) : m.handingBack.Sound :=
  sound.of_shape (m.shape_of_globals (Segment.move_size _ _))

theorem handingBack_cell (sound : m.Sound) (offset : Nat) : m.handingBack.cell offset =
    if offset = Slot.firstParameter then m.cell Slot.returnSlot else m.cell offset := by
  have room : Slot.reserved ≤ m.globals.size := sound.segment ▸ m.program.valid.segment
  have admitted : m.globals.admits
      { source := Slot.returnSlot, target := Slot.firstParameter, count := 1 } = true :=
    decide_eq_true ⟨Nat.le_trans (by decide) room, Nat.le_trans (by decide) room⟩
  rw [cell, Machine.handingBack, Segment.move_get admitted]
  by_cases same : offset = Slot.firstParameter
  · subst same
    rw [if_pos ⟨Nat.le_refl _, Nat.lt_succ_self _⟩, if_pos rfl, Nat.sub_self]
    rfl
  · rw [if_neg same, if_neg fun covered => same (Nat.le_antisymm (Nat.le_of_lt_succ covered.2) covered.1)]
    rfl

theorem argument_eq {n : Nat} (few : n < Slot.maxParameters) (m : Machine) :
    m.argument n = m.cell (Slot.firstParameter + n * Slot.width) := by
  rw [argument, Slot.parameter?, if_pos few]
  rfl

theorem handedBack_argument (sound : m.Sound) (e : EntityIndex) {n : Nat} (few : n < Slot.maxParameters) :
    (m.giving e).handingBack.argument n = if n = 0 then .ok (.ofEntity e) else m.argument n := by
  rw [argument_eq few, argument_eq few, handingBack_cell (sound.giving e), giving_cell sound,
    giving_cell sound]
  cases n with
  | zero => rfl
  | succ n =>
      have place : Slot.firstParameter + (n + 1) * Slot.width = n * 3 + 7 := by
        change 4 + (n + 1) * 3 = n * 3 + 7
        omega
      have later : n * 3 + 7 ≠ Slot.firstParameter := by
        change n * 3 + 7 ≠ 4
        omega
      have above : n * 3 + 7 ≠ Slot.returnSlot := by
        change n * 3 + 7 ≠ 1
        omega
      rw [place, if_neg later, if_neg above, if_neg (Nat.succ_ne_zero n)]

end Machine

namespace Walk
variable {native : Run Unit} {m : Machine}

theorem rounds_walk {inv : Machine → Prop} (holds : inv m) (starts : m.argument 0 = .ok (.ofEntity .world))
    (gives : ∀ m, inv m → m.Sound ∧ ∃ e, native m = (.ok (), m.giving e))
    (onward : ∀ m e, inv m → inv (m.giving e).handingBack) :
    Walk native (rounds native m) ∧ ∀ i, inv (rounds native m i) := by
  have inv_rounds (i : Nat) : inv (rounds native m i) ∧
      (rounds native m i).entities = m.entities ∧ (rounds native m i).strings = m.strings := by
    induction i with
    | zero => exact ⟨holds, rfl, rfl⟩
    | succ i ih =>
        obtain ⟨-, e, given⟩ := gives _ ih.1
        rw [rounds, given]
        exact ⟨onward _ e ih.1, ih.2⟩
  refine ⟨⟨fun i => (gives _ (inv_rounds i).1).1, fun i => (inv_rounds i).2.1, fun i => (inv_rounds i).2.2,
    starts, fun i => ?_⟩, fun i => (inv_rounds i).1⟩
  obtain ⟨sound, e, given⟩ := gives _ (inv_rounds i).1
  refine ⟨e, given_of_gives sound given, ?_⟩
  rw [rounds, given]
  exact handedBack_argument sound e (by decide)

theorem nextEntity_walk (sound : m.Sound) (starts : m.argument 0 = .ok (.ofEntity .world)) :
    Walk Reference.nextEntity (rounds Reference.nextEntity m) := by
  have gives (m : Machine) (sound : m.Sound) :
      m.Sound ∧ ∃ e, Reference.nextEntity m = (.ok (), m.giving e) := by
    obtain ⟨start, handed⟩ := sound.entityArgument_ok
    obtain ⟨e, gives, -⟩ := Reference.nextEntity_gives sound handed
    exact ⟨sound, e, gives⟩
  exact (rounds_walk sound starts gives fun m e sound => (sound.giving e).handingBack).1

theorem find_walk {field : UInt32} {text : String} (asks : Searches field text m)
    (starts : m.argument 0 = .ok (.ofEntity .world)) :
    Walk Reference.find (rounds Reference.find m) ∧ ∀ i, Searches field text (rounds Reference.find m i) := by
  refine rounds_walk asks starts (fun m asks => ⟨asks.sound, ?_⟩) fun m e asks => ?_
  · obtain ⟨start, handed⟩ := asks.sound.entityArgument_ok
    obtain ⟨e, gives, -⟩ := Reference.find_gives asks.sound handed asks.offset asks.target asks.inside
    exact ⟨e, gives⟩
  · have kept (n : Nat) (few : n + 1 < Slot.maxParameters) :
        (m.giving e).handingBack.argument (n + 1) = m.argument (n + 1) :=
      handedBack_argument asks.sound e few
    refine ⟨(asks.sound.giving e).handingBack, (kept 0 (by decide)).trans asks.offset, ?_, asks.inside⟩
    rw [textArgument, kept 1 (by decide)]
    exact asks.target

end Walk

/-! ## Complete walks -/

namespace Reference

/-- A single call, wherever it starts, writes the next wanted record into the return slot and does nothing
else; only a search in a field that records do not have may fail, and then nothing changes. Handed back
what they gave, the calls of a walk give every record in use other than the world, and of those a
search gives the ones that carry the text, each once and in ascending order, and then the world. -/
theorem walks_meet_every_record :
    (∀ m : Machine, m.Sound → ∃ start field text, m.argument 0 = .ok (.ofEntity start) ∧
      m.argument 1 = .ok ⟨field⟩ ∧ m.textArgument 2 = .ok text ∧
      (∃ e, nextEntity m = (.ok (), m.giving e) ∧ m.entities.Next (fun _ => True) start e) ∧
      ((∃ e, find m = (.ok (), m.giving e) ∧ m.entities.Next (m.Carries field text) start e) ∨
        m.entities.layout.fieldCount ≤ field.toNat ∧ find m = (Outcome.fail (.badField field), m))) ∧
    (∀ before, Walk nextEntity before → ∃ stops, (before 0).entities.Itinerary (fun _ => True) stops ∧
      ∀ i, nextEntity.given (before i) = (stops ++ [.world])[i % (stops.length + 1)]?) ∧
    ∀ before field text, Walk find before → (∀ i, Searches field text (before i)) →
      ∃ stops, (before 0).entities.Itinerary ((before 0).Carries field text) stops ∧
        ∀ i, find.given (before i) = (stops ++ [.world])[i % (stops.length + 1)]? := by
  refine ⟨fun m sound => ?_, fun before walk => ?_, fun before field text walk asks => ?_⟩
  · obtain ⟨start, handed⟩ := sound.entityArgument_ok
    obtain ⟨second, offset⟩ := sound.argument_ok (n := 1) (by decide)
    obtain ⟨third, string⟩ := sound.argument_ok (n := 2) (by decide)
    have target : m.textArgument 2 = .ok (m.resolve third.string) := by
      rw [textArgument, string]
      rfl
    refine ⟨start, second.bits, _, handed, offset, target, nextEntity_gives sound handed, ?_⟩
    by_cases inside : second.bits.toNat < m.entities.layout.fieldCount
    · exact .inl (find_gives sound handed offset target inside)
    · have outside := Nat.le_of_not_lt inside
      exact (find_outside sound handed offset target outside).imp_right fun refused => ⟨outside, refused⟩
  · obtain ⟨stops, itinerary⟩ := Entities.exists_itinerary (walk.sound 0).entities fun _ => True
    refine ⟨stops, itinerary, walk.goes_round (fun i start handed => ?_) itinerary⟩
    rw [← walk.entities i]
    exact nextEntity_gives (walk.sound i) handed
  · obtain ⟨stops, itinerary⟩ :=
      Entities.exists_itinerary (walk.sound 0).entities ((before 0).Carries field text)
    refine ⟨stops, itinerary, walk.goes_round (fun i start handed => ?_) itinerary⟩
    have same : (before i).Carries field text = (before 0).Carries field text := by
      unfold Carries resolve
      rw [walk.entities i, walk.strings i]
    rw [← walk.entities i, ← same]
    exact find_gives (walk.sound i) handed (asks i).offset (asks i).target (asks i).inside

def patrolled : Machine :=
  let m := (Session.stocked Session.haunted 5 [⟨0⟩, ⟨0⟩, ⟨11⟩, ⟨0⟩, ⟨11⟩, ⟨0⟩, ⟨6⟩, ⟨0⟩, ⟨11⟩, ⟨0⟩]).machine
  { m with
    globals := m.globals.overwrite 10 #[⟨11⟩]
    entities := { m.entities with states := m.entities.states.setIfInBounds 2 { free := true } } }

theorem patrolled_sound : patrolled.Sound := by
  refine ⟨by decide +kernel, rfl, ?_, rfl⟩
  constructor <;> decide +kernel

theorem patrolled_asks : Searches 0 "think" patrolled where
  sound := patrolled_sound
  offset := by decide +kernel
  target := by
    have string : patrolled.argument 2 = .ok ⟨11⟩ := by decide +kernel
    rw [textArgument, string]
    exact congrArg Except.ok (StringPool.resolve_stored "\x00self\x00time\x00" "nextthink\x00" rfl rfl
      (by simp [StringPool.Plain]))
  inside := by decide +kernel

example : (List.range 5).map (fun i => nextEntity.given (Walk.rounds nextEntity patrolled i)) =
    [some ⟨1⟩, some ⟨3⟩, some ⟨4⟩, some .world, some ⟨1⟩] := by decide +kernel

theorem walks_meet_every_record_patrolled :
    Walk nextEntity (Walk.rounds nextEntity patrolled) ∧ Walk find (Walk.rounds find patrolled) ∧
      (∀ i, Searches 0 "think" (Walk.rounds find patrolled i)) ∧
      (∃ stops, patrolled.entities.Itinerary (fun _ => True) stops ∧
        ∀ i, nextEntity.given (Walk.rounds nextEntity patrolled i) =
          (stops ++ [.world])[i % (stops.length + 1)]?) ∧
      ∃ stops, patrolled.entities.Itinerary (patrolled.Carries 0 "think") stops ∧
        ∀ i, find.given (Walk.rounds find patrolled i) = (stops ++ [.world])[i % (stops.length + 1)]? := by
  have starts : patrolled.argument 0 = .ok (.ofEntity .world) := by decide +kernel
  have walk := Walk.nextEntity_walk patrolled_sound starts
  obtain ⟨search, asks⟩ := Walk.find_walk patrolled_asks starts
  obtain ⟨-, next, found⟩ := walks_meet_every_record
  exact ⟨walk, search, asks, next _ walk, found _ 0 "think" search asks⟩

end Reference
end EntityMachine
