import EntityMachine.Proofs.Records
import Mathlib.Data.List.Basic

/-!
Ownership of records. A history notes which records were handed out and which were taken back. However
requests are mixed, and whatever the times that come with them, the records in use are the reserved ones
and those handed out and not taken back since, so no record has two owners.
-/
namespace EntityMachine.Entities

/-- The record exists and is not free. -/
def InUse (t : Entities) (i : Nat) : Prop := ∃ s, t.states[i]? = some s ∧ s.free = false

def Free (t : Entities) (i : Nat) : Prop := ∃ s, t.states[i]? = some s ∧ s.free = true

theorem InUse.inside {t : Entities} {i : Nat} (used : t.InUse i) : i < t.size := by
  obtain ⟨s, found, -⟩ := used
  exact (Array.getElem?_eq_some_iff.mp found).1

theorem Free.inside {t : Entities} {i : Nat} (free : t.Free i) : i < t.size := by
  obtain ⟨s, found, -⟩ := free
  exact (Array.getElem?_eq_some_iff.mp found).1

theorem Free.unused {t : Entities} {i : Nat} (free : t.Free i) : ¬ t.InUse i := by
  rintro ⟨s, found, used⟩
  obtain ⟨s', found', free⟩ := free
  rw [found] at found'
  cases found'
  rw [used] at free
  cases free

/-! ## Which record is handed out -/

theorem firstAmong_some {t : Entities} {condition : RecordState → Bool} {count start i : Nat}
    (found : t.firstAmong condition count start = some i) :
    start ≤ i ∧ ∃ s, t.states[i]? = some s ∧ condition s = true := by
  induction count generalizing start with
  | zero => cases found
  | succ count ih =>
      rw [firstAmong] at found
      split at found
      · rename_i here
        cases found
        exact ⟨Nat.le_refl _, (Option.any_eq_true _ _).mp here⟩
      · obtain ⟨later, holds⟩ := ih found
        exact ⟨Nat.le_of_succ_le later, holds⟩

theorem earlier_some {t : Entities} {best : Option Nat} {i j : Nat}
    (chosen : t.earlier best i = some j) : best = some j ∨ j = i ∧ t.Free i := by
  unfold earlier at chosen
  split at chosen
  · exact .inl chosen
  · rename_i s found
    cases free : s.free with
    | false =>
        simp only [free, Bool.not_false, ↓reduceIte] at chosen
        exact .inl chosen
    | true =>
        have new (same : some i = some j) : best = some j ∨ j = i ∧ t.Free i := by
          cases same
          exact .inr ⟨rfl, s, found, free⟩
        simp only [free, Bool.not_true, Bool.false_eq_true, ↓reduceIte] at chosen
        split at chosen
        · exact new chosen
        · split at chosen
          · exact new chosen
          · split at chosen
            · exact new chosen
            · exact .inl chosen

theorem foldl_earlier_some {t : Entities} (records : List Nat) (best : Option Nat) {j : Nat}
    (chosen : records.foldl t.earlier best = some j) : best = some j ∨ j ∈ records ∧ t.Free j := by
  -- Over the records, general over the best so far: either it stays or a free one takes its place.
  induction records generalizing best with
  | nil => exact .inl chosen
  | cons i rest ih =>
      rcases ih _ chosen with first | ⟨later, free⟩
      · rcases earlier_some first with kept | ⟨rfl, free⟩
        · exact .inl kept
        · exact .inr ⟨List.mem_cons_self, free⟩
      · exact .inr ⟨List.mem_cons_of_mem i later, free⟩

theorem candidate_some {t : Entities} {now : Single} {i : Nat} (chosen : t.candidate now = .ok i) :
    (t.config.reserved ≤ i ∧ t.Free i) ∨ (i = t.size ∧ t.size < t.capacity) := by
  unfold candidate at chosen
  split at chosen
  · rename_i found
    cases chosen
    obtain ⟨above, s, here, reusable⟩ := firstAmong_some found
    exact .inl ⟨above, s, here, (Bool.and_eq_true _ _ ▸ reusable).1⟩
  · split at chosen
    · rename_i room
      cases chosen
      exact .inr ⟨rfl, room⟩
    · split at chosen
      · rename_i found
        cases chosen
        rcases foldl_earlier_some _ none found with never | ⟨listed, free⟩
        · cases never
        · obtain ⟨n, drawn⟩ := List.mem_iff_getElem?.mp listed
          rw [List.getElem?_drop] at drawn
          obtain ⟨inside, same⟩ := List.getElem?_eq_some_iff.mp drawn
          rw [List.getElem_range] at same
          exact .inl ⟨same ▸ Nat.le_add_right _ _, free⟩
      · cases chosen

/-! ## Single operations -/

theorem take_state {t : Entities} {i : Nat} (inside : i ≤ t.size) (j : Nat) :
    (t.take i).states[j]? = if j = i then some {} else t.states[j]? := by
  simp only [take]
  by_cases known : i < t.states.size
  · rw [if_pos known, Array.getElem?_setIfInBounds]
    grind
  -- Otherwise the record is new, and it goes at the end.
  · have last : i = t.states.size := Nat.le_antisymm inside (Nat.le_of_not_lt known)
    rw [if_neg known, Array.getElem?_push]
    grind

theorem take_inUse {t : Entities} {i : Nat} (inside : i ≤ t.size) (j : Nat) :
    (t.take i).InUse j ↔ j = i ∨ t.InUse j := by
  unfold InUse
  rw [take_state inside]
  by_cases same : j = i
  · simp [same]
  · simp [same]

theorem take_size {t : Entities} {i : Nat} (inside : i ≤ t.size) :
    (t.take i).size = max t.size (i + 1) := by
  unfold size take
  have bound : i ≤ t.states.size := inside
  simp only
  split
  · rw [Array.size_setIfInBounds]
    omega
  · rw [Array.size_push]
    omega

theorem take_wellFormed {t : Entities} {i : Nat} (well : t.WellFormed) (inside : i ≤ t.size)
    (room : i < t.capacity) : (t.take i).WellFormed where
  reserved := well.reserved
  started := by
    rw [take_size inside]
    exact Nat.le_trans well.started (Nat.le_max_left _ _)
  room := by
    rw [take_size inside]
    exact Nat.max_le.mpr ⟨well.room, room⟩
  addressable := well.addressable
  arena := (Segment.storeAll_size _ _ _).trans well.arena

theorem cleared_outline (e : EntityIndex) (clearings : List (UInt16 × Array Cell)) (t : Entities) :
    (clearings.foldl (fun t (offset, cells) => t.overwrite (t.base e + offset.toNat) cells) t).outline =
      t.outline := by
  induction clearings generalizing t with
  | nil => rfl
  | cons first rest ih =>
      rw [List.foldl_cons, ih]
      exact t.overwrite_outline _ _

theorem retire_outline (t : Entities) (e : EntityIndex) (now : Single) :
    (t.retire e now).outline = { t.outline with
      states := t.states.setIfInBounds e.toNat { free := true, freeTime := now, linked := false } } := by
  have cleared := cleared_outline e (clearings t.layout.system) t
  unfold retire
  generalize List.foldl _ t (clearings t.layout.system) = t' at cleared ⊢
  have states : t'.states = t.states := congrArg Outline.states cleared
  have rest (states : Array RecordState) :
      Outline.mk t'.layout t'.config states t'.cells.size = { t.outline with states } :=
    congrArg (fun o : Outline => { o with states }) cleared
  rw [← states]
  exact rest _

theorem retire_size (t : Entities) (e : EntityIndex) (now : Single) : (t.retire e now).size = t.size :=
  (congrArg (fun o : Outline => o.states.size) (t.retire_outline e now)).trans Array.size_setIfInBounds

theorem retire_wellFormed {t : Entities} (well : t.WellFormed) (e : EntityIndex) (now : Single) :
    (t.retire e now).WellFormed :=
  well.of_sizes (congrArg Outline.layout (t.retire_outline e now))
    (congrArg Outline.config (t.retire_outline e now)) (t.retire_size e now)
    (congrArg Outline.arena (t.retire_outline e now))

theorem inUse_set {t t' : Entities} {i : Nat} {s : RecordState}
    (states : t'.states = t.states.setIfInBounds i s) (inside : i < t.size) (j : Nat) :
    t'.InUse j ↔ if j = i then s.free = false else t.InUse j := by
  have inside : i < t.states.size := inside
  unfold InUse
  rw [states, Array.getElem?_setIfInBounds]
  by_cases same : i = j
  · subst same
    rw [if_pos rfl, if_pos inside, if_pos rfl]
    simp
  · rw [if_neg same, if_neg (Ne.symm same)]

theorem retire_inUse {t : Entities} {e : EntityIndex} (now : Single) (inside : e.toNat < t.size)
    (j : Nat) : (t.retire e now).InUse j ↔ j ≠ e.toNat ∧ t.InUse j := by
  rw [inUse_set (congrArg Outline.states (t.retire_outline e now)) inside]
  by_cases same : j = e.toNat
  · simp [same]
  · simp [same]

theorem setLinked_ok {t t' : Entities} {e : EntityIndex} {linked : Bool}
    (done : t.setLinked e linked = .ok t') :
    ∃ s, t.states[e.toNat]? = some s ∧
      t' = { t with states := t.states.setIfInBounds e.toNat { s with linked } } := by
  unfold setLinked state state? at done
  cases found : t.states[e.toNat]? with
  | none =>
      rw [found] at done
      cases done
  | some s =>
      rw [found] at done
      cases done
      exact ⟨s, rfl, rfl⟩

theorem inUse_of_outline {t t' : Entities} (same : t'.outline = t.outline) (i : Nat) :
    t'.InUse i ↔ t.InUse i := by
  unfold InUse
  rw [show t'.states = t.states from congrArg Outline.states same]

/-! ## Histories -/

inductive Request where
  | allocate (now : Single)
  | free (e : EntityIndex) (now : Single)
  | setLinked (e : EntityIndex) (linked : Bool)
  | set (e : EntityIndex) (field : UInt32) (value : Cell)
  | set3 (e : EntityIndex) (field : UInt32) (x y z : Cell)
  | setSingle (e : EntityIndex) (field : UInt32) (value : Single)
  | write (address : FieldAddress) (value : Cell)
  | write3 (address : FieldAddress) (x y z : Cell)
  | fillRecord (e : EntityIndex) (value : Cell)
  /-- Give every cell of a record a value of its own. -/
  | editRecord (e : EntityIndex) (value : Nat → Cell)

def editRecord (t : Entities) (e : EntityIndex) (value : Nat → Cell) : Outcome Entities := do
  t.store (← t.locate e 0 0) (Array.ofFn fun i : Fin t.layout.fieldCount => value i)

def Request.answer (t : Entities) : Request → Outcome (Option EntityIndex × Entities)
  | .allocate now => (t.allocate now).map fun (e, t) => (some e, t)
  | .free e now => (t.free e now).map (none, ·)
  | .setLinked e linked => (t.setLinked e linked).map (none, ·)
  | .set e field value => (t.set e field value).map (none, ·)
  | .set3 e field x y z => (t.set3 e field #[x, y, z]).map (none, ·)
  | .setSingle e field value => (t.setSingle e field value).map (none, ·)
  | .write address value => (t.write address value).map (none, ·)
  | .write3 address x y z => (t.write3 address #[x, y, z]).map (none, ·)
  | .fillRecord e value => (t.fillRecord e value).map (none, ·)
  | .editRecord e value => (t.editRecord e value).map (none, ·)

/-- The answer beside the table afterwards; a request that is not granted gives no new table. -/
def Request.perform (request : Request) (t : Entities) : Outcome (Option EntityIndex) × Entities :=
  match request.answer t with
  | .ok (handed, t') => (.ok handed, t')
  | .error stop => (.error stop, t)

/-- The records that are handed out and not taken back, after an answer. -/
def Request.outstanding : Request → Outcome (Option EntityIndex) → List Nat → List Nat
  | .allocate _, .ok (some e), held => e.toNat :: held
  | .free e _, .ok _, held => held.filter (· ≠ e.toNat)
  | _, _, held => held

/-- A table after some requests, granted or refused, and the records handed out and not taken back. -/
inductive History (layout : Layout) (config : EntityConfig) : Entities → List Nat → Prop
  | created : History layout config (create layout config) []
  | asked {t : Entities} {held : List Nat} (request : Request) : History layout config t held →
      (request.perform t).1 ≠ .error .fault →
      History layout config (request.perform t).2 (request.outstanding (request.perform t).1 held)

/-- The records in use are the reserved ones and those held, and each is held once. -/
structure Owned (t : Entities) (held : List Nat) : Prop where
  wellFormed : t.WellFormed
  inUse : ∀ i, t.InUse i ↔ i < t.config.reserved ∨ i ∈ held
  above : ∀ i ∈ held, t.config.reserved ≤ i
  distinct : held.Nodup

theorem Owned.of_outline {t t' : Entities} {held : List Nat} (owned : t.Owned held)
    (same : t'.outline = t.outline) : t'.Owned held := by
  have config : t'.config = t.config := congrArg Outline.config same
  refine ⟨owned.wellFormed.of_outline same, fun i => ?_, ?_, owned.distinct⟩
  · rw [inUse_of_outline same, config, owned.inUse]
  · rw [config]
    exact owned.above

theorem stored_outline {t t' : Entities} {located : Outcome Nat} {values : Array Cell}
    (done : (located >>= fun position => t.store position values) = .ok t') :
    t'.outline = t.outline := by
  cases located with
  | error stop => cases done
  | ok position =>
      rw [Outcome.ok_bind, store] at done
      split at done
      · cases done
        exact t.overwrite_outline _ _
      · cases done

theorem index_toNat {t : Entities} {i : Nat} (well : t.WellFormed) (inside : i < t.capacity) :
    (EntityIndex.ofNat i).toNat = i := by
  have limit : EntityConfig.maxRecords = 0x10000 := rfl
  have bound := well.addressable
  have small : i < 2 ^ 32 := by omega
  exact UInt32.toNat_ofNat_of_lt small

theorem candidate_place {t : Entities} {now : Single} {i : Nat} (well : t.WellFormed)
    (chosen : t.candidate now = .ok i) :
    t.config.reserved ≤ i ∧ ¬ t.InUse i ∧ i ≤ t.size ∧ i < t.capacity := by
  rcases candidate_some chosen with ⟨above, free⟩ | ⟨rfl, room⟩
  · exact ⟨above, free.unused, Nat.le_of_lt free.inside, Nat.lt_of_lt_of_le free.inside well.room⟩
  · exact ⟨well.started, fun used => Nat.lt_irrefl _ used.inside, Nat.le_refl _, room⟩

theorem allocate_ok {t t' : Entities} {now : Single} {e : EntityIndex} (well : t.WellFormed)
    (done : t.allocate now = .ok (e, t')) :
    t' = t.take e.toNat ∧ t.config.reserved ≤ e.toNat ∧ ¬ t.InUse e.toNat ∧ e.toNat ≤ t.size ∧
      e.toNat < t.capacity := by
  unfold allocate at done
  cases chosen : t.candidate now with
  | error stop =>
      rw [chosen] at done
      cases done
  | ok i =>
      rw [chosen, Outcome.ok_bind] at done
      have place := candidate_place well chosen
      split at done
      · cases done
        rw [index_toNat well place.2.2.2]
        exact ⟨rfl, place⟩
      · cases done

theorem free_ok {t t' : Entities} {e : EntityIndex} {now : Single} (done : t.free e now = .ok t') :
    t' = t.retire e now ∧ t.config.reserved ≤ e.toNat ∧ e.toNat < t.size := by
  unfold free checkFreeable release at done
  by_cases reserved : e.toNat < t.config.reserved
  · rw [if_pos reserved] at done
    cases done
  · by_cases unknown : t.size ≤ e.toNat
    · rw [if_neg reserved, if_pos unknown] at done
      cases done
    · rw [if_neg reserved, if_neg unknown, Outcome.ok_bind] at done
      split at done
      · cases done
        exact ⟨rfl, Nat.le_of_not_lt reserved, Nat.lt_of_not_le unknown⟩
      · cases done

/-- What a request that is granted leaves as it is. -/
structure Extends (t t' : Entities) : Prop where
  layout : t'.layout = t.layout
  config : t'.config = t.config
  grown : t.size ≤ t'.size

theorem Extends.of_outline {t t' : Entities} (same : t'.outline = t.outline) : t.Extends t' where
  layout := congrArg Outline.layout same
  config := congrArg Outline.config same
  grown := Nat.le_of_eq (congrArg (fun o : Outline => o.states.size) same).symm

theorem Owned.allocated {t t' : Entities} {held : List Nat} {now : Single} {e : EntityIndex}
    (owned : t.Owned held) (done : t.allocate now = .ok (e, t')) :
    t'.Owned (e.toNat :: held) ∧ t.Extends t' := by
  obtain ⟨rfl, above, unused, inside, room⟩ := allocate_ok owned.wellFormed done
  refine ⟨⟨take_wellFormed owned.wellFormed inside room, fun i => ?_, fun i member => ?_, ?_⟩,
    ⟨rfl, rfl, ?_⟩⟩
  · rw [take_inUse inside, owned.inUse, List.mem_cons]
    exact or_left_comm
  · rcases List.mem_cons.mp member with rfl | before
    · exact above
    · exact owned.above i before
  · refine List.nodup_cons.mpr ⟨fun member => unused ?_, owned.distinct⟩
    exact (owned.inUse _).mpr (.inr member)
  · rw [take_size inside]
    exact Nat.le_max_left _ _

theorem Owned.freed {t t' : Entities} {held : List Nat} {e : EntityIndex} {now : Single}
    (owned : t.Owned held) (done : t.free e now = .ok t') :
    t'.Owned (held.filter (· ≠ e.toNat)) ∧ t.Extends t' := by
  obtain ⟨rfl, above, inside⟩ := free_ok done
  have outline := t.retire_outline e now
  have config : (t.retire e now).config = t.config := congrArg Outline.config outline
  have layout : (t.retire e now).layout = t.layout := congrArg Outline.layout outline
  refine ⟨⟨retire_wellFormed owned.wellFormed e now, fun i => ?_, fun i member => ?_,
    owned.distinct.filter _⟩, layout, config, Nat.le_of_eq (t.retire_size e now).symm⟩
  -- Freeing twice is no different: the record is in neither set any more.
  · rw [retire_inUse now inside, owned.inUse, config, List.mem_filter, decide_eq_true_eq]
    constructor
    · rintro ⟨other, reserved | member⟩
      · exact .inl reserved
      · exact .inr ⟨member, other⟩
    · rintro (reserved | ⟨member, other⟩)
      · exact ⟨by omega, .inl reserved⟩
      · exact ⟨other, .inr member⟩
  · rw [config]
    exact owned.above i (List.mem_filter.mp member).1

theorem Owned.linked {t t' : Entities} {held : List Nat} {e : EntityIndex} {linked : Bool}
    (owned : t.Owned held) (done : t.setLinked e linked = .ok t') : t'.Owned held ∧ t.Extends t' := by
  obtain ⟨s, found, rfl⟩ := setLinked_ok done
  obtain ⟨inside, here⟩ := Array.getElem?_eq_some_iff.mp found
  have size : (t.states.setIfInBounds e.toNat { s with linked }).size = t.states.size :=
    Array.size_setIfInBounds
  refine ⟨⟨owned.wellFormed.of_sizes rfl rfl size rfl, fun i => ?_, owned.above, owned.distinct⟩,
    rfl, rfl, Nat.le_of_eq size.symm⟩
  rw [inUse_set rfl inside, ← owned.inUse]
  by_cases same : i = e.toNat
  · subst same
    rw [if_pos rfl]
    simp [InUse, found]
  · rw [if_neg same]

theorem handed_some {t t' : Entities} {request : Request} {e : EntityIndex}
    (answered : request.answer t = .ok (some e, t')) : ∃ now, t.allocate now = .ok (e, t') := by
  cases request with
  | allocate now =>
      obtain ⟨given, done, same⟩ := (Outcome.map_ok_iff _ _ _).mp answered
      cases same
      exact ⟨now, done⟩
  | _ =>
      obtain ⟨after, -, other⟩ := (Outcome.map_ok_iff _ _ _).mp answered
      cases other

theorem Owned.granted {t t' : Entities} {held : List Nat} {request : Request}
    {handed : Option EntityIndex} (owned : t.Owned held)
    (answered : request.answer t = .ok (handed, t')) :
    t'.Owned (request.outstanding (.ok handed) held) ∧ t.Extends t' := by
  have written (same : t'.outline = t.outline) : t'.Owned held ∧ t.Extends t' :=
    ⟨owned.of_outline same, .of_outline same⟩
  -- Three requests change what the table knows of a record; the others write cells alone.
  cases request with
  | allocate now =>
      obtain ⟨given, done, same⟩ := (Outcome.map_ok_iff _ _ _).mp answered
      cases same
      exact owned.allocated done
  | free e now =>
      obtain ⟨after, done, same⟩ := (Outcome.map_ok_iff _ _ _).mp answered
      cases same
      exact owned.freed done
  | setLinked e linked =>
      obtain ⟨after, done, same⟩ := (Outcome.map_ok_iff _ _ _).mp answered
      cases same
      exact owned.linked done
  | set e field value | set3 e field x y z | setSingle e field value | write address value
  | write3 address x y z | fillRecord e value | editRecord e value =>
      obtain ⟨after, done, same⟩ := (Outcome.map_ok_iff _ _ _).mp answered
      cases same
      exact written (stored_outline done)

theorem Owned.asked {t : Entities} {held : List Nat} (request : Request) (owned : t.Owned held) :
    (request.perform t).2.Owned (request.outstanding (request.perform t).1 held) ∧
      t.Extends (request.perform t).2 := by
  unfold Request.perform
  cases answered : request.answer t with
  | ok given => exact owned.granted answered
  | error stop =>
      have same : request.outstanding (.error stop) held = held := by cases request <;> rfl
      simp only [same]
      exact ⟨owned, .of_outline rfl⟩

theorem create_owned (layout : Layout) (config : EntityConfig) : (create layout config).Owned [] where
  wellFormed := create_wellFormed layout config
  inUse := by
    intro i
    simp only [InUse, create, Array.getElem?_replicate, List.not_mem_nil, or_false]
    split
    · rename_i inside
      exact ⟨fun _ => inside, fun _ => ⟨_, rfl, rfl⟩⟩
    · rename_i outside
      constructor
      · rintro ⟨s, absent, _⟩
        cases absent
      · exact fun inside => absurd inside outside
  above := fun _ member => absurd member List.not_mem_nil
  distinct := List.nodup_nil

theorem History.owned {layout : Layout} {config : EntityConfig} {t : Entities} {held : List Nat}
    (history : History layout config t held) : t.Owned held ∧ (create layout config).Extends t := by
  -- Over the history; that the table only grew is carried along.
  induction history with
  | created => exact ⟨create_owned layout config, .of_outline rfl⟩
  | asked request before answered ih =>
      obtain ⟨owned, since⟩ := ih
      obtain ⟨owned, further⟩ := owned.asked request
      exact ⟨owned, further.layout.trans since.layout, further.config.trans since.config,
        Nat.le_trans since.grown further.grown⟩

/-- Every field that freeing a record clears lies in the record. -/
def HoldsClearings (layout : Layout) : Prop :=
  ∀ clearing ∈ clearings layout.system, clearing.1.toNat + clearing.2.size ≤ layout.fieldCount

section Answers
variable {t : Entities} (well : t.WellFormed)
include well

omit well in
theorem stored_answers {e : EntityIndex} {field : UInt32} {width : Nat} {values : Array Cell}
    (fits : ∀ position, t.locate e field width = .ok position →
      position + values.size ≤ t.cells.size) :
    Outcome.Stops (· ≠ .fault) (t.locate e field width >>= fun position => t.store position values) := by
  rw [Outcome.Stops, Outcome.meets_bind]
  cases located : t.locate e field width with
  | error stop =>
      unfold locate at located
      split at located
      · cases located
        nofun
      · split at located
        · cases located
          nofun
        · cases located
  | ok position =>
      have held : t.holds position values.size = true := decide_eq_true (fits position located)
      rw [Outcome.meets_ok, store, if_pos held]
      trivial

omit well in
theorem candidate_answers (now : Single) : Outcome.Stops (· ≠ .fault) (t.candidate now) := by
  unfold candidate
  repeat' split
  all_goals first
    | trivial
    | exact fun same => nomatch same

theorem allocate_answers (now : Single) : Outcome.Stops (· ≠ .fault) (t.allocate now) := by
  rw [allocate, Outcome.Stops, Outcome.meets_bind]
  have stops := candidate_answers (t := t) now
  cases chosen : t.candidate now with
  | error stop =>
      rw [chosen] at stops
      exact stops
  | ok i =>
      have room : i < t.capacity := by
        rcases candidate_some chosen with ⟨-, free⟩ | ⟨rfl, room⟩
        · exact Nat.lt_of_lt_of_le free.inside well.room
        · exact room
      have held : t.hasCells i = true := decide_eq_true (well.record_inside room)
      rw [Outcome.meets_ok, if_pos held]
      trivial

theorem free_answers (holds : HoldsClearings t.layout) (e : EntityIndex) (now : Single) :
    Outcome.Stops (· ≠ .fault) (t.free e now) := by
  unfold free checkFreeable release
  by_cases reserved : e.toNat < t.config.reserved
  · rw [if_pos reserved]
    exact fun same => nomatch same
  · by_cases unknown : t.size ≤ e.toNat
    · rw [if_neg reserved, if_pos unknown]
      exact fun same => nomatch same
    · have known := Nat.lt_of_lt_of_le (Nat.lt_of_not_le unknown) well.room
      have cleared : t.hasClearings e = true := by
        refine List.all_eq_true.mpr fun clearing member => decide_eq_true ?_
        have record := well.record_inside known
        have inside := holds clearing member
        have base : t.base e = e.toNat * t.layout.fieldCount := rfl
        omega
      rw [if_neg reserved, if_neg unknown, Outcome.ok_bind, if_pos cleared]
      trivial

theorem answer_stops (request : Request)
    (holds : ∀ e now, request = .free e now → HoldsClearings t.layout) :
    Outcome.Stops (· ≠ .fault) (request.answer t) := by
  have record (e : EntityIndex) (position : Nat) (found : t.locate e 0 0 = .ok position) :
      position + t.layout.fieldCount ≤ t.cells.size := by
    obtain ⟨known, -, rfl⟩ := (locate_iff t e 0 0 position).mp found
    exact well.record_inside (Nat.lt_of_lt_of_le known well.room)
  have cell (e : EntityIndex) (field : UInt32) (value : Cell) :
      Outcome.Stops (· ≠ .fault) (t.set e field value) :=
    stored_answers fun position found => well.located_inside found
  have cells (e : EntityIndex) (field : UInt32) (x y z : Cell) :
      Outcome.Stops (· ≠ .fault) (t.set3 e field #[x, y, z]) :=
    stored_answers fun position found => well.located_inside found
  cases request with
  | allocate now => exact (allocate_answers well now).map _
  | free e now => exact (free_answers well (holds e now rfl) e now).map _
  | setLinked e linked =>
      refine Outcome.Stops.map ?_ _
      unfold setLinked state
      cases t.state? e with
      | none => exact fun same => nomatch same
      | some s => trivial
  | set e field value => exact (cell e field value).map _
  | setSingle e field value => exact (cell e field (.ofSingle value)).map _
  | write address value => exact (cell address.entity address.field value).map _
  | set3 e field x y z => exact (cells e field x y z).map _
  | write3 address x y z => exact (cells address.entity address.field x y z).map _
  | fillRecord e value =>
      refine Outcome.Stops.map (stored_answers fun position found => ?_) _
      rw [Array.size_replicate]
      exact record e position found
  | editRecord e value =>
      refine Outcome.Stops.map (stored_answers fun position found => ?_) _
      rw [Array.size_ofFn]
      exact record e position found

end Answers

/-! ## Records in use, listed -/

def uses (t : Entities) (i : Nat) : Bool := t.states[i]?.any fun s => !s.free

theorem uses_iff (t : Entities) (i : Nat) : t.uses i = true ↔ t.InUse i := by
  simp [uses, InUse, Option.any_eq_true]

theorem live_indices {t : Entities} (well : t.WellFormed) :
    t.live.map EntityIndex.toNat = (List.range t.size).filter t.uses := by
  rw [live, List.map_filterMap, ← List.filterMap_eq_filter]
  apply List.filterMap_congr
  intro i member
  have named := index_toNat well (Nat.lt_of_lt_of_le (List.mem_range.mp member) well.room)
  cases found : t.states[i]? with
  | none => simp [uses, Option.guard, found]
  | some s => cases free : s.free <;> simp [uses, Option.guard, found, free, named]

theorem countP_range (l : List α) (p : α → Bool) :
    (List.range l.length).countP (fun i => l[i]?.any p) = l.countP p := by
  induction l with
  | nil => rfl
  | cons a rest ih =>
      rw [List.length_cons, List.range_succ_eq_map, List.countP_cons, List.countP_map, List.countP_cons,
        ← ih]
      rfl

theorem liveCount_eq {t : Entities} (well : t.WellFormed) : t.liveCount = t.live.length := by
  have listed := congrArg List.length (live_indices well)
  rw [List.length_map, ← List.countP_eq_length_filter] at listed
  rw [listed, liveCount, ← Array.countP_toList, ← countP_range]
  simp only [Array.getElem?_toList, Array.length_toList]
  rfl

/-- Whatever requests a table was given since it was created, and however they came out: the sizes keep
their order, the records in use are the reserved ones and those held, each held by one owner, and they
are listed and counted as such. The next request lets the table only grow, is handed only what is not in
use, and changes nothing if it is refused; and it is granted or refused, but for fields that freeing
would clear outside the record. -/
theorem records_have_one_owner {layout : Layout} {config : EntityConfig} {t : Entities}
    {held : List Nat} (history : History layout config t held) :
    (1 ≤ t.config.reserved ∧ t.config.reserved ≤ t.size ∧ t.size ≤ t.capacity ∧ t.capacity ≤ 65536) ∧
      t.cells.size = t.capacity * layout.fieldCount ∧ t.layout = layout ∧ t.config = config.clamped ∧
      (∀ i, t.InUse i ↔ i < t.config.reserved ∨ i ∈ held) ∧ held.Nodup ∧
      (∀ i, i ∈ t.live.map EntityIndex.toNat ↔ t.InUse i) ∧
      (t.live.map EntityIndex.toNat).Pairwise (· < ·) ∧ t.liveCount = t.live.length ∧
      ∀ request : Request, t.size ≤ (request.perform t).2.size ∧
        (∀ e, (request.perform t).1 = .ok (some e) →
          t.config.reserved ≤ e.toNat ∧ ¬ t.InUse e.toNat ∧ (request.perform t).2.InUse e.toNat) ∧
        (∀ e, (request.perform t).1 = .error (.error e) → (request.perform t).2 = t) ∧
        ((∀ e now, request = .free e now → HoldsClearings layout) →
          (request.perform t).1 ≠ .error .fault) := by
  obtain ⟨owned, since⟩ := history.owned
  have well := owned.wellFormed
  have indices := live_indices well
  have kept : t.layout = layout := since.layout
  refine ⟨⟨well.reserved, well.started, well.room, well.addressable⟩, kept ▸ well.arena, kept,
    since.config, owned.inUse, owned.distinct, fun i => ?_, ?_, liveCount_eq well,
    fun request => ⟨(owned.asked request).2.grown, fun e handed => ?_, fun e refused => ?_,
      fun holds => ?_⟩⟩
  · rw [indices, List.mem_filter, List.mem_range, uses_iff]
    exact ⟨fun used => used.2, fun used => ⟨used.inside, used⟩⟩
  · rw [indices]
    exact List.pairwise_lt_range.filter _
  · unfold Request.perform at handed ⊢
    cases answered : request.answer t with
    | ok given =>
        obtain ⟨entity, after⟩ := given
        rw [answered] at handed
        cases handed
        obtain ⟨now, done⟩ := handed_some answered
        obtain ⟨rfl, above, unused, inside, -⟩ := allocate_ok well done
        exact ⟨above, unused, (take_inUse inside e.toNat).mpr (.inl rfl)⟩
    | error stop =>
        rw [answered] at handed
        cases handed
  · unfold Request.perform at refused ⊢
    cases answered : request.answer t with
    | ok given =>
        rw [answered] at refused
        cases refused
    | error stop => rfl
  · have stops := answer_stops well request fun e now same => kept ▸ holds e now same
    unfold Request.perform
    cases answered : request.answer t with
    | ok given => nofun
    | error stop =>
        rw [answered] at stops
        rintro ⟨⟩
        exact stops rfl

/-- In a full table a record that was freed twice, at no time at all, is handed out once more; then there
is none left. -/
theorem records_have_one_owner_reused :
    ∃ t held, History { fieldCount := 2 } { capacity := 3 } t held ∧ held = [1, 2] ∧
      (∀ i, t.InUse i ↔ i < t.config.reserved ∨ i ∈ held) ∧ t.liveCount = t.live.length ∧
      ((Request.allocate .zero).perform t).2 = t := by
  have fresh : History { fieldCount := 2 } { capacity := 3 } _ [] := .created
  have full := (fresh.asked (.allocate .zero) (by decide)).asked (.allocate .zero) (by decide)
  have freed := (full.asked (.free ⟨1⟩ ⟨0x7fc00000⟩) (by decide)).asked
    (.free ⟨1⟩ ⟨0x7fc00000⟩) (by decide)
  have again := freed.asked (.allocate .one) (by decide)
  obtain ⟨-, -, -, -, used, -, -, -, counted, next⟩ := records_have_one_owner again
  exact ⟨_, _, again, by decide, used, counted, (next (.allocate .zero)).2.2.1 _ rfl⟩

end EntityMachine.Entities
