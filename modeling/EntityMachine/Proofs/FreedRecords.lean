import EntityMachine.Proofs.MachineOrder

/-!
Taking a record back. Freeing clears some fields by their names, as so many cells each; programs are
checked by the types that they declare. Where the two agree, freeing stays inside the record.
-/
namespace EntityMachine
open Machine Run

def SystemFields.clearedWidths : List (String × Nat) :=
  [("model", 1), ("modelindex", 1), ("solid", 1), ("takedamage", 1), ("frame", 1), ("origin", 3),
    ("angles", 3)]

/-- The fields that freeing clears are declared as wide as it takes them for. -/
def Image.DeclaresCleared (image : Image) : Prop :=
  ∀ row ∈ SystemFields.clearedWidths, ∀ d, image.findField? row.1 = some d → d.type.width = row.2

/-- The cell belongs to a field that freeing a record clears. -/
def Image.Clears (image : Image) (k : Nat) : Prop :=
  ∃ row ∈ SystemFields.clearedWidths, ∃ d, image.findField? row.1 = some d ∧
    d.offset.toNat ≤ k ∧ k < d.offset.toNat + d.type.width

namespace Entities

/-! ## Cells of records -/

def zeroings (system : SystemFields) : List (UInt16 × Array Cell) :=
  system.clearedScalars.map (·, #[Cell.zero]) ++ system.clearedVectors.map (·, Array.replicate 3 Cell.zero)

def covers (clearings : List (UInt16 × Array Cell)) (k : Nat) : Bool :=
  clearings.any fun c => decide (c.1.toNat ≤ k ∧ k < c.1.toNat + c.2.size)

theorem foldl_overwrite_cellOf? (clearings : List (UInt16 × Array Cell)) {t : Entities}
    (well : t.WellFormed) {e : EntityIndex} (known : e.toNat < t.capacity) {value : Cell}
    (fits : ∀ c ∈ clearings, c.1.toNat + c.2.size ≤ t.layout.fieldCount)
    (plain : ∀ c ∈ clearings, ∀ i, i < c.2.size → c.2[i]? = some value) {j k : Nat}
    (low : k < t.layout.fieldCount) :
    (clearings.foldl (fun t (offset, cells) => t.overwrite (t.base e + offset.toNat) cells) t).cellOf? j k =
      if j = e.toNat ∧ covers clearings k = true then some value else t.cellOf? j k := by
  induction clearings generalizing t with
  | nil => simp [covers]
  | cons c rest ih =>
      obtain ⟨fit, fits⟩ := List.forall_mem_cons.mp fits
      obtain ⟨here, plain⟩ := List.forall_mem_cons.mp plain
      have first := overwrite_cellOf? well c.2 (j := j) known fit low
      have outline := t.overwrite_outline (t.base e + c.1.toNat) c.2
      rw [List.foldl_cons, ih (well.of_outline outline) known fits plain low]
      by_cases later : j = e.toNat ∧ covers rest k = true
      · rw [if_pos later, if_pos ⟨later.1, by simp [covers] at later ⊢; exact .inr later.2⟩]
      · rw [if_neg later]
        refine first.trans ?_
        by_cases now : j = e.toNat ∧ c.1.toNat ≤ k ∧ k < c.1.toNat + c.2.size
        · rw [if_pos now, if_pos ⟨now.1, by simp [covers, now.2]⟩]
          exact here _ (by omega)
        · rw [if_neg now, if_neg]
          rintro ⟨same, covered⟩
          simp only [covers, List.any_cons, Bool.or_eq_true, decide_eq_true_eq] at covered
          rcases covered with current | behind
          · exact now ⟨same, current⟩
          · exact later ⟨same, behind⟩

theorem zeroings_plain {system : SystemFields} {c : UInt16 × Array Cell} (member : c ∈ zeroings system) :
    ∀ i, i < c.2.size → c.2[i]? = some .zero := by
  intro i inside
  rcases List.mem_append.mp member with scalar | vector
  · obtain ⟨offset, -, rfl⟩ := List.mem_map.mp scalar
    obtain rfl : i = 0 := Nat.lt_one_iff.mp inside
    rfl
  · obtain ⟨offset, -, rfl⟩ := List.mem_map.mp vector
    rw [Array.size_replicate] at inside
    rw [Array.getElem?_replicate, if_pos inside]

def schedulings (system : SystemFields) : List (UInt16 × Array Cell) :=
  (system.nextthink.map (·, #[Cell.ofSingle .minusOne])).toList

theorem covers_schedulings (system : SystemFields) (k : Nat) :
    covers (schedulings system) k = true ↔ system.nextthink.map UInt16.toNat = some k := by
  cases placed : system.nextthink with
  | none => simp [covers, schedulings, placed]
  | some offset =>
      simp only [covers, schedulings, placed, Option.map_some, Option.toList_some, List.any_cons, List.any_nil,
        Bool.or_false, decide_eq_true_eq, List.size_toArray, List.length_singleton, Option.some.injEq]
      omega

theorem schedulings_plain {system : SystemFields} {c : UInt16 × Array Cell}
    (member : c ∈ schedulings system) : ∀ i, i < c.2.size → c.2[i]? = some (.ofSingle .minusOne) := by
  intro i inside
  obtain ⟨offset, -, rfl⟩ := Option.map_eq_some_iff.mp (Option.mem_toList.mp member)
  obtain rfl : i = 0 := Nat.lt_one_iff.mp inside
  rfl

/-- What freeing leaves in the cells of all records: it schedules the last, over what it zeroes. -/
theorem retire_cellOf? {t : Entities} (well : t.WellFormed) (holds : HoldsClearings t.layout)
    {e : EntityIndex} (known : e.toNat < t.capacity) (now : Single) {j k : Nat}
    (low : k < t.layout.fieldCount) :
    (t.retire e now).cellOf? j k =
      if j = e.toNat ∧ t.layout.system.nextthink.map UInt16.toNat = some k then
        some (.ofSingle .minusOne)
      else if j = e.toNat ∧ covers (zeroings t.layout.system) k = true then some .zero
      else t.cellOf? j k := by
  let zeroed := (zeroings t.layout.system).foldl
    (fun t (offset, cells) => t.overwrite (t.base e + offset.toNat) cells) t
  have outline : zeroed.outline = t.outline := cleared_outline e _ t
  have layout : zeroed.layout = t.layout := congrArg Outline.layout outline
  have there : e.toNat < zeroed.capacity := by
    rw [capacity, show zeroed.config = t.config from congrArg Outline.config outline]
    exact known
  have split : clearings t.layout.system = zeroings t.layout.system ++ schedulings t.layout.system := rfl
  have first := foldl_overwrite_cellOf? (zeroings t.layout.system) well (j := j) known
    (fun c member => holds c (split ▸ List.mem_append_left _ member)) (fun c => zeroings_plain) low
  have last := foldl_overwrite_cellOf? (schedulings t.layout.system) (well.of_outline outline) (j := j) there
    (fun c member => layout ▸ holds c (split ▸ List.mem_append_right _ member)) (fun c => schedulings_plain)
    (layout ▸ low)
  have cells : (t.retire e now).cellOf? j k = ((schedulings t.layout.system).foldl
      (fun t (offset, cells) => t.overwrite (t.base e + offset.toNat) cells) zeroed).cellOf? j k := by
    unfold retire
    rw [split, List.foldl_append]
    rfl
  rw [cells, last, first]
  simp only [covers_schedulings]

/-! ## The freed record -/

/-- A record of the program was taken back at a time, and nothing else was touched. -/
structure Freed (image : Image) (t : Entities) (e : EntityIndex) (now : Single) (t' : Entities) : Prop where
  layout : t'.layout = t.layout
  config : t'.config = t.config
  size : t'.size = t.size
  state : t'.states[e.toNat]? = some { free := true, freeTime := now, linked := false }
  states : ∀ j, j ≠ e.toNat → t'.states[j]? = t.states[j]?
  scheduled : ∀ d, image.findField? "nextthink" = some d →
    t'.cellOf? e.toNat d.offset.toNat = some (.ofSingle .minusOne)
  zeroed : ∀ k, image.Clears k → (∀ d, image.findField? "nextthink" = some d → d.offset.toNat ≠ k) →
    t'.cellOf? e.toNat k = some .zero
  kept : ∀ k, k < t.layout.fieldCount → ¬ image.Clears k →
    (∀ d, image.findField? "nextthink" = some d → d.offset.toNat ≠ k) →
      t'.cellOf? e.toNat k = t.cellOf? e.toNat k
  cells : ∀ j k, j ≠ e.toNat → k < t.layout.fieldCount → t'.cellOf? j k = t.cellOf? j k

end Entities

theorem zeroings_resolve (lookup : String → Option UInt16) (c : UInt16 × Array Cell) :
    c ∈ Entities.zeroings (.resolve lookup) ↔ ∃ row ∈ SystemFields.clearedWidths, ∃ offset,
      lookup row.1 = some offset ∧ c = (offset, Array.replicate row.2 .zero) := by
  obtain ⟨offset, cells⟩ := c
  simp [Entities.zeroings, SystemFields.resolve, SystemFields.clearedScalars, SystemFields.clearedVectors,
    SystemFields.clearedWidths]
  simp only [@eq_comm _ (some offset), @eq_comm _ _ cells, or_and_right, or_assoc]

namespace Program
variable {p : Program}

theorem mem_zeroings (declared : p.image.DeclaresCleared) (c : UInt16 × Array Cell) :
    c ∈ Entities.zeroings p.layout.system ↔ ∃ row ∈ SystemFields.clearedWidths, ∃ d,
      p.image.findField? row.1 = some d ∧ c = (d.offset, Array.replicate d.type.width .zero) := by
  have system : p.layout.system = .resolve fun name => (p.image.findField? name).map (·.offset) := p.fields_eq
  rw [system, zeroings_resolve]
  constructor
  · rintro ⟨row, listed, offset, found, rfl⟩
    obtain ⟨d, named, rfl⟩ := Option.map_eq_some_iff.mp found
    exact ⟨row, listed, d, named, by rw [declared row listed d named]⟩
  · rintro ⟨row, listed, d, named, rfl⟩
    exact ⟨row, listed, d.offset, by rw [named]; rfl, by rw [declared row listed d named]⟩

theorem covers_iff (declared : p.image.DeclaresCleared) (k : Nat) :
    Entities.covers (Entities.zeroings p.layout.system) k = true ↔ p.image.Clears k := by
  simp only [Entities.covers, List.any_eq_true, decide_eq_true_eq, mem_zeroings declared]
  constructor
  · rintro ⟨c, ⟨row, listed, d, named, rfl⟩, covered⟩
    rw [Array.size_replicate] at covered
    exact ⟨row, listed, d, named, covered⟩
  · rintro ⟨row, listed, d, named, covered⟩
    refine ⟨_, ⟨row, listed, d, named, rfl⟩, ?_⟩
    rw [Array.size_replicate]
    exact covered

theorem scheduled_iff (p : Program) (k : Nat) : p.layout.system.nextthink.map UInt16.toNat = some k ↔
    ∃ d, p.image.findField? "nextthink" = some d ∧ d.offset.toNat = k := by
  have placed : p.layout.system.nextthink = (p.image.findField? "nextthink").map (·.offset) :=
    congrArg SystemFields.nextthink p.fields_eq
  rw [placed, Option.map_map, Option.map_eq_some_iff]
  rfl

theorem holds_clearings (declared : p.image.DeclaresCleared) : Entities.HoldsClearings p.layout := by
  intro c member
  rcases List.mem_append.mp member with zeroing | scheduling
  · obtain ⟨row, listed, d, named, rfl⟩ := (mem_zeroings declared c).mp zeroing
    have fits := p.valid.fields d (Array.mem_of_find?_eq_some named)
    rw [Array.size_replicate]
    exact fits
  · obtain ⟨offset, placed, rfl⟩ := Option.map_eq_some_iff.mp (Option.mem_toList.mp scheduling)
    obtain ⟨d, named, same⟩ := (p.scheduled_iff offset.toNat).mp (congrArg (Option.map _) placed)
    have fits := Image.findField?_fits p.valid (congrArg (Option.map (·.offset)) named)
    rw [same] at fits
    exact fits

theorem retire_freed (declared : p.image.DeclaresCleared) {t : Entities} (well : t.WellFormed)
    (layout : t.layout = p.layout) {e : EntityIndex} (known : e.toNat < t.size) (now : Single) :
    t.Freed p.image e now (t.retire e now) := by
  have holds : Entities.HoldsClearings t.layout := by
    rw [layout]
    exact holds_clearings declared
  have outline := t.retire_outline e now
  have states (j : Nat) : (t.retire e now).states[j]? =
      (t.states.setIfInBounds e.toNat { free := true, freeTime := now, linked := false })[j]? :=
    congrArg (fun o : Entities.Outline => o.states[j]?) outline
  have cells (j k : Nat) (low : k < t.layout.fieldCount) :=
    Entities.retire_cellOf? well holds (Nat.lt_of_lt_of_le known well.room) now (j := j) low
  rw [layout] at cells
  have unscheduled {j k : Nat} (apart : ∀ d, p.image.findField? "nextthink" = some d → d.offset.toNat ≠ k) :
      ¬ (j = e.toNat ∧ p.layout.system.nextthink.map UInt16.toNat = some k) := by
    rintro ⟨-, scheduled⟩
    obtain ⟨d, named, same⟩ := (p.scheduled_iff k).mp scheduled
    exact apart d named same
  constructor
  case layout => exact congrArg Entities.Outline.layout outline
  case config => exact congrArg Entities.Outline.config outline
  case size => exact t.retire_size e now
  case state => rw [states, Array.getElem?_setIfInBounds_self_of_lt known]
  case states =>
    intro j other
    rw [states, Array.getElem?_setIfInBounds_ne (Ne.symm other)]
  case scheduled =>
    intro d named
    have low := Image.findField?_fits p.valid (congrArg (Option.map (·.offset)) named)
    rw [cells _ _ low, if_pos ⟨rfl, (p.scheduled_iff _).mpr ⟨d, named, rfl⟩⟩]
  case zeroed =>
    intro k clears apart
    have low : k < p.layout.fieldCount := by
      obtain ⟨row, -, d, named, -, before⟩ := clears
      exact Nat.lt_of_lt_of_le before (p.valid.fields d (Array.mem_of_find?_eq_some named))
    rw [cells _ _ low, if_neg (unscheduled apart), if_pos ⟨rfl, (covers_iff declared k).mpr clears⟩]
  case kept =>
    intro k low clears apart
    rw [layout] at low
    rw [cells _ _ low, if_neg (unscheduled apart), if_neg fun both => clears ((covers_iff declared k).mp both.2)]
  case cells =>
    intro j k other low
    rw [layout] at low
    rw [cells j k low, if_neg fun both => other both.1, if_neg fun both => other both.1]

/-- Of a program whose fields are declared as wide as freeing takes them for, a record that is in the table
and not reserved can be taken back at any time, and taking it back touches that record alone. The spatial
index is told once. -/
theorem free_touches_freed_record (declared : p.image.DeclaresCleared) {config : EntityConfig}
    {t : Entities} {held : List Nat} (history : Entities.History p.layout config t held)
    {e : EntityIndex} (above : t.config.reserved ≤ e.toNat) (known : e.toNat < t.size) (now : Single) :
    ∃ t', t.free e now = .ok t' ∧ t.Freed p.image e now t' ∧
      ∀ m : Machine, m.entities = t → m.time = .ok now →
        freeEntity e m = (.ok (), { m with unlinked := m.unlinked.push e, entities := t' }) := by
  obtain ⟨owned, since⟩ := history.owned
  have well := owned.wellFormed
  have layout : t.layout = p.layout := since.layout
  have checked : t.checkFreeable e = .ok () := by
    rw [Entities.checkFreeable, if_neg (by omega), if_neg (by omega)]
  have cleared : t.hasClearings e = true := by
    refine well.hasClearings ?_ checked
    rw [layout]
    exact holds_clearings declared
  refine ⟨t.retire e now, ?_, retire_freed declared well layout known now, fun m same clock => ?_⟩
  · rw [Entities.free, checked, Outcome.ok_bind, Entities.release, if_pos cleared]
  · subst same
    rw [freeEntity_apply, clock, Outcome.ok_bind, checked, Outcome.ok_bind]
    simp only [cleared]
    rfl

def recordImage (names : String) (fields : Array Definition) (width : Nat) : Image where
  statements := #[⟨0, 0, 0, 0⟩]
  functions := #[{}]
  globals := Array.replicate 28 ⟨0⟩
  strings := { StringPool.empty with data := names }
  fieldDefs := fields
  entityFields := width

def bodiedImage : Image :=
  recordImage "\x00origin\x00nextthink\x00" #[⟨.vector, 0, ⟨1⟩, false⟩, ⟨.float, 3, ⟨8⟩, false⟩] 5

theorem bodiedImage_found (name : String) : bodiedImage.findField? name =
    if "origin" = name then some ⟨.vector, 0, ⟨1⟩, false⟩
    else if "nextthink" = name then some ⟨.float, 3, ⟨8⟩, false⟩ else none := by
  have origin : bodiedImage.strings.resolve ⟨1⟩ = "origin" :=
    StringPool.resolve_stored "\x00" "nextthink\x00" rfl rfl (by simp [StringPool.Plain])
  have nextthink : bodiedImage.strings.resolve ⟨8⟩ = "nextthink" :=
    StringPool.resolve_stored "\x00origin\x00" "" rfl rfl (by simp [StringPool.Plain])
  have defs : bodiedImage.fieldDefs = #[⟨.vector, 0, ⟨1⟩, false⟩, ⟨.float, 3, ⟨8⟩, false⟩] := rfl
  by_cases first : "origin" = name
  · simp [Image.findField?, Image.definitionName, defs, origin, first]
  · by_cases second : "nextthink" = name
    · simp [Image.findField?, Image.definitionName, defs, origin, nextthink, first, second]
    · simp [Image.findField?, Image.definitionName, defs, origin, nextthink, first, second]

def bodied : Program where
  image := bodiedImage
  globals := {}
  fields := { origin := some 0, nextthink := some 3 }
  sound := by decide +kernel
  globals_eq := show _ = Image.systemGlobals _ from rfl
  fields_eq := by simp [Image.systemFields, SystemFields.resolve, bodiedImage_found]

theorem bodied_declares : bodied.image.DeclaresCleared := by
  intro row listed d named
  rw [show bodied.image.findField? row.1 = _ from bodiedImage_found row.1] at named
  simp only [SystemFields.clearedWidths, List.mem_cons, List.not_mem_nil, or_false] at listed
  rcases listed with rfl | rfl | rfl | rfl | rfl | rfl | rfl
  all_goals simp at named
  subst named
  rfl

theorem free_touches_freed_record_bodied :
    ∃ t held t', bodied.image.DeclaresCleared ∧ Entities.History bodied.layout { capacity := 3 } t held ∧
      t.config.reserved ≤ 2 ∧ 2 < t.size ∧ t.free ⟨2⟩ .zero = .ok t' ∧
      t.Freed bodied.image ⟨2⟩ .zero t' ∧ t'.cellOf? 2 4 = some ⟨7⟩ := by
  have fresh : Entities.History bodied.layout { capacity := 3 } _ [] := .created
  have allocated := (fresh.asked (.allocate .zero) (by decide)).asked (.allocate .zero) (by decide)
  have stocked := allocated.asked (.fillRecord ⟨2⟩ ⟨7⟩) (by decide)
  obtain ⟨t', freed, touched, -⟩ := free_touches_freed_record (e := ⟨2⟩) bodied_declares stocked
    (by decide) (by decide) .zero
  refine ⟨_, _, t', bodied_declares, stocked, by decide, by decide, freed, touched, ?_⟩
  cases freed
  rfl

/-- The origin is declared as a single cell at the end of a record. -/
def narrowImage : Image := recordImage "\x00origin\x00" #[⟨.float, 1, ⟨1⟩, false⟩] 2

theorem narrowImage_fields : narrowImage.systemFields = { origin := some 1 } := by
  have origin : narrowImage.strings.resolve ⟨1⟩ = "origin" :=
    StringPool.resolve_stored "\x00" "" rfl rfl (by simp [StringPool.Plain])
  have defs : narrowImage.fieldDefs = #[⟨.float, 1, ⟨1⟩, false⟩] := rfl
  simp [Image.systemFields, SystemFields.resolve, Image.findField?, Image.definitionName, defs, origin]

def narrow : Program where
  image := narrowImage
  globals := {}
  fields := { origin := some 1 }
  sound := by decide +kernel
  globals_eq := show _ = Image.systemGlobals _ from rfl
  fields_eq := narrowImage_fields.symm

/-- Freeing a record can zero cells of the next one, and fault where there is none. -/
theorem free_reaches_next_record :
    ∃ t held t', Entities.History narrow.layout { capacity := 3 } t held ∧ t.free ⟨1⟩ .zero = .ok t' ∧
      t.cellOf? 2 0 = some ⟨7⟩ ∧ t'.cellOf? 2 0 = some .zero ∧ t'.free ⟨2⟩ .zero = .error .fault := by
  have fresh : Entities.History narrow.layout { capacity := 3 } _ [] := .created
  have allocated := (fresh.asked (.allocate .zero) (by decide)).asked (.allocate .zero) (by decide)
  have stocked := allocated.asked (.set ⟨2⟩ 0 ⟨7⟩) (by decide)
  exact ⟨_, _, _, stocked, rfl, rfl, rfl, rfl⟩

end Program
end EntityMachine
