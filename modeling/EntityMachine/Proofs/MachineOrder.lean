import EntityMachine.Proofs.Continuation
import EntityMachine.Proofs.PoolOrder

/-!
Machines in order. Soundness says that the segment and the records have room for what programs ask of them;
a machine in order has its strings in order too, and its reserved records in use. The reference native
functions then find all that they reach for, so executions on a machine in order come back, and leave it in
order.
-/
namespace EntityMachine
open Machine Run

theorem Outcome.Stops.meets {allowed : Stop → Prop} {fine : α → Prop} {outcome : Outcome α}
    (stops : Stops allowed outcome) (any : ∀ a, fine a) : Meets allowed fine outcome :=
  stops.mono (fun _ stopped => stopped) fun a _ => any a

namespace Entities

/-- The records that are never handed out are not free. -/
def KeepsReserved (t : Entities) : Prop := ∀ i < t.config.reserved, t.InUse i

theorem create_keepsReserved (layout : Layout) (config : EntityConfig) :
    (create layout config).KeepsReserved := by
  intro i inside
  have listed : (create layout config).states[i]? = some {} := by
    rw [create, Array.getElem?_replicate]
    exact if_pos inside
  exact ⟨{}, listed, rfl⟩

theorem KeepsReserved.of_outline {t t' : Entities} (keeps : t.KeepsReserved)
    (same : t'.outline = t.outline) : t'.KeepsReserved := by
  have config : t'.config = t.config := congrArg Outline.config same
  have states : t'.states = t.states := congrArg Outline.states same
  intro i inside
  rw [config] at inside
  unfold InUse
  rw [states]
  exact keeps i inside

theorem KeepsReserved.take {t : Entities} (keeps : t.KeepsReserved) {i : Nat} (inside : i ≤ t.size) :
    (t.take i).KeepsReserved :=
  fun j reserved => (take_inUse inside j).mpr (.inr (keeps j reserved))

theorem KeepsReserved.retire {t : Entities} (keeps : t.KeepsReserved) {e : EntityIndex} (now : Single)
    (fine : t.checkFreeable e = .ok ()) : (t.retire e now).KeepsReserved := by
  unfold checkFreeable at fine
  split at fine
  · cases fine
  · rename_i above
    split at fine
    · cases fine
    · rename_i known
      have config : (t.retire e now).config = t.config := congrArg Outline.config (t.retire_outline e now)
      intro i reserved
      rw [config] at reserved
      refine (retire_inUse now (Nat.lt_of_not_le known) i).mpr ⟨?_, keeps i reserved⟩
      rintro rfl
      exact above reserved

theorem candidate_reports (t : Entities) (now : Single) : Outcome.Stops Stop.Reported (t.candidate now) := by
  unfold candidate
  repeat' split
  all_goals trivial

theorem checkFreeable_reports (t : Entities) (e : EntityIndex) :
    Outcome.Stops Stop.Reported (t.checkFreeable e) := by
  unfold checkFreeable
  repeat' split
  all_goals trivial

theorem locate_reports (t : Entities) (e : EntityIndex) (field : UInt32) (width : Nat) :
    Outcome.Stops Stop.Reported (t.locate e field width) := by
  unfold locate
  repeat' split
  all_goals trivial

theorem WellFormed.record_reports {t : Entities} (well : t.WellFormed) (e : EntityIndex) :
    Outcome.Stops Stop.Reported (t.record e) := by
  have reports := t.locate_reports e 0 0
  rw [Outcome.Stops, record, Outcome.meets_bind]
  cases located : t.locate e 0 0 with
  | error stop =>
      rw [located] at reports
      exact reports
  | ok first =>
      obtain ⟨known, -, rfl⟩ := (locate_iff t e 0 0 first).mp located
      have inside := well.record_inside (Nat.lt_of_lt_of_le known well.room)
      rw [Outcome.meets_ok, Segment.slice?, if_pos ⟨Nat.le_add_right _ _, inside⟩]
      trivial

theorem WellFormed.hasCells {t : Entities} (well : t.WellFormed) {now : Single} {i : Nat}
    (chosen : t.candidate now = .ok i) : t.hasCells i = true := by
  have answers := allocate_answers well now
  rw [allocate, chosen, Outcome.ok_bind] at answers
  cases held : t.hasCells i with
  | true => rfl
  | false =>
      rw [held] at answers
      exact absurd rfl answers

theorem WellFormed.hasClearings {t : Entities} (well : t.WellFormed) (holds : HoldsClearings t.layout)
    {e : EntityIndex} (fine : t.checkFreeable e = .ok ()) : t.hasClearings e = true := by
  have answers := free_answers well holds e .zero
  rw [free, fine, Outcome.ok_bind, release] at answers
  cases held : t.hasClearings e with
  | true => rfl
  | false =>
      rw [held] at answers
      exact absurd rfl answers

end Entities

namespace Machine

structure InOrder (m : Machine) : Prop where
  sound : m.Sound
  reserved : m.entities.KeepsReserved
  strings : m.strings.InOrder

theorem InOrder.of_durable {m m' : Machine} (order : m.InOrder) (same : m'.durable = m.durable) :
    m'.InOrder where
  sound := order.sound.of_shape (congrArg Durable.shape same)
  reserved := order.reserved.of_outline (congrArg Durable.entities same)
  strings := by
    have strings : m'.strings = m.strings := congrArg Durable.strings same
    rw [strings]
    exact order.strings

/-- A machine in order that runs this program, with this many arguments passed. -/
structure Steady (program : Program) (count : Nat) (m : Machine) : Prop where
  order : m.InOrder
  program : m.program = program
  passed : m.argumentCount = count

theorem InOrder.steady {m : Machine} (order : m.InOrder) : m.Steady m.program m.argumentCount :=
  ⟨order, rfl, rfl⟩

theorem Steady.meets {program : Program} {count : Nat} {m : Machine} (steady : m.Steady program count)
    {outcome : Outcome α} {fine : α → Prop} (meets : Outcome.Meets m.MayStop fine outcome) :
    Outcome.Meets Stop.Reported fine outcome :=
  meets.mono (fun _ => Policy.onlyErrors.allows steady.order.sound) fun _ found => found

end Machine

theorem Reference.steady_tolerates (program : Program) (count : Nat) :
    Tolerates (fun _ => True) (Steady program count) where
  globals := fun m _ same steady =>
    ⟨steady.order.of_durable (m.durable_of_globals same), steady.program, steady.passed⟩
  strings := by
    intro m text id strings stored steady
    obtain ⟨_, _, found, order⟩ := StringPool.temporary?_inOrder steady.order.strings text
    rw [stored] at found
    cases found
    exact ⟨⟨steady.order.sound.of_shape rfl, steady.order.reserved, order⟩, steady.program, steady.passed⟩
  lost := fun _ m steady =>
    ⟨⟨steady.order.sound.of_shape rfl, steady.order.reserved, StringPool.empty_inOrder⟩, steady.program,
      steady.passed⟩
  output := fun _ _ ⟨⟨sound, reserved, strings⟩, same, passed⟩ =>
    ⟨⟨sound.of_shape rfl, reserved, strings⟩, same, passed⟩
  random := fun _ _ ⟨⟨sound, reserved, strings⟩, same, passed⟩ =>
    ⟨⟨sound.of_shape rfl, reserved, strings⟩, same, passed⟩
  tracing := fun _ _ ⟨⟨sound, reserved, strings⟩, same, passed⟩ =>
    ⟨⟨sound.of_shape rfl, reserved, strings⟩, same, passed⟩
  taken := by
    rintro m now i chosen ⟨⟨sound, reserved, strings⟩, same, passed⟩
    obtain ⟨-, -, inside, -⟩ := Entities.candidate_place sound.entities chosen
    have kept := (sound_tolerates (fun _ => True) program).taken m now i chosen ⟨sound, same⟩
    exact ⟨⟨kept.1, reserved.take inside, strings⟩, same, passed⟩
  retired := by
    rintro m now e fine ⟨⟨sound, reserved, strings⟩, same, passed⟩
    have kept := (sound_tolerates (fun _ => True) program).retired m now e fine ⟨sound, same⟩
    exact ⟨⟨kept.1, reserved.retire now fine, strings⟩, same, passed⟩

/-! ## Computations that come back -/

/-- From this state the computation comes back, with success or with an error, to a state of the same kind. -/
def SureAt (good : σ → Prop) (s : σ) (body : ExceptT Stop (StateM σ) α) : Prop :=
  Outcome.Stops Stop.Reported (body s).1 ∧ good (body s).2

def Sure (good : σ → Prop) (body : ExceptT Stop (StateM σ) α) : Prop := ∀ s, good s → SureAt good s body

section Sure
variable {good : σ → Prop}

theorem sure_pure (a : α) : Sure good (pure a : ExceptT Stop (StateM σ) α) := fun _ fine => ⟨trivial, fine⟩

theorem sure_throw (e : Error) : Sure good (throw (.error e) : ExceptT Stop (StateM σ) α) :=
  fun _ fine => ⟨trivial, fine⟩

theorem sure_modify {change : σ → σ} (kept : ∀ s, good s → good (change s)) :
    Sure good (modify change : ExceptT Stop (StateM σ) PUnit) := fun s fine => ⟨trivial, kept s fine⟩

theorem sure_get {next : σ → ExceptT Stop (StateM σ) β} (rest : ∀ s, good s → SureAt good s (next s)) :
    Sure good (get >>= next) := rest

theorem sureAt_read {s : σ} (fine : good s) {outcome : Outcome α} {next : α → ExceptT Stop (StateM σ) β}
    (meets : Outcome.Meets Stop.Reported (fun a => SureAt good s (next a)) outcome) :
    SureAt good s (liftM outcome >>= next) := by
  cases outcome with
  | ok a => exact meets
  | error stop => exact ⟨meets, fine⟩

theorem sure_bind {body : ExceptT Stop (StateM σ) α} {next : α → ExceptT Stop (StateM σ) β}
    (first : Sure good body) (rest : ∀ a, Sure good (next a)) : Sure good (body >>= next) := by
  intro s fine
  obtain ⟨stops, after⟩ := first s fine
  unfold SureAt
  rw [bind_apply]
  cases outcome : body s with
  | mk result s' =>
      rw [outcome] at stops after
      cases result with
      | ok a => exact rest a s' after
      | error stop => exact ⟨stops, after⟩

theorem sure_mapM {body : α → ExceptT Stop (StateM σ) β} {items : List α}
    (each : ∀ a ∈ items, Sure good (body a)) : Sure good (items.mapM body) := by
  induction items with
  | nil =>
      rw [List.mapM_nil]
      exact sure_pure _
  | cons a rest ih =>
      obtain ⟨now, later⟩ := List.forall_mem_cons.mp each
      rw [List.mapM_cons]
      exact sure_bind now fun b => sure_bind (ih later) fun more => sure_pure _

end Sure

/-! ## Operations on steady machines -/

section Steady
variable {program : Program} {count : Nat}

theorem sure_of_safe {body : Run α} (safe : ∀ m : Machine, m.SafeAt body)
    (kept : body.Preserves (fun _ => True) (Steady program count)) : Sure (Steady program count) body :=
  fun m steady => ⟨steady.meets (safe m).1, kept m steady fun _ _ => trivial⟩

theorem write_sure {offset : Nat} {cells : Array Cell} (low : offset + cells.size ≤ Slot.reserved) :
    Sure (Steady program count) (write offset cells) := by
  refine sure_of_safe (fun m => write_safe fun sound => ?_)
    (Reference.write_preserves (Reference.steady_tolerates program count) offset cells)
  exact Nat.le_trans low (sound.segment ▸ m.program.valid.segment)

theorem giveCell_sure (c : Cell) : Sure (Steady program count) (giveCell c) :=
  write_sure (show 1 + 1 ≤ 28 by decide)

theorem temporary_sure (text : String) : Sure (Steady program count) (temporary text) := by
  intro m steady
  obtain ⟨id, strings, stored, -⟩ := StringPool.temporary?_inOrder steady.order.strings text
  unfold SureAt
  rw [temporary, changeStrings_apply, stored]
  exact ⟨trivial, (Reference.steady_tolerates program count).strings m text id strings stored steady⟩

theorem giveText_sure (text : String) : Sure (Steady program count) (giveText text) :=
  sure_bind (temporary_sure text) fun _ => giveCell_sure _

theorem allocateEntity_sure : Sure (Steady program count) allocateEntity := by
  intro m steady
  refine ⟨?_, Reference.allocateEntity_preserves (Reference.steady_tolerates program count) m steady
    fun _ _ => trivial⟩
  have chosen : Outcome.Meets Stop.Reported (fun i => m.entities.hasCells i = true)
      (do m.entities.candidate (← m.time) : Outcome Nat) := by
    rw [Outcome.meets_bind]
    refine steady.meets (m.time_meets fun now => ?_)
    have reports := m.entities.candidate_reports now
    cases chosen : m.entities.candidate now with
    | ok i => exact steady.order.sound.entities.hasCells chosen
    | error stop =>
        rw [chosen] at reports
        exact reports
  rw [allocateEntity_apply]
  cases found : (do m.entities.candidate (← m.time) : Outcome Nat) with
  | ok i =>
      rw [found] at chosen
      have held : m.entities.hasCells i = true := chosen
      simp only [held, ↓reduceIte]
      trivial
  | error stop =>
      rw [found] at chosen
      exact chosen

theorem freeEntity_sure (holds : Entities.HoldsClearings program.layout) (e : EntityIndex) :
    Sure (Steady program count) (freeEntity e) := by
  intro m steady
  refine ⟨?_, Reference.freeEntity_preserves (Reference.steady_tolerates program count) e m steady
    fun _ _ => trivial⟩
  have holds : Entities.HoldsClearings m.entities.layout := by
    rw [steady.order.sound.layout, steady.program]
    exact holds
  have checked : Outcome.Meets Stop.Reported (fun _ => m.entities.hasClearings e = true)
      (do let now ← m.time; m.entities.checkFreeable e; return now : Outcome Single) := by
    rw [Outcome.meets_bind]
    refine steady.meets (m.time_meets fun now => ?_)
    have reports := m.entities.checkFreeable_reports e
    cases fine : m.entities.checkFreeable e with
    | ok _ => exact steady.order.sound.entities.hasClearings holds fine
    | error stop =>
        rw [fine] at reports
        exact reports
  rw [freeEntity_apply]
  cases found : (do let now ← m.time; m.entities.checkFreeable e; return now : Outcome Single) with
  | ok now =>
      rw [found] at checked
      have held : m.entities.hasClearings e = true := checked
      simp only [held, ↓reduceIte]
      trivial
  | error stop =>
      rw [found] at checked
      exact checked

theorem print_sure (text : String) : Sure (Steady program count) (print text) :=
  sure_modify fun m steady => (Reference.steady_tolerates program count).output m _ steady

theorem writeFields_sure (e : EntityIndex) (field : UInt32) (cells : Array Cell) :
    Sure (Steady program count) (writeFields e field cells) := by
  refine sure_of_safe (fun m => m.writeFields_safe e field cells) fun m steady _ => ?_
  have durable : (writeFields e field cells).Leaves durable :=
    writeFields_leaves e field cells fun m _ => m.durable_of_entities
  have passed : (writeFields e field cells).Leaves argumentCount :=
    writeFields_leaves e field cells fun _ _ _ => rfl
  exact ⟨steady.order.of_durable (durable m), (congrArg Durable.program (durable m)).trans steady.program,
    (passed m).trans steady.passed⟩

theorem writeSystem_sure {place : SystemGlobals → Option UInt16}
    (fits : ∀ (p : Program) offset, place p.globals = some offset → offset.toNat < p.image.globals.size)
    (value : Cell) : Sure (Steady program count) (writeSystem place value) := by
  intro m steady
  have inside (offset : UInt16) (placed : place m.program.globals = some offset) :
      offset.toNat < m.globals.size := by
    rw [steady.order.sound.segment]
    exact fits m.program offset placed
  unfold SureAt
  rw [writeSystem_apply inside, systemWritten_eq]
  exact ⟨trivial,
    (Reference.steady_tolerates program count).globals m _ (m.systemWritten_size place value) steady⟩

/-! ## The catalogue -/

theorem argument_reports {m : Machine} (steady : m.Steady program count) {n : Nat}
    (few : n < Slot.maxParameters) {fine : Cell → Prop} (any : ∀ c, fine c) :
    Outcome.Meets Stop.Reported fine (m.argument n) := steady.meets (argument_meets m few any)

theorem entityText_reports {m : Machine} (steady : m.Steady program count) (e : EntityIndex) :
    Outcome.Stops Stop.Reported (Listing.entityText m.program.image m.strings m.entities e) := by
  rw [Outcome.Stops, Listing.entityText, Outcome.meets_bind, Entities.state]
  cases m.entities.state? e with
  | none => trivial
  | some s =>
      rw [Outcome.meets_ok]
      split
      · trivial
      · rw [Outcome.meets_bind]
        exact (steady.order.sound.entities.record_reports e).meets fun _ => trivial

theorem dump_sure (e : EntityIndex) : Sure (Steady program count) (Reference.dump e) := by
  refine sure_get fun m steady => ?_
  have reports := entityText_reports steady e
  cases told : Listing.entityText m.program.image m.strings m.entities e with
  | ok text => exact print_sure text m steady
  | error stop =>
      rw [told] at reports
      cases stop with
      | error failure => exact print_sure _ m steady
      | fault => exact reports.elim
      | nestedTooDeep => exact reports.elim

theorem printEntities_sure : Sure (Steady program count) Reference.printEntities := by
  refine sure_get fun m steady => sureAt_read steady ?_
  rw [Listing.entitiesText, Outcome.meets_bind]
  have each (records : List EntityIndex) : Outcome.Stops Stop.Reported
      (records.mapM (Listing.entityText m.program.image m.strings m.entities)) := by
    induction records with
    | nil => trivial
    | cons e rest ih =>
        rw [List.mapM_cons, Outcome.Stops, Outcome.meets_bind]
        refine (entityText_reports steady e).meets fun text => ?_
        rw [Outcome.meets_bind]
        exact ih.meets fun _ => trivial
  exact (each _).meets fun texts => print_sure _ m steady

theorem field_reports {m : Machine} (steady : m.Steady program count) (e : EntityIndex) (field : UInt32) :
    Outcome.Stops Stop.Reported (m.entities.get e field) := by
  have read : Outcome.Stops m.MayStop (m.entities.get e field) := by
    rw [Outcome.Stops, Entities.get, Outcome.meets_bind]
    exact m.locate_meets fun position inside => m.field_meets inside fun _ => trivial
  exact steady.meets read

theorem findFrom_reports {m : Machine} (steady : m.Steady program count) (field : UInt32)
    (text : String) (steps : Nat) (cursor : EntityIndex) :
    Outcome.Stops Stop.Reported (Reference.findFrom m field text steps cursor) := by
  induction steps generalizing cursor with
  | zero => trivial
  | succ steps ih =>
      rw [Reference.findFrom]
      split
      · trivial
      · rw [Outcome.Stops, Outcome.meets_bind]
        refine (field_reports steady _ field).meets fun c => ?_
        dsimp only
        split
        · trivial
        · exact ih _

section Arguments
variable (few : count ≤ Slot.maxParameters)
include few

theorem joinedArguments_sure : Sure (Steady program count) Reference.joinedArguments := by
  refine sure_get fun m steady => ?_
  have each : ∀ n ∈ List.range m.argumentCount,
      Sure (Steady program count) (liftM (m.textArgument n) : Run String) := by
    intro n member m' steady'
    have low : n < Slot.maxParameters :=
      Nat.lt_of_lt_of_le (List.mem_range.mp member) (steady.passed ▸ few)
    exact ⟨steady.meets (textArgument_meets m low fun _ => trivial), steady'⟩
  exact sure_bind (sure_mapM each) (fun texts => sure_pure _) m steady

theorem complain_sure (what : String) : Sure (Steady program count) (Reference.complain what) := by
  refine sure_bind (joinedArguments_sure few) fun message => sure_get fun m steady => ?_
  refine sure_bind (print_sure _) (fun _ m' steady' => ?_) m steady
  have self : Outcome.Stops Stop.Reported m.selfEntity := steady.meets (m.selfEntity_meets fun _ => trivial)
  refine sureAt_read steady' (self.meets fun e => ?_)
  exact sure_bind (dump_sure e) (fun _ => sure_pure _) m' steady'

variable (holds : Entities.HoldsClearings program.layout)
include holds

theorem objectError_sure : Sure (Steady program count) Reference.objectError := by
  refine sure_bind (complain_sure few _) fun (message, e) => ?_
  dsimp only
  split
  · exact sure_bind (freeEntity_sure holds e) fun _ => sure_throw _
  · exact sure_throw _

theorem catalogue_sure : ∀ row ∈ Reference.catalogue, Sure (Steady program count) row.2.2 := by
  have scalar (f : Single → Single) : Sure (Steady program count) (Reference.ofSingle f) :=
    sure_get fun m steady => sureAt_read steady <| by
      rw [singleArgument, Outcome.meets_map]
      exact argument_reports steady (by decide) fun c => giveCell_sure _ m steady
  have vector {give : Vec3 → Run Unit} (gives : ∀ v, Sure (Steady program count) (give v)) :
      Sure (Steady program count) (do give (← (← get).vectorArgument 0) : Run Unit) :=
    sure_get fun m steady => sureAt_read steady
      (steady.meets (vectorArgument_meets m (by decide) fun v => gives v m steady))
  have entity {go : EntityIndex → Run Unit} (goes : ∀ e, Sure (Steady program count) (go e)) :
      Sure (Steady program count) (do go (← (← get).argument 0).entity : Run Unit) :=
    sure_get fun m steady => sureAt_read steady
      (argument_reports steady (by decide) fun c => goes c.entity m steady)
  have sets (tracing : Bool) : Sure (Steady program count) (Reference.setTracing tracing) :=
    sure_modify fun m steady => (Reference.steady_tolerates program count).tracing m tracing steady
  have find : Sure (Steady program count) Reference.find := by
    refine sure_get fun m steady => sureAt_read steady (argument_reports steady (by decide) fun field => ?_)
    refine sureAt_read steady (steady.meets (textArgument_meets m (by decide) fun text => ?_))
    refine sureAt_read steady (argument_reports steady (by decide) fun start => ?_)
    refine sureAt_read steady ((findFrom_reports steady _ _ _ _).meets fun e => ?_)
    exact giveCell_sure _ m steady
  have draw : Sure (Steady program count) Reference.random := by
    refine sure_bind (fun m steady => ⟨trivial, ?_⟩) fun x => giveCell_sure _
    exact (Reference.steady_tolerates program count).random m _ steady
  have next : Sure (Steady program count) Reference.nextEntity :=
    sure_get fun m steady => sureAt_read steady
      (argument_reports steady (by decide) fun c => giveCell_sure _ m steady)
  have each : ∀ run ∈ Reference.catalogue.map (·.2.2), Sure (Steady program count) run := by
    simp only [Reference.catalogue, List.map_cons, List.map_nil, List.forall_mem_cons]
    refine ⟨draw, vector fun v => write_sure (show 1 + 3 ≤ 28 by decide),
      sure_bind (complain_sure few _) fun _ => sure_throw _, objectError_sure few holds,
      vector fun v => giveCell_sure _, vector fun v => giveCell_sure _,
      sure_bind allocateEntity_sure fun e => giveCell_sure _,
      entity fun e => freeEntity_sure holds e, find,
      sure_bind (joinedArguments_sure few) fun _ => sure_pure (), ?_,
      vector fun v => giveText_sure _, printEntities_sure, sets true, sets false,
      entity fun e => dump_sure e, scalar _, scalar _, scalar _, scalar _, next, by simp⟩
    refine sure_get fun m steady => sureAt_read steady ?_
    rw [singleArgument, Outcome.meets_map]
    exact argument_reports steady (by decide) fun c => giveText_sure _ m steady
  intro row member
  exact each _ (List.mem_map_of_mem member)

end Arguments
end Steady
end EntityMachine
