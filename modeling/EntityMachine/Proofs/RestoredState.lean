import EntityMachine.Proofs.OrderedExecutions

/-!
Sessions on restored state. Restoring compares the number of globals and the shape of the records with the
program's, and nothing else, so a snapshot that was made by hand can leave a session without the records or
the slots that it reaches for. A snapshot in order leaves a session that serves its host like any other.
-/
namespace EntityMachine
open Machine Run

/-- The rest of what a machine reaches for, beside what restoring compares. -/
structure Snapshot.InOrder (s : Snapshot) : Prop where
  entities : s.entities.WellFormed
  reserved : s.entities.KeepsReserved
  strings : s.strings.InOrder

theorem StringPool.InOrder.sized {p : StringPool} (order : p.InOrder) (text : p.size < 2 ^ 32) :
    p.Sized where
  text := text
  ringBase := by
    intro base given
    have room := order.room
    rw [Option.mem_def.mp given] at room
    exact Nat.lt_of_lt_of_le (Nat.lt_add_of_pos_right (by decide)) room
  cursor := Nat.lt_trans order.cursor (by decide)

theorem Machine.create_inOrder (program : Program) (config : MachineConfig)
    (strings : program.image.strings.InOrder) : (create program config).InOrder where
  sound := create_sound program config
  reserved := Entities.create_keepsReserved _ _
  strings := strings

namespace Session

/-- The session runs the reference functions on a machine in order, and can give records back. -/
structure Ordered (s : Session) : Prop where
  machine : s.machine.InOrder
  clearings : Entities.HoldsClearings s.machine.program.layout
  natives : s.natives = .reference

theorem Ordered.snapshot {s : Session} (ordered : s.Ordered) : s.snapshot.InOrder :=
  ⟨ordered.machine.sound.entities, ordered.machine.reserved, ordered.machine.strings⟩

/-! ## What a host may ask -/

inductive Use where
  | allocate
  | free (e : EntityIndex)
  | read (e : EntityIndex) (field : UInt32)
  | write (e : EntityIndex) (field : UInt32) (cells : Array Cell)
  | temporary (text : String)
  | execute (id : FunctionId)
  | call (name : String)
  | think (e : EntityIndex)

def Use.play : Use → Play Unit
  | .allocate => onMachine do let _ ← allocateEntity
  | .free e => onMachine (freeEntity e)
  | .read e field => onMachine do let _ ← (← get).entities.get e field
  | .write e field cells => onMachine (writeFields e field cells)
  | .temporary text => onMachine do let _ ← Machine.temporary text
  | .execute id => Session.execute id
  | .call name => Session.call name
  | .think e => do let _ ← runThink e

theorem sure_onMachine {body : Run α} (sure : ∀ program count,
    Entities.HoldsClearings program.layout → Sure (Steady program count) body) :
    Sure Ordered (onMachine body) := by
  intro s ordered
  obtain ⟨stops, steady⟩ := sure _ _ ordered.clearings s.machine ordered.machine.steady
  refine ⟨stops, steady.order, ?_, ordered.natives⟩
  have same : ((onMachine body) s).2.machine.program = s.machine.program := steady.program
  rw [same]
  exact ordered.clearings

theorem execute_sure (id : FunctionId) : Sure Ordered (execute id) := by
  intro s ordered
  obtain ⟨stops, order, same⟩ := execute_inOrder ordered.machine ordered.clearings (nestingBound - 1) id
  unfold SureAt
  rw [execute_apply, ordered.natives]
  refine ⟨stops, order, ?_, rfl⟩
  change Entities.HoldsClearings (Machine.execute .reference nestingBound id s.machine).2.program.layout
  rw [show (Machine.execute .reference nestingBound id s.machine).2.program = _ from same]
  exact ordered.clearings

theorem setTime_sure (time : Single) : Sure Ordered (onMachine (Machine.setTime time)) :=
  sure_onMachine fun _ _ _ => writeSystem_sure (fun p _ => p.time_fits) _

theorem setSelf_sure (e : EntityIndex) : Sure Ordered (onMachine (Machine.setSelf e)) :=
  sure_onMachine fun _ _ _ => writeSystem_sure (fun p _ => p.self_fits) _

theorem setOther_sure (e : EntityIndex) : Sure Ordered (onMachine (Machine.setOther e)) :=
  sure_onMachine fun _ _ _ => writeSystem_sure (fun p _ => p.other_fits) _

theorem call_sure (name : String) : Sure Ordered (call name) := by
  refine sure_get fun s ordered => ?_
  refine sure_bind (setTime_sure _) (fun _ => sure_bind (setSelf_sure _) fun _ => ?_) s ordered
  refine sure_bind (setOther_sure _) fun _ t ordered => ?_
  unfold SureAt
  rw [executeNamed_apply]
  cases t.machine.program.image.findFunction? name with
  | some id => exact execute_sure id t ordered
  | none => exact ⟨trivial, ordered⟩

theorem runThink_sure (e : EntityIndex) : Sure Ordered (runThink e) := by
  refine sure_get fun s ordered => ?_
  dsimp only
  split
  · split
    · exact sure_pure _ s ordered
    · refine sureAt_read ordered ?_
      rw [Entities.single, Outcome.meets_map]
      refine (field_reports ordered.machine.steady e _).meets fun scheduled => sureAt_read ordered ?_
      refine (field_reports ordered.machine.steady e _).meets fun function => ?_
      refine sure_bind (sure_onMachine fun _ _ _ => writeFields_sure e _ _) (fun _ => ?_) s ordered
      refine sure_get fun t timed => ?_
      refine sure_bind (setTime_sure _) (fun _ => sure_bind (setSelf_sure _) fun _ => ?_) t timed
      refine sure_bind (setOther_sure _) fun _ => sure_bind (execute_sure _) fun _ => ?_
      exact sure_get fun u ended => sure_pure _ u ended
  · exact sure_pure _ s ordered

theorem use_sure (use : Use) : Sure Ordered use.play := by
  cases use with
  | allocate => exact sure_onMachine fun _ _ _ => sure_bind allocateEntity_sure fun _ => sure_pure ()
  | free e => exact sure_onMachine fun _ _ holds => freeEntity_sure holds e
  | read e field =>
      refine sure_onMachine fun _ _ _ => sure_get fun m steady => sureAt_read steady ?_
      exact (field_reports steady e field).meets fun _ => sure_pure () m steady
  | write e field cells => exact sure_onMachine fun _ _ _ => writeFields_sure e field cells
  | temporary text =>
      change Sure Ordered (onMachine do let _ ← Machine.temporary text)
      exact sure_onMachine fun _ _ _ => sure_bind (temporary_sure text) fun _ => sure_pure ()
  | execute id => exact execute_sure id
  | call name => exact call_sure name
  | think e => exact sure_bind (runThink_sure e) fun _ => sure_pure ()

theorem inTurn_sure {good : Session → Prop} {plays : List (Play α)} (each : ∀ play ∈ plays, Sure good play)
    {s : Session} (fine : good s) :
    (∀ answer ∈ (inTurn plays s).1, Outcome.Stops Stop.Reported answer) ∧ good (inTurn plays s).2 := by
  induction plays generalizing s with
  | nil => exact ⟨nofun, fine⟩
  | cons play rest ih =>
      obtain ⟨now, later⟩ := List.forall_mem_cons.mp each
      obtain ⟨stops, after⟩ := now s fine
      obtain ⟨answers, last⟩ := ih later after
      rw [inTurn_cons]
      exact ⟨List.forall_mem_cons.mpr ⟨stops, answers⟩, last⟩

theorem uses_sure (uses : List Use) {s : Session} (ordered : s.Ordered) :
    (∀ answer ∈ (inTurn (uses.map Use.play) s).1, Outcome.Stops Stop.Reported answer) ∧
      (inTurn (uses.map Use.play) s).2.Ordered :=
  inTurn_sure (List.forall_mem_map.mpr fun use _ => use_sure use) ordered

/-! ## Restoring -/

theorem restore_fits {snapshot : Snapshot} {session after : Session}
    (restored : restore snapshot session = (.ok (), after)) :
    snapshot.globals.size = session.machine.program.image.globals.size ∧
      snapshot.entities.layout = session.machine.program.layout ∧ after = setBack snapshot session := by
  have replaced := replaceState_apply snapshot.globals snapshot.entities snapshot.strings session.machine
  cases checked : session.machine.program.checkState snapshot.globals snapshot.entities with
  | error stop =>
      rw [checked] at replaced
      rw [restore, Run.bind_apply, onMachine, replaced] at restored
      cases restored
  | ok done =>
      obtain ⟨segment, layout⟩ := (checkState_iff _ _ _).mp checked
      rw [restore_setBack snapshot session segment.symm layout.symm] at restored
      exact ⟨segment, layout, (congrArg Prod.snd restored).symm⟩

/-- Restoring makes sure of the number of globals and of the shape of the records. Where the records and the
strings of the snapshot are in order as well, the session grants or refuses whatever it is asked afterwards,
and never faults, as long as freeing a record stays inside it. -/
theorem restored_in_order_serves {snapshot : Snapshot} {session after : Session}
    (natives : session.natives = .reference)
    (counters : session.machine.profile.size = session.machine.program.image.functions.size)
    (restored : restore snapshot session = (.ok (), after)) :
    after.machine.globals.size = after.machine.program.image.globals.size ∧
      after.machine.entities.layout = after.machine.program.layout ∧ after.snapshot = snapshot ∧
      (snapshot.InOrder → Entities.HoldsClearings snapshot.entities.layout → ∀ uses : List Use,
        (∀ answer ∈ (inTurn (uses.map Use.play) after).1, Outcome.Stops Stop.Reported answer) ∧
          (inTurn (uses.map Use.play) after).2.snapshot.InOrder) := by
  obtain ⟨segment, layout, rfl⟩ := restore_fits restored
  refine ⟨segment, layout, rfl, fun order holds uses => ?_⟩
  have sound : (setBack snapshot session).machine.Sound := ⟨segment, layout, order.entities, counters⟩
  have ordered : (setBack snapshot session).Ordered := by
    refine ⟨⟨sound, order.reserved, order.strings⟩, ?_, natives⟩
    rw [layout] at holds
    exact holds
  obtain ⟨answers, last⟩ := uses_sure uses ordered
  exact ⟨answers, last.snapshot⟩

def spoken : Snapshot := { drawingStart.snapshot with strings := Snapshot.ringed }

theorem restored_in_order_serves_spoken :
    let uses := [Use.temporary "spoken", .free ⟨1⟩, .allocate, .write ⟨1⟩ 0 #[⟨2⟩], .read ⟨1⟩ 0, .think ⟨1⟩,
      .execute ⟨2⟩, .call "none"]
    let after := (restore spoken drawingStart).2
    drawingStart.natives = .reference ∧
      drawingStart.machine.profile.size = drawingStart.machine.program.image.functions.size ∧
      restore spoken drawingStart = (.ok (), after) ∧ spoken.InOrder ∧
      Entities.HoldsClearings spoken.entities.layout ∧
      (∀ answer ∈ (inTurn (uses.map Use.play) after).1, Outcome.Stops Stop.Reported answer) ∧
        (inTurn (uses.map Use.play) after).2.snapshot.InOrder := by
  intro uses after
  have natives : drawingStart.natives = .reference := rfl
  have counters : drawingStart.machine.profile.size =
      drawingStart.machine.program.image.functions.size := rfl
  have restored : restore spoken drawingStart = (.ok (), after) :=
    restore_setBack spoken drawingStart rfl rfl
  have reserved : spoken.entities.KeepsReserved := by
    intro i inside
    obtain rfl : i = 0 := Nat.lt_one_iff.mp inside
    exact ⟨{}, by decide +kernel, rfl⟩
  have stored : StringPool.empty.temporary? "ok" = some (⟨1⟩, Snapshot.ringed) :=
    StringPool.temporary?_first rfl rfl (by decide) (by simp [StringPool.Plain]) (by decide)
  have room : 1 + StringPool.ringBytes ≤ StringPool.offsetLimit := by decide
  have strings : spoken.strings.InOrder := StringPool.Reachable.inOrder (.temporary .empty stored) room
  have order : spoken.InOrder := ⟨by constructor <;> decide +kernel, reserved, strings⟩
  have holds : Entities.HoldsClearings spoken.entities.layout := by
    unfold Entities.HoldsClearings
    decide +kernel
  have laws := restored_in_order_serves natives counters restored
  exact ⟨natives, counters, restored, order, holds, laws.2.2.2 order holds uses⟩

/-- State with room for four records of which only the world has cells. -/
def crafted : Snapshot where
  time := .zero
  frame := 0
  globals := ⟨drawing.image.globals⟩
  entities := { layout := drawing.layout, config := { capacity := 4 }, cells := #[⟨0⟩, ⟨0⟩], states := #[{}] }
  strings := .empty

/-- Bytes can be read and restored, and the next record that is handed out has no cells. -/
theorem crafted_faults : ∃ restored after, Snapshot.decode crafted.encode = .ok restored ∧
    restore restored drawingStart = (.ok (), after) ∧
      after.machine.entities.cells.size ≠
        after.machine.entities.capacity * after.machine.entities.layout.fieldCount ∧
      ((Use.play .allocate) after).1 = .error .fault := by
  have entities : crafted.entities.Sized := by constructor <;> decide +kernel
  have decoded := Snapshot.decode_encode (s := crafted) (by decide +kernel) entities
    (StringPool.empty_inOrder.sized (by decide +kernel))
  have restored := restore_setBack { crafted with strings := crafted.strings.reindex } drawingStart rfl rfl
  exact ⟨_, _, decoded, restored, by decide +kernel, by decide +kernel⟩

end Session
end EntityMachine
