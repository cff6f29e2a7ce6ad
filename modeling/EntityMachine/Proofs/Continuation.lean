import EntityMachine.Proofs.Frames
import EntityMachine.Proofs.Observation
import EntityMachine.Proofs.Restoration

/-!
Sessions that go on from a snapshot. What calls and frames look at is in the snapshot, or they leave it as
it was, or they draw it from the random generator. So a restored session goes on as the first one did once
its generator is put back too.
-/
namespace EntityMachine
open Machine Run

/-- What snapshots leave out and operations that return leave as it was. -/
structure Standing where
  control : Control
  config : MachineConfig
  active : Bool
  profile : Nat

def Machine.standing (m : Machine) : Standing := ⟨m.control, m.config, m.active, m.profile.size⟩

/-! ## What stands -/

theorem Natives.reference_leaves {number : Nat} {f : Native}
    (known : Natives.reference.lookup number = .ok f) (reenter : FunctionId → Run Unit) :
    (f.run reenter).Leaves standing := by
  intro m
  have tolerates : Reference.Tolerates (fun _ => True) fun m' => m'.standing = m.standing :=
    { globals := fun _ _ _ same => same
      strings := fun _ _ _ _ _ same => same
      lost := fun _ _ same => same
      output := fun _ _ same => same
      random := fun _ _ same => same
      tracing := fun _ _ same => same
      taken := fun _ _ _ _ same => same
      retired := fun _ _ _ _ same => same }
  exact reference_preserves tolerates known reenter m rfl fun _ _ => trivial

theorem Natives.reference_restore : Natives.reference.Restore .any := by
  intro number f known c reenter _ m here _
  have kept := congrArg Standing.control (reference_leaves known reenter m)
  refine ⟨?_, fun _ => ⟨kept.trans here, trivial⟩⟩
  cases (f.run reenter m).1 <;> trivial

namespace Machine

theorem execute_standing (nesting : Nat) (id : FunctionId) (m : Machine)
    (returned : Returned (execute .reference nesting id m).1) :
    (execute .reference nesting id m).2.standing = m.standing := by
  have control := ((execute_back Natives.reference_restore trivial nesting id m trivial).2 returned).1.control
  -- Calls and returns do change the control on the way, so the rest is kept by an argument of its own.
  have preserve : Natives.reference.Preserve (fun _ => True) fun (rest : MachineConfig × Bool × Nat) d =>
      (d.config, d.active, d.profile) = rest := by
    intro number f reenter known _ rest m same _
    have kept := Natives.reference_leaves known reenter m
    exact (congrArg (fun s : Standing => (s.config, s.active, s.profile)) kept).trans same
  have rest := execute_preserves (fun _ => trivial) preserve nesting id _ m rfl fun _ _ => trivial
  obtain ⟨config, rest⟩ := Prod.mk.inj rest
  obtain ⟨active, profile⟩ := Prod.mk.inj rest
  exact Standing.mk.injEq .. ▸ ⟨control, config, active, profile⟩

end Machine

namespace Session

/-! ## Operations -/

/-- What a host asks for while it plays. -/
inductive Operation where
  | call (name : String)
  | runFrame (frametime : Single)

def Operation.answer : Operation → Play (Option Nat)
  | .call name => do
    Session.call name
    return none
  | .runFrame frametime => do return some (← Session.runFrame frametime)

/-- The answers to some operations. After an error the host goes on. -/
def answers : List Operation → Session → List (Outcome (Option Nat)) × Session
  | [], s => ([], s)
  | operation :: rest, s =>
    let (answer, s) := operation.answer s
    let (more, s) := answers rest s
    (answer :: more, s)

theorem answers_inTurn (operations : List Operation) (s : Session) :
    answers operations s = inTurn (operations.map Operation.answer) s := by
  induction operations generalizing s with
  | nil => rfl
  | cons operation rest ih =>
      rw [answers, List.map_cons, inTurn_cons, ← ih]
      rfl

section Likeness
variable {counts : Stop → Prop} {alike : Session → Session → Prop} (likeness : Likeness counts alike)
include likeness

theorem operation_agrees (operation : Operation) : Agrees counts alike operation.answer := by
  cases operation with
  | call name => exact agrees_bind (call_agrees likeness name) fun _ => agrees_pure _
  | runFrame frametime => exact agrees_bind (runFrame_agrees likeness frametime) fun _ => agrees_pure _

theorem answers_agree (operations : List Operation) {s t : Session} (same : alike s t)
    (quiet : ∀ answer ∈ (answers operations s).1, ∀ stop, answer = .error stop → counts stop) :
    (answers operations t).1 = (answers operations s).1 ∧
      alike (answers operations s).2 (answers operations t).2 := by
  have each : ∀ play ∈ operations.map Operation.answer, Agrees counts alike play :=
    List.forall_mem_map.mpr fun operation _ => operation_agrees likeness operation
  rw [answers_inTurn] at quiet
  rw [answers_inTurn, answers_inTurn]
  exact inTurn_agrees each same quiet

end Likeness

/-! ## Likenesses -/

/-- The sessions run the same, up to what their machines keep for their hosts. -/
structure Beside (start other : Log) (natives : Natives) (s t : Session) : Prop where
  machine : s.machine.Beside start other False t.machine
  first : s.natives = natives
  second : t.natives = natives
  time : t.time = s.time
  frame : t.frame = s.frame

theorem Beside.snapshot {start other : Log} {natives : Natives} {s t : Session}
    (beside : s.Beside start other natives t) : t.snapshot = s.snapshot := by
  have globals := beside.machine.same globals fun _ _ => rfl
  have entities := beside.machine.same entities fun _ _ => rfl
  have strings := beside.machine.same strings fun _ _ => rfl
  simp only [Session.snapshot, beside.time, beside.frame, globals, entities, strings]

theorem beside_likeness {natives : Natives} (blind : natives.Blind) (start other : Log) :
    Likeness (fun _ => True) (Beside start other natives) := by
  have same : Beside start other natives = Alike (Machine.Beside start other False) natives := by
    funext s t
    apply propext
    constructor
    · rintro ⟨machine, first, second, time, frame⟩
      exact ⟨machine, first, second, time, frame⟩
    · rintro ⟨machine, first, second, time, frame⟩
      exact ⟨machine, first, second, time, frame⟩
  rw [same]
  exact alike_likeness (logs_likeness start other False) (agrees_execute blind nestingBound)

structure Stands (standing : Standing) (s : Session) : Prop where
  machine : s.machine.standing = standing
  natives : s.natives = .reference

theorem stands_likeness (standing : Standing) :
    Likeness Stop.Reported fun s t => t = s ∧ s.Stands standing := by
  refine diagonal_likeness (fun s time stands => ⟨stands.machine, stands.natives⟩)
    (fun s frame stands => ⟨stands.machine, stands.natives⟩) (fun place value s stands => ?_)
    (fun e field cells s stands => ?_) fun id s stands returned => ?_
  · have leaves : (writeSystem place value).Leaves Machine.standing :=
      writeSystem_leaves place value fun _ _ _ => rfl
    exact ⟨(leaves s.machine).trans stands.machine, stands.natives⟩
  · have leaves : (writeFields e field cells).Leaves Machine.standing :=
      writeFields_leaves e field cells fun _ _ _ => rfl
    exact ⟨(leaves s.machine).trans stands.machine, stands.natives⟩
  · rw [execute_apply, stands.natives] at returned ⊢
    exact ⟨(execute_standing nestingBound id s.machine returned).trans stands.machine, rfl⟩

theorem answers_stand {standing : Standing} {s : Session} (stands : s.Stands standing)
    (operations : List Operation)
    (returned : ∀ answer ∈ (answers operations s).1, Returned answer) :
    (answers operations s).2.Stands standing :=
  (answers_agree (stands_likeness standing) operations ⟨rfl, stands⟩ returned).2.2

def withRandom (s : Session) (random : RandomStream) : Session :=
  { s with machine := { s.machine with random } }

theorem setBack_beside {s later : Session} (natives : s.natives = .reference)
    (stands : later.Stands s.machine.standing) :
    s.Beside s.machine.log later.machine.log .reference
      (setBack s.snapshot (later.withRandom s.machine.random)) := by
  have kept := stands.machine
  simp only [Machine.standing, Machine.control, Standing.mk.injEq, Control.mk.injEq] at kept
  obtain ⟨⟨program, calls, locals, function, statement⟩, config, active, profile⟩ := kept
  have machine : (setBack s.snapshot (later.withRandom s.machine.random)).machine =
      s.machine.aside later.machine.log later.machine.argumentCount := by
    simp only [setBack, withRandom, aside, program, calls, locals, function, statement, config, active]
    rfl
  refine ⟨?_, natives, stands.natives, rfl, rfl⟩
  rw [machine]
  exact .intro _ _ ⟨profile, ⟨#[], by simp, by simp⟩, ⟨#[], by simp, by simp⟩⟩ False.elim

/-- Operations that return go on from a restored snapshot as they went on from the session itself, with the
same answers and to the same state, if the random generator is put back along with it. -/
theorem restored_continues {program : Program} {s : Session} (runs : s.Runs program .reference)
    (operations : List Operation)
    (returned : ∀ answer ∈ (answers operations s).1, Returned answer) :
    let after := (answers operations s).2
    ∃ resumed, restore s.snapshot (after.withRandom s.machine.random) = (.ok (), resumed) ∧
      (answers operations resumed).1 = (answers operations s).1 ∧
        (answers operations resumed).2.snapshot = after.snapshot ∧
          (answers operations resumed).2.machine.random = after.machine.random := by
  intro after
  have stands : after.Stands s.machine.standing := answers_stand ⟨rfl, runs.natives⟩ operations returned
  have beside := setBack_beside runs.natives stands
  have control : after.machine.control = s.machine.control := congrArg Standing.control stands.machine
  have program : after.machine.program = program :=
    (congrArg Control.program control).trans (congrArg Form.program runs.form)
  have restored := restore_setBack s.snapshot (after.withRandom s.machine.random)
    (program ▸ (congrArg Form.segment runs.form).symm) (program ▸ (congrArg Form.layout runs.form).symm)
  obtain ⟨same, last⟩ := answers_agree (beside_likeness Natives.reference_blind _ _) operations beside
    fun _ _ _ _ => trivial
  exact ⟨_, restored, same, last.snapshot, last.machine.same random fun _ _ => rfl⟩

def drawingImage : Image :=
  { hauntedImage with
    statements := #[⟨0, 0, 0, 0⟩, ⟨51, 28, 0, 0⟩, ⟨31, 1, 29, 0⟩, ⟨0, 0, 0, 0⟩]
    functions := #[{}, { first := -7 }, { first := 1 }]
    globals := Array.replicate 28 ⟨0⟩ ++ #[⟨1⟩, ⟨0⟩] ++ Array.replicate 9 ⟨0⟩ }

theorem drawingImage_globals : { self := some 37, time := some 38 } = drawingImage.systemGlobals :=
  hauntedImage_globals.symm

theorem drawingImage_fields : { think := some 0, nextthink := some 1 } = drawingImage.systemFields :=
  hauntedImage_fields.symm

def drawing : Program where
  image := drawingImage
  globals := { self := some 37, time := some 38 }
  fields := { think := some 0, nextthink := some 1 }
  sound := by decide +kernel
  globals_eq := drawingImage_globals
  fields_eq := drawingImage_fields

def drawingStart : Session := stocked drawing 2 [⟨0⟩, ⟨0⟩, ⟨2⟩, ⟨0x3d4ccccd⟩]

theorem restored_continues_drawing :
    let operations := [Operation.runFrame ⟨0x3dcccccd⟩]
    let after := (answers operations drawingStart).2
    drawingStart.Runs drawing .reference ∧
      (∀ answer ∈ (answers operations drawingStart).1, Returned answer) ∧
        ∃ resumed,
          restore drawingStart.snapshot (after.withRandom drawingStart.machine.random) = (.ok (), resumed) ∧
            (answers operations resumed).1 = (answers operations drawingStart).1 ∧
              (answers operations resumed).2.snapshot = after.snapshot := by
  intro operations after
  have runs : drawingStart.Runs drawing .reference := ⟨rfl, rfl⟩
  have fine : (answers operations drawingStart).1.all (·.isOk) = true := by decide +kernel
  have returned : ∀ answer ∈ (answers operations drawingStart).1, Returned answer :=
    fun answer member => returned_of_isOk (List.all_eq_true.mp fine answer member)
  obtain ⟨resumed, restored, same, snapshot, -⟩ := restored_continues runs operations returned
  exact ⟨runs, returned, resumed, restored, same, snapshot⟩

/-- With the generator left where it was, what a think draws after the snapshot was restored is new. -/
theorem restored_draws_anew :
    let operations := [Operation.runFrame ⟨0x3dcccccd⟩]
    let after := (answers operations drawingStart).2
    let resumed := (restore drawingStart.snapshot after).2
    (restore drawingStart.snapshot after).1.isOk = true ∧
      (answers operations resumed).2.machine.globals.get? 29 ≠ after.machine.globals.get? 29 := by
  decide +kernel

end Session
end EntityMachine
