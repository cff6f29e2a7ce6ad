import EntityMachine.Proofs.MachineOrder

/-!
Executions on machines in order. Statements leave alone what puts a machine in order, so every native
function that is called finds its machine in order, and what it would do on other machines makes no
difference. With functions that do nothing there, an execution is one of those that never fault.
-/
namespace EntityMachine
open Machine Run

/-- The function where a property holds; elsewhere it does nothing. -/
noncomputable def Native.within (fine : Machine → Prop) (f : Native) : Native where
  name := f.name
  run := fun reenter m => open Classical in if fine m then f.run reenter m else (.ok (), m)

noncomputable def Natives.within (fine : Machine → Prop) (natives : Natives) : Natives :=
  ⟨natives.slots.map (Option.map (Native.within fine))⟩

theorem Natives.lookup_within (fine : Machine → Prop) (natives : Natives) (number : Nat) :
    (natives.within fine).lookup number = (natives.lookup number).map (Native.within fine) := by
  rw [lookup, lookup, within, Array.getElem?_map]
  rcases natives.slots[number]? with _ | (_ | f) <;> rfl

def Effect.Passes : Effect → Prop
  | .call _ arguments => arguments ≤ Slot.maxParameters
  | .write .. | .writeField .. | .jump .. | .finish .. | .schedule .. => True

/-- What is there for a native function to rely on. -/
structure Machine.Ready (m : Machine) : Prop where
  order : m.InOrder
  few : m.argumentCount ≤ Slot.maxParameters

def Durable.InOrder (d : Durable) : Prop := ∀ m : Machine, m.durable = d → m.InOrder

theorem Machine.durable_inOrder (m : Machine) : m.durable.InOrder ↔ m.InOrder := by
  constructor
  · intro order
    exact order m rfl
  · intro order m' same
    exact order.of_durable same

theorem Natives.reference_keepsOrder : Natives.reference.Preserve (fun _ => True)
    fun (program : Program) d => d.InOrder ∧ d.program = program := by
  rintro number f reenter known - program m ⟨order, same⟩ quiet
  have steady : m.Steady program m.argumentCount := ⟨m.durable_inOrder.mp order, same, rfl⟩
  have kept := reference_preserves (Reference.steady_tolerates program _) known reenter m steady quiet
  exact ⟨(durable_inOrder _).mpr kept.order, kept.program⟩

namespace Machine

theorem effect_passes (m : Machine) (op : Opcode) (s : Statement) :
    Outcome.Meets (fun _ => True) Effect.Passes (m.effect op s) := by
  have any {α : Type} (outcome : Outcome α) : Outcome.Meets (fun _ => True) (fun _ => True) outcome := by
    cases outcome <;> trivial
  cases op with
  | call arguments =>
      simp only [effect, Outcome.meets_bind]
      exact (any (m.cell s.a.toNat)).mono (fun _ _ => trivial) fun _ _ => Nat.le_of_lt_succ arguments.isLt
  | _ =>
      simp [effect, combine, combineBits, combineVectors, test, Effect.Passes, any]

section Within
variable {natives : Natives} {reenter : FunctionId → Run Unit} {m : Machine}

theorem callNative_within (ready : m.Ready) (id : FunctionId) (number : Nat) :
    callNative (natives.within Ready) reenter id number m = callNative natives reenter id number m := by
  rw [callNative_apply, callNative_apply, Natives.lookup_within]
  cases natives.lookup number with
  | error stop => rfl
  | ok f =>
      have handed : (m.handed id number f).Ready :=
        ⟨ready.order.of_durable (m.handed_durable id number f), ready.few⟩
      exact if_pos handed

theorem perform_within (order : m.InOrder) (entryDepth s : Nat) {effect : Effect} (passes : effect.Passes) :
    perform (natives.within Ready) reenter entryDepth s effect m =
      perform natives reenter entryDepth s effect m := by
  cases effect with
  | call callee arguments =>
      have ready : ({ m with argumentCount := arguments } : Machine).Ready := ⟨order.of_durable rfl, passes⟩
      simp only [perform_call, callNative_within ready]
  | write offset cells => rfl
  | writeField address cells => rfl
  | jump distance => rfl
  | finish offset => rfl
  | schedule frame think => rfl

theorem step_within (order : m.InOrder) (entryDepth s : Nat) :
    step (natives.within Ready) reenter entryDepth s m = step natives reenter entryDepth s m := by
  rw [step_apply, step_apply]
  cases m.program.statement? s with
  | none => rfl
  | some statement =>
      simp only
      split
      · cases statement.opcode? with
        | none => rfl
        | some op =>
            have passes := m.effect_passes op statement
            simp only
            cases asked : m.effect op statement with
            | error stop => rfl
            | ok effect =>
                rw [asked] at passes
                exact perform_within (order.of_durable (m.fetched_durable s statement)) entryDepth s passes
      · rfl

end Within

section Execute
variable {nesting : Nat}

theorem loop_within (entryDepth budget s : Nat) {m : Machine} (order : m.InOrder) :
    loop (Natives.reference.within Ready) (execute .reference nesting) entryDepth budget s m =
      loop .reference (execute .reference nesting) entryDepth budget s m := by
  induction budget generalizing s m with
  | zero => rw [loop, loop]
  | succ budget ih =>
      have kept := step_preserves Natives.reference_keepsOrder
        (fun program id => execute_preserves (fun _ => trivial) Natives.reference_keepsOrder nesting id program)
        entryDepth s m.program m ⟨m.durable_inOrder.mpr order, rfl⟩ fun _ _ => trivial
      rw [loop, loop, step_within order]
      cases outcome : step .reference (execute .reference nesting) entryDepth s m with
      | mk result after =>
          rw [outcome] at kept
          rcases result with stop | (_ | next)
          · rfl
          · rfl
          · exact ih next (after.durable_inOrder.mp kept.1)

theorem runFunction_within (id : FunctionId) {m : Machine} (order : m.InOrder) :
    runFunction (Natives.reference.within Ready) (execute .reference nesting) id m =
      runFunction .reference (execute .reference nesting) id m := by
  rw [runFunction_apply, runFunction_apply]
  cases found : m.program.function id with
  | error stop => rfl
  | ok f =>
      have few : f.numParms.toNat ≤ Slot.maxParameters := (m.program.function_fits found).2.parameters
      have ready : ({ m with argumentCount := f.numParms.toNat } : Machine).Ready :=
        ⟨order.of_durable rfl, few⟩
      simp only
      cases f.nativeNumber? with
      | some number => exact callNative_within ready id number
      | none =>
          simp only
          split
          · exact loop_within _ _ _ (ready.order.of_durable (entered_durable _ id _ _))
          · rfl

end Execute

theorem within_restores {reenter : FunctionId → Run Unit} {c : Control}
    (holds : Entities.HoldsClearings c.program.layout) {number : Nat} {g : Native}
    (known : (Natives.reference.within Ready).lookup number = .ok g) :
    (g.run reenter).RestoresFrom .onlyErrors c := by
  rw [Natives.lookup_within, Outcome.map_ok_iff] at known
  obtain ⟨f, found, rfl⟩ := known
  intro m here sound
  by_cases ready : m.Ready
  · have same : (f.within Ready).run reenter m = f.run reenter m := if_pos ready
    have stands := congrArg Standing.control (Natives.reference_leaves found reenter m)
    have program : m.program = c.program := congrArg Control.program here
    obtain ⟨row, member, rfl⟩ := Natives.reference_known found
    obtain ⟨stops, after⟩ :=
      catalogue_sure ready.few (program ▸ holds) row member m ready.order.steady
    rw [same]
    exact ⟨stops, fun _ => ⟨stands.trans here, after.order.sound⟩⟩
  · have same : (f.within Ready).run reenter m = (.ok (), m) := if_neg ready
    rw [same]
    exact ⟨trivial, fun _ => ⟨here, sound⟩⟩

theorem execute_inOrder {m : Machine} (order : m.InOrder)
    (holds : Entities.HoldsClearings m.program.layout) (nesting : Nat) (id : FunctionId) :
    Outcome.Stops Stop.Reported (execute .reference (nesting + 1) id m).1 ∧
      (execute .reference (nesting + 1) id m).2.InOrder ∧
      (execute .reference (nesting + 1) id m).2.program = m.program := by
  -- The policy asks something of native functions on every sound machine, also where strings are not in
  -- order; functions that do nothing there keep to it.
  have performed : Performance .onlyErrors id m
      (runFunction (Natives.reference.within Ready) (execute .reference nesting) id m).1
      (runFunction (Natives.reference.within Ready) (execute .reference nesting) id m).2 := by
    refine runFunction_performs id m order.sound (fun _ _ _ _ _ known => within_restores holds known) ?_
    intro _ _ _ c known _ _ program
    refine within_restores ?_ known
    rw [program]
    exact holds
  rw [runFunction_within id order] at performed
  have kept := execute_preserves (fun _ => trivial) Natives.reference_keepsOrder (nesting + 1) id m.program m
    ⟨m.durable_inOrder.mpr order, rfl⟩ fun _ _ => trivial
  exact ⟨(guarded_back performed).1, (durable_inOrder _).mp kept.1, kept.2⟩

end Machine
end EntityMachine
