import EntityMachine.Proofs.Likeness

/-!
Limits. The budget of statements, the depth of calls and the room for saved cells do nothing but stop runs.
A run that they do not stop is the same run under wider limits, to the last cell.
-/
namespace EntityMachine
open Machine Run

/-- How many statements, calls and saved cells an execution gets. -/
structure Limits where
  statements : Nat
  calls : Nat
  cells : Nat
  deriving DecidableEq, Repr

structure Limits.Within (limits wide : Limits) : Prop where
  statements : limits.statements ≤ wide.statements
  calls : limits.calls ≤ wide.calls
  cells : limits.cells ≤ wide.cells

def Cause.IsLimit : Cause → Prop
  | .limitExceeded (.runaway _) | .limitExceeded (.callDepth _) | .limitExceeded (.localsStack _) => True
  | _ => False

/-- An error that has nothing to do with limits. -/
def Stop.Unforced : Stop → Prop
  | .error e => ¬ e.cause.IsLimit
  | .fault | .nestedTooDeep => False

namespace Machine

def limits (m : Machine) : Limits := ⟨m.config.runawayLimit, m.calls.limit, m.locals.limit⟩

def limited (m : Machine) (limits : Limits) : Machine :=
  { m with
    config := { m.config with
      runawayLimit := limits.statements, maxCallDepth := limits.calls, localsCells := limits.cells }
    calls := { m.calls with limit := limits.calls }
    locals := { m.locals with limit := limits.cells } }

/-- The same machine under wider limits. -/
structure Wider (wide : Limits) (m m' : Machine) : Prop where
  same : m' = m.limited wide
  within : m.limits.Within wide

/-! ## Calls under wider limits -/

theorem checkPush_wider {calls : CallStack} {limit : Nat} (wider : calls.limit ≤ limit)
    (quiet : ∀ stop, calls.checkPush = .error stop → stop.Unforced) :
    ({ calls with limit } : CallStack).checkPush = calls.checkPush := by
  by_cases full : calls.limit ≤ calls.depth
  · have refused : calls.checkPush = .fail (.limitExceeded (.callDepth calls.limit)) := by
      simp only [CallStack.checkPush, CallStack.isFull, full, decide_true, if_true]
    exact absurd trivial (quiet _ refused)
  · have roomy : ¬ limit ≤ calls.depth := fun filled => full (Nat.le_trans wider filled)
    have depth : ({ calls with limit } : CallStack).depth = calls.depth := rfl
    simp only [CallStack.checkPush, CallStack.isFull, depth, full, roomy, decide_false, Bool.false_eq_true,
      if_false]

theorem checkSave_wider {cells : LocalsStack} {limit count : Nat} (wider : cells.limit ≤ limit)
    (quiet : ∀ stop, cells.checkSave count = .error stop → stop.Unforced) :
    ({ cells with limit } : LocalsStack).checkSave count = cells.checkSave count := by
  by_cases room : cells.size + count ≤ cells.limit
  · have room' : cells.size + count ≤ limit := Nat.le_trans room wider
    have size : ({ cells with limit } : LocalsStack).size = cells.size := rfl
    simp only [LocalsStack.checkSave, LocalsStack.hasRoom, size, room, room', decide_true, if_true]
  · have refused : cells.checkSave count = .fail (.limitExceeded (.localsStack cells.limit)) := by
      simp only [LocalsStack.checkSave, LocalsStack.hasRoom, room, decide_false, Bool.false_eq_true, if_false]
    exact absurd trivial (quiet _ refused)

theorem Wider.admission {wide : Limits} {m m' : Machine} (wider : m.Wider wide m') (id : FunctionId)
    (f : Function) (quiet : ∀ stop, m.admission id f = .error stop → stop.Unforced) :
    m'.admission id f = m.admission id f := by
  obtain ⟨rfl, within⟩ := wider
  unfold Machine.admission at quiet ⊢
  have pushes := checkPush_wider within.calls fun stop refused => quiet stop (by rw [refused]; rfl)
  have calls : (m.limited wide).calls.checkPush = m.calls.checkPush := pushes
  rw [calls]
  cases pushed : m.calls.checkPush with
  | error stop => rfl
  | ok room =>
      rw [pushed] at quiet
      have slice : (m.limited wide).slice f.localsStart f.localsEnd = m.slice f.localsStart f.localsEnd := rfl
      rw [slice]
      cases saved : m.slice f.localsStart f.localsEnd with
      | error stop => rfl
      | ok cells =>
          rw [saved] at quiet
          have saves : (m.limited wide).locals.checkSave cells.size = m.locals.checkSave cells.size :=
            checkSave_wider within.cells fun stop refused => quiet stop (by
              simp only [Outcome.ok_bind, refused]; rfl)
          simp only [Outcome.ok_bind, saves]
          rfl

/-! ## Executions under wider limits -/

theorem wider_likeness (wide : Limits) : Likeness (Wider wide) where
  bare := fun _ _ ⟨same, _⟩ => same ▸ rfl
  covers := fun _ _ _ ⟨same, _⟩ => same ▸ rfl
  globals := fun _ _ _ ⟨same, within⟩ => ⟨same ▸ rfl, within⟩
  entities := fun _ _ _ ⟨same, within⟩ => ⟨same ▸ rfl, within⟩
  strings := fun _ _ _ ⟨same, within⟩ => ⟨same ▸ rfl, within⟩
  random := fun _ _ _ ⟨same, within⟩ => ⟨same ▸ rfl, within⟩
  passed := fun _ _ _ ⟨same, within⟩ => ⟨same ▸ rfl, within⟩
  tracing := fun _ _ _ ⟨same, within⟩ => ⟨same ▸ rfl, within⟩
  printed := fun _ _ _ ⟨same, within⟩ => ⟨same ▸ rfl, within⟩
  dropped := fun _ _ _ _ ⟨same, within⟩ => ⟨same ▸ rfl, within⟩
  entered := fun _ _ _ _ _ ⟨same, within⟩ => ⟨same ▸ rfl, within⟩
  departed := fun _ _ _ _ _ ⟨same, within⟩ => ⟨same ▸ rfl, within⟩
  fetched := fun _ _ _ _ ⟨same, within⟩ => ⟨same ▸ rfl, within⟩
  handed := fun _ _ _ _ _ ⟨same, within⟩ => ⟨same ▸ rfl, within⟩

theorem wider_course (wide : Limits) : Course Stop.Unforced (Wider wide) where
  toLikeness := wider_likeness wide
  admission := fun _ _ id f wider quiet => wider.admission id f quiet
  budget := fun _ _ ⟨same, within⟩ => same ▸ within.statements
  spent := fun _ _ _ _ unforced => absurd trivial unforced
  told := by
    intro e stop unforced told
    cases stop with
    | fault => exact unforced.elim
    | nestedTooDeep => exact unforced.elim
    | error found =>
        have cause := told found rfl
        change ¬ e.cause.IsLimit
        rw [← cause]
        exact unforced

theorem wider_arguments (wide : Limits) (m m' : Machine) (wider : m.Wider wide m') :
    m'.argumentCount = m.argumentCount := by
  rw [wider.same]
  rfl

theorem execute_under_wider {wide : Limits} {m : Machine} (within : m.limits.Within wide) (nesting : Nat)
    (id : FunctionId) (unforced : ∀ stop, (execute .reference nesting id m).1 = .error stop → stop.Unforced) :
    execute .reference nesting id (m.limited wide) =
      ((execute .reference nesting id m).1, (execute .reference nesting id m).2.limited wide) := by
  have follow : Natives.reference.Follow Stop.Unforced (Wider wide) :=
    Natives.reference_follow (wider_likeness wide) (wider_arguments wide)
  obtain ⟨result, after⟩ :=
    follows_execute (wider_course wide) follow nesting id m (m.limited wide) ⟨rfl, within⟩ unforced
  exact Prod.ext result after.same

/-- An execution that returns does so under wider limits too, and leaves the same. -/
theorem limits_only_stop {wide : Limits} {m after : Machine} (within : m.limits.Within wide) (nesting : Nat)
    (id : FunctionId) (returned : execute .reference nesting id m = (.ok (), after)) :
    execute .reference nesting id (m.limited wide) = (.ok (), after.limited wide) := by
  have unforced : ∀ stop, (execute .reference nesting id m).1 = .error stop → stop.Unforced := by
    rw [returned]
    exact nofun
  have wider := execute_under_wider within nesting id unforced
  rw [returned] at wider
  exact wider

def layered : Program where
  image := {
    statements := #[⟨0, 0, 0, 0⟩, ⟨51, 30, 0, 0⟩, ⟨0, 0, 0, 0⟩, ⟨51, 31, 0, 0⟩, ⟨0, 1, 0, 0⟩]
    functions := #[{}, { first := 1, parmStart := 28, locals := 1 }, { first := 3, parmStart := 28, locals := 2 },
      { first := -7 }]
    globals := Array.replicate 28 ⟨0⟩ ++ #[⟨5⟩, ⟨6⟩, ⟨2⟩, ⟨3⟩] }
  globals := {}
  fields := {}
  sound := by decide +kernel
  globals_eq := show _ = Image.systemGlobals _ from rfl
  fields_eq := show _ = Image.systemFields _ from rfl

theorem limits_only_stop_layered :
    let m := create layered { runawayLimit := 4, maxCallDepth := 2, localsCells := 3 }
    let wide : Limits := ⟨100000, 32, 2048⟩
    let after := (execute .reference 1 ⟨1⟩ m).2
    m.limits.Within wide ∧ execute .reference 1 ⟨1⟩ m = (.ok (), after) ∧
      execute .reference 1 ⟨1⟩ (m.limited wide) = (.ok (), after.limited wide) := by
  intro m wide after
  have within : m.limits.Within wide := by constructor <;> decide
  have returned : execute .reference 1 ⟨1⟩ m = (.ok (), after) := by
    apply eq_of_outcome
    decide +kernel
  exact ⟨within, returned, limits_only_stop within 1 ⟨1⟩ returned⟩

end Machine
end EntityMachine
