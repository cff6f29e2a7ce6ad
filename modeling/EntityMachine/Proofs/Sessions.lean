import EntityMachine.Proofs.Agreement
import EntityMachine.Proofs.Invariants

/-!
What a session keeps. Nothing that runs in a session replaces its program, so state that the session
had once fits it for good: the segment keeps its length and the records keep their layout, through
executions, frames and restored snapshots.
-/
namespace EntityMachine
open Machine Run

/-- What saved state must agree with. -/
structure Form where
  program : Program
  segment : Nat
  layout : Layout

def Machine.form (m : Machine) : Form := ⟨m.program, m.globals.size, m.entities.layout⟩

def Durable.form (d : Durable) : Form := ⟨d.program, d.segment, d.entities.layout⟩

def Program.form (p : Program) : Form := ⟨p, p.image.globals.size, p.layout⟩

/-- The native functions keep the form, as long as the executions do that they start. -/
def Natives.KeepForm (natives : Natives) : Prop :=
  ∀ number f (reenter : FunctionId → Run Unit), natives.lookup number = .ok f →
    (∀ id, (reenter id).Leaves form) → (f.run reenter).Leaves form

/-! ## Executions -/

namespace Machine

theorem form_of_shape {m m' : Machine} (same : m'.shape = m.shape) : m'.form = m.form :=
  congrArg (fun shape : Shape => Form.mk shape.program shape.segment shape.entities.layout) same

theorem form_of_globals (m : Machine) (globals : Segment) (same : globals.size = m.globals.size) :
    ({ m with globals } : Machine).form = m.form := form_of_shape (m.shape_of_globals same)

theorem form_of_entities (m : Machine) (entities : Entities)
    (same : entities.outline = m.entities.outline) : ({ m with entities } : Machine).form = m.form :=
  form_of_shape (m.shape_of_entities same)

theorem execute_keeps {natives : Natives} (keep : natives.KeepForm) (nesting : Nat) (id : FunctionId) :
    (execute natives nesting id).Leaves form := by
  have preserve : natives.Preserve (fun _ => True) fun (known : Form) d => d.form = known := by
    intro number f reenter found deeper known
    have leaves : (f.run reenter).Leaves form :=
      keep number f reenter found fun id m => deeper m.form id m rfl fun _ _ => trivial
    exact leaves.preserves (· = known)
  intro m
  exact execute_preserves (fun _ => trivial) preserve nesting id m.form m rfl fun _ _ => trivial

theorem checkState_iff (p : Program) (globals : Segment) (entities : Entities) :
    p.checkState globals entities = .ok () ↔
      globals.size = p.image.globals.size ∧ entities.layout = p.layout := by
  unfold Program.checkState Outcome.fail
  split
  · rename_i other
    exact ⟨nofun, fun fits => absurd fits.1 other⟩
  · rename_i segment
    split
    · rename_i other
      exact ⟨nofun, fun fits => absurd fits.2 other⟩
    · rename_i layout
      exact ⟨fun _ => ⟨Decidable.not_not.mp segment, Decidable.not_not.mp layout⟩, fun _ => rfl⟩

theorem replaceState_apply (globals : Segment) (entities : Entities) (strings : StringPool)
    (m : Machine) : replaceState globals entities strings m =
      match m.program.checkState globals entities with
      | .ok () => (.ok (), { m with globals, entities, strings })
      | .error stop => (.error stop, m) := by
  rw [replaceState, get_bind]
  cases m.program.checkState globals entities <;> rfl

theorem replaceState_form {m : Machine} {program : Program} (fits : m.form = program.form)
    (globals : Segment) (entities : Entities) (strings : StringPool) :
    (replaceState globals entities strings m).2.form = program.form := by
  have same : m.program = program := congrArg Form.program fits
  rw [replaceState_apply]
  cases checked : m.program.checkState globals entities with
  | error stop => exact fits
  | ok done =>
      obtain ⟨segment, layout⟩ := (checkState_iff _ _ _).mp checked
      simp only [form, Program.form, segment, layout, same]

theorem reserve_eq {program : Program} {config : MachineConfig} {m : Machine}
    (reserved : reserve program config = .ok m) : m = create program config := by
  unfold reserve at reserved
  cases records : Entities.checkRoom program.layout config.entities with
  | error stop =>
      rw [records] at reserved
      cases reserved
  | ok _ =>
      cases calls : CallStack.checkRoom config.maxCallDepth with
      | error stop =>
          rw [records, calls] at reserved
          cases reserved
      | ok _ =>
          cases locals : LocalsStack.checkRoom config.localsCells with
          | error stop =>
              rw [records, calls, locals] at reserved
              cases reserved
          | ok _ =>
              rw [records, calls, locals] at reserved
              cases reserved
              rfl

end Machine

/-! ## Sessions -/

namespace Session

/-- The session runs the program, on state that fits it, with these native functions. -/
structure Runs (program : Program) (natives : Natives) (s : Session) : Prop where
  form : s.machine.form = program.form
  natives : s.natives = natives

theorem create_runs {program : Program} {natives : Natives} {config : MachineConfig} {s : Session}
    (created : create program natives config = .ok s) : s.Runs program natives := by
  unfold create at created
  cases reserved : Machine.reserve program config with
  | error stop =>
      rw [reserved] at created
      cases created
  | ok machine =>
      rw [reserved] at created
      cases created
      rw [reserve_eq reserved]
      exact ⟨rfl, rfl⟩

/-- Whatever the computation comes to, a session that runs the program goes on running it. -/
def Keeps (program : Program) (natives : Natives) (play : Play α) : Prop :=
  ∀ s : Session, s.Runs program natives → ((play s).2).Runs program natives

section Keeps
variable {program : Program} {natives : Natives}

theorem keeps_bind {play : Play α} {next : α → Play β} (first : Keeps program natives play)
    (rest : ∀ a, Keeps program natives (next a)) : Keeps program natives (play >>= next) := by
  intro s runs
  have before := first s runs
  rw [bind_apply]
  cases outcome : play s with
  | mk result s' =>
      rw [outcome] at before
      cases result with
      | ok a => exact rest a s' before
      | error stop => exact before

theorem keeps_modify {change : Session → Session}
    (same : ∀ s, (change s).machine = s.machine ∧ (change s).natives = s.natives) :
    Keeps program natives (modify change) := by
  intro s runs
  exact ⟨(congrArg form (same s).1).trans runs.form, (same s).2.trans runs.natives⟩

theorem keeps_machine {body : Run α} (kept : body.Leaves form) :
    Keeps program natives (onMachine body) :=
  fun s runs => ⟨(kept s.machine).trans runs.form, runs.natives⟩

theorem keeps_restore (snapshot : Snapshot) : Keeps program natives (restore snapshot) := by
  -- A refused snapshot changes nothing, and an accepted one fits the program.
  refine keeps_bind (fun s runs => ⟨?_, runs.natives⟩) fun _ => keeps_modify fun _ => ⟨rfl, rfl⟩
  exact replaceState_form runs.form _ _ _

theorem keeps_activate : Keeps program natives activate := keeps_machine (leaves_modify fun _ => rfl)

theorem keeps_enableTracing (config : TracerConfig) : Keeps program natives (enableTracing config) :=
  keeps_machine (leaves_modify fun _ => rfl)

theorem keeps_disableTracing : Keeps program natives disableTracing :=
  keeps_machine (leaves_modify fun _ => rfl)

theorem keeps_of_agrees {play : Play α}
    (agrees : Agrees (fun _ => True) (fun s t => t = s ∧ s.Runs program natives) play) :
    Keeps program natives play :=
  fun s runs => ((agrees s s ⟨rfl, runs⟩).2 fun _ _ => trivial).2

theorem runs_likeness (keep : natives.KeepForm) :
    Likeness (fun _ => True) fun s t => t = s ∧ s.Runs program natives := by
  refine diagonal_likeness (fun s time runs => ⟨runs.form, runs.natives⟩)
    (fun s frame runs => ⟨runs.form, runs.natives⟩)
    (fun place value => keeps_machine (writeSystem_leaves place value form_of_globals))
    (fun e field cells => keeps_machine (writeFields_leaves e field cells form_of_entities))
    fun id s runs _ => ?_
  rw [execute_apply, runs.natives]
  exact ⟨(execute_keeps keep nestingBound id s.machine).trans runs.form, rfl⟩

end Keeps

/-! ## Histories -/

inductive Request where
  | setTime (time : Single)
  | activate
  | execute (id : FunctionId)
  | executeNamed (name : String)
  | call (name : String)
  | runThink (e : EntityIndex)
  | runFrame (frametime : Single)
  | restore (snapshot : Snapshot)
  | enableTracing (config : TracerConfig)
  | disableTracing

def Request.play : Request → Play Unit
  | .setTime time => Session.setTime time
  | .activate => Session.activate
  | .execute id => Session.execute id
  | .executeNamed name => Session.executeNamed name
  | .call name => Session.call name
  | .runThink e => do let _ ← Session.runThink e
  | .runFrame frametime => do let _ ← Session.runFrame frametime
  | .restore snapshot => Session.restore snapshot
  | .enableTracing config => Session.enableTracing config
  | .disableTracing => Session.disableTracing

/-- How a session may come out of another: through requests, whether they succeed or not, and through
changes that the host makes to the machine itself, which cannot touch the program. -/
inductive History : Session → Session → Prop
  | now (s : Session) : History s s
  | asks {s t : Session} (request : Request) : History s t → History s (request.play t).2
  | changes {s t : Session} (body : Run Unit) : body.Leaves form → History s t →
      History s (onMachine body t).2

theorem keeps_request {program : Program} {natives : Natives} (keep : natives.KeepForm)
    (request : Request) : Keeps program natives request.play := by
  have likeness : Likeness (fun _ => True) fun s t => t = s ∧ s.Runs program natives :=
    runs_likeness keep
  cases request with
  | setTime time => exact keeps_of_agrees (setTime_agrees likeness time)
  | activate => exact keeps_activate
  | execute id => exact keeps_of_agrees (likeness.execution id)
  | executeNamed name => exact keeps_of_agrees (executeNamed_agrees likeness name)
  | call name => exact keeps_of_agrees (call_agrees likeness name)
  | runThink e => exact keeps_of_agrees (agrees_bind (runThink_agrees likeness e) fun _ => agrees_pure ())
  | runFrame frametime =>
      exact keeps_of_agrees (agrees_bind (runFrame_agrees likeness frametime) fun _ => agrees_pure ())
  | restore snapshot => exact keeps_restore snapshot
  | enableTracing config => exact keeps_enableTracing config
  | disableTracing => exact keeps_disableTracing

theorem History.runs {program : Program} {natives : Natives} (keep : natives.KeepForm) {s t : Session}
    (history : History s t) (runs : s.Runs program natives) : t.Runs program natives := by
  induction history with
  | now => exact runs
  | asks request _ ih => exact keeps_request keep request _ ih
  | changes body kept _ ih => exact keeps_machine kept _ ih

end Session
end EntityMachine
