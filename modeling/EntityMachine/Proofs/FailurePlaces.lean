import EntityMachine.Proofs.Budget
import EntityMachine.Proofs.ControlSteps
import EntityMachine.Proofs.PoolCoherence

/-!
Where a failure is told to have arisen. The function that runs changes as calls are made and returned from, the
statement only as one is fetched. The two go together whenever an execution fails, except where the budget ends
between a call and the first statement of the function that was called.
-/
namespace EntityMachine
open Machine Run

/-- The result is an error that has not been told where it arose. -/
def Outcome.isNew : Outcome α → Bool
  | .error (.error error) => error.context.isNone
  | _ => false

namespace Execution

/-- The execution runs this statement while this function is the one that runs. -/
def Dispatches (natives : Natives) (e : Execution) (function : FunctionId) (s : Nat) : Prop :=
  ∃ p, e.Reaches natives p ∧ 0 < p.budget ∧ p.machine.dispatches p.statement = true ∧
    p.machine.function = function ∧ p.statement = s

def Calls (natives : Natives) (e : Execution) (function : FunctionId) (s : Nat) (p : Point) : Prop :=
  ∃ m, e.Reaches natives ⟨p.budget + 1, s, m⟩ ∧ m.callee? s = some function ∧
    step natives (e.reenter natives) e.start.depth s m = (.ok (some p.statement), p.machine)

/-- The last statement that the budget allows calls this function. -/
def LastCalls (natives : Natives) (e : Execution) (function : FunctionId) (s : Nat) : Prop :=
  ∃ p, p.budget = 0 ∧ e.Calls natives function s p

/-- The execution is inside calls that its own statements made, and the place that the machine tells is that of its
last statement. Only a function that was just entered has had none. -/
structure Standing (natives : Natives) (e : Execution) (p : Point) : Prop where
  deep : e.start.depth < p.machine.depth
  program : p.machine.program = e.start.program
  callers : ∀ frame ∈ p.machine.calls.frames.toList.drop (e.start.depth + 1),
    e.Dispatches natives frame.function frame.returnStatement
  here : e.Dispatches natives p.machine.function p.machine.statement ∨
    (p.machine.program.statement? p.statement).isSome ∧
      (e.Begins p ∨ e.Calls natives p.machine.function p.machine.statement p)

end Execution

theorem Travels.budget_le {natives : Natives} {along : Machine → Prop} {reenter : FunctionId → Run Unit}
    {entryDepth : Nat} {p q : Point} (travels : Travels natives reenter entryDepth along p q) :
    q.budget ≤ p.budget := by
  induction travels with
  | stay p => exact Nat.le_refl _
  | go _ _ _ ih => exact Nat.le_succ_of_le ih

theorem Program.first_found {program : Program} {id : FunctionId} {f : Function}
    (found : program.function id = .ok f) (ours : f.nativeNumber? = none) :
    (program.statement? f.first.toNat).isSome := by
  have before := (program.function_fits found).2.first ours
  have some_ : f.first.toNat < program.image.statements.size := by
    unfold Function.nativeNumber? at ours
    split at ours
    · cases ours
    · omega
  rw [Program.statement?, Array.getElem?_eq_getElem some_]
  rfl

namespace Execution
variable {natives : Natives} {e : Execution}

theorem begins_standing {p : Point} (begins : e.Begins p) : e.Standing natives p := by
  obtain ⟨a, stacked⟩ := begins_stacked begins
  have depth : p.machine.depth = e.start.depth + 1 := stacked.depth_eq
  have again := begins
  cases begins with
  | @entered f saved moves found ours admitted =>
      refine ⟨by omega, rfl, fun frame member => ?_, .inr ⟨Program.first_found found ours, .inl again⟩⟩
      rw [List.drop_eq_nil_of_le (Nat.le_of_eq depth)] at member
      cases member

theorem Reaches.dispatches {budget s : Nat} {m : Machine} (reached : e.Reaches natives ⟨budget + 1, s, m⟩)
    (fetched : m.dispatches s = true) : e.Dispatches natives m.function s :=
  ⟨_, reached, Nat.succ_pos budget, fetched, rfl, rfl⟩

theorem Standing.enters {p q : Point} {id : FunctionId} {f : Function} {saved : Array Cell}
    (standing : e.Standing natives p) (ran : e.Dispatches natives p.machine.function p.statement)
    (control : q.machine.control = (p.machine.control.goto p.statement).enter ⟨p.statement, id, f, saved⟩)
    (found : (q.machine.program.statement? q.statement).isSome) (calls : e.Calls natives id p.statement q) :
    e.Standing natives q := by
  have added : q.machine.calls = p.machine.calls.add ⟨p.statement, p.machine.function⟩ :=
    congrArg Control.calls control
  have function : q.machine.function = id := congrArg Control.function control
  have statement : q.machine.statement = p.statement := congrArg Control.statement control
  have frames : q.machine.calls.frames.toList =
      p.machine.calls.frames.toList ++ [⟨p.statement, p.machine.function⟩] := by
    rw [added]
    exact Array.toList_push
  constructor
  · change e.start.depth < q.machine.calls.depth
    rw [added]
    exact Nat.lt_of_lt_of_eq (Nat.lt_succ_of_lt standing.deep) (Array.size_push _).symm
  · exact (congrArg Control.program control).trans standing.program
  · intro frame member
    rw [frames, List.drop_append_of_le_length standing.deep, List.mem_append, List.mem_singleton] at member
    rcases member with earlier | rfl
    · exact standing.callers frame earlier
    · exact ran
  · refine .inr ⟨found, .inr ?_⟩
    rw [function, statement]
    exact calls

theorem Standing.leaves {p q : Point} {frame : Frame} {locals : LocalsStack} (standing : e.Standing natives p)
    (top : p.machine.calls.frames.back? = some frame)
    (control : q.machine.control =
      ⟨p.machine.program, p.machine.calls.dropTop, locals, frame.function, frame.returnStatement⟩)
    (deeper : q.machine.depth ≠ e.start.depth) : e.Standing natives q := by
  have calls : q.machine.calls = p.machine.calls.dropTop := congrArg Control.calls control
  have function : q.machine.function = frame.function := congrArg Control.function control
  have statement : q.machine.statement = frame.returnStatement := congrArg Control.statement control
  obtain ⟨deep, program, callers, -⟩ := standing
  obtain ⟨rest, whole⟩ := Array.back?_eq_some_iff.mp top
  have frames : q.machine.calls.frames = rest := by
    rw [calls]
    change p.machine.calls.frames.pop = rest
    rw [whole, Array.pop_push]
  have still : e.start.depth < rest.size := by
    have before : e.start.depth < p.machine.calls.frames.size := deep
    have apart : rest.size ≠ e.start.depth := frames ▸ deeper
    rw [whole, Array.size_push] at before
    omega
  simp only [whole, Array.toList_push, List.drop_append_of_le_length still] at callers
  constructor
  · exact Nat.lt_of_lt_of_eq still (congrArg Array.size frames).symm
  · exact (congrArg Control.program control).trans program
  · intro other member
    apply callers other
    exact List.mem_append_left _ (frames ▸ member)
  · refine .inl (function ▸ statement ▸ callers frame ?_)
    exact List.mem_append_right _ List.mem_cons_self

theorem Standing.next (respect : natives.Respect .any) {budget s next : Nat} {m m' : Machine}
    (standing : e.Standing natives ⟨budget + 1, s, m⟩) (reached : e.Reaches natives ⟨budget + 1, s, m⟩)
    (stepped : step natives (e.reenter natives) e.start.depth s m = (.ok (some next), m')) :
    e.Standing natives ⟨budget, next, m'⟩ := by
  cases step_passes (e.natives_return respect) stepped (returned_ok _) with
  | stays dispatched _ _ control =>
      obtain ⟨deep, program, callers, -⟩ := standing
      have calls : m'.calls = m.calls := congrArg Control.calls control
      have function : m'.function = m.function := congrArg Control.function control
      have statement : m'.statement = s := congrArg Control.statement control
      constructor
      · change e.start.depth < m'.calls.depth
        rw [calls]
        exact deep
      · exact (congrArg Control.program control).trans program
      · exact calls ▸ callers
      · exact .inl (function ▸ statement ▸ reached.dispatches dispatched)
  | enters dispatched callee _ found ours control =>
      have within : m'.program = m.program := congrArg Control.program control
      have first := within ▸ Program.first_found found ours
      exact standing.enters (reached.dispatches dispatched) control first ⟨m, reached, callee, stepped⟩
  | leaves _ _ _ top control deeper => exact standing.leaves top control (deeper rfl)

theorem reached_place (respect : natives.Respect .any) (some_ : 0 < e.start.config.runawayLimit)
    {p : Point} {error : Error} {m : Machine} (reached : e.Reaches natives p) (standing : e.Standing natives p)
    (failed : loop natives (e.reenter natives) e.start.depth p.budget p.statement p.machine =
      (.error (.error error), m)) :
    m.program = e.start.program ∧ (e.Dispatches natives m.function m.statement ∨
      (e.LastCalls natives m.function m.statement ∧ error.cause.isRunaway = true)) := by
  obtain ⟨budget, s, n⟩ := p
  -- Over the budget, with a point on the way that the execution does reach.
  induction budget generalizing s n with
  | zero =>
      cases failed
      refine ⟨standing.program, ?_⟩
      rcases standing.here with told | ⟨-, begins | called⟩
      · exact .inl told
      · have full : 0 = e.start.config.runawayLimit := (begins_fetched natives begins).1
        omega
      · exact .inr ⟨⟨_, rfl, called⟩, rfl⟩
  | succ budget ih =>
      simp only [loop] at failed
      cases stepped : step natives (e.reenter natives) e.start.depth s n with
      | mk result n' =>
          rw [stepped] at failed
          rcases result with stop | (_ | next)
          · cases failed
            cases step_passes (e.natives_return respect) stepped (returned_error error) with
            | unfetched absent control =>
                have function : m.function = n.function := congrArg Control.function control
                have statement : m.statement = n.statement := congrArg Control.statement control
                have missing := statement_missing absent (congrArg Prod.fst stepped)
                refine ⟨(congrArg Control.program control).trans standing.program, ?_⟩
                rcases standing.here with told | ⟨there, -⟩
                · exact .inl (function ▸ statement ▸ told)
                · rw [missing] at there
                  cases there
            | stopped dispatched control =>
                have function : m.function = n.function := congrArg Control.function control
                have statement : m.statement = s := congrArg Control.statement control
                refine ⟨(congrArg Control.program control).trans standing.program, ?_⟩
                exact .inl (function ▸ statement ▸ reached.dispatches dispatched)
          · cases failed
          · exact ih _ _ (reached.next stepped) (standing.next respect reached stepped) failed

/-- Running the function comes to an error that has not been told where it arose: it arose here. -/
def Raises (natives : Natives) (e : Execution) (error : Error) (m : Machine) : Prop :=
  e.performance natives = (.error (.error error), m) ∧ error.context = none

theorem raises_iff : (∃ error m, e.Raises natives error m) ↔ (e.performance natives).1.isNew = true := by
  constructor
  · rintro ⟨error, m, failed, new⟩
    rw [failed, Outcome.isNew, new]
    rfl
  · intro told
    rcases performed : e.performance natives with ⟨(_ | _ | error) | done, m⟩ <;> rw [performed] at told
    · cases told
    · cases told
    · exact ⟨error, m, performed, Option.isNone_iff_eq_none.mp told⟩
    · cases told

theorem outcome_located {error : Error} {m : Machine} (failed : e.performance natives = (.error (.error error), m)) :
    (e.outcome natives).1 = .error .fault ∨
      ∃ told, m.located error = .ok told ∧ (e.outcome natives).1 = .error (.error told) := by
  rw [outcome_eq, guarded_apply, show runFunction natives (e.reenter natives) e.id e.start = _ from failed]
  simp only
  cases located : m.located error with
  | error stop =>
      cases located_stop located
      exact .inl rfl
  | ok told =>
      simp only
      cases unwound : unwind e.start.depth m with
      | mk result m' =>
          cases result with
          | ok done => exact .inr ⟨told, rfl, rfl⟩
          | error stop =>
              cases unwind_fault (congrArg Prod.fst unwound)
              exact .inl rfl

theorem outcome_spared (spared : ∀ error, (e.performance natives).1 ≠ .error (.error error)) :
    (e.outcome natives).1 = (e.performance natives).1 := by
  have guarded := guarded_result (runFunction natives (e.reenter natives) e.id) e.start
  rw [← outcome_eq, show runFunction natives (e.reenter natives) e.id e.start = e.performance natives from rfl]
    at guarded
  rcases performed : (e.performance natives).1 with (_ | _ | error) | done
  · rwa [performed] at guarded
  · rwa [performed] at guarded
  · exact absurd performed (spared error)
  · rwa [performed] at guarded

theorem outcome_error {told : Error} (came : (e.outcome natives).1 = .error (.error told)) :
    ∃ error m, e.performance natives = (.error (.error error), m) ∧ m.located error = .ok told := by
  have failed : ∃ error, (e.performance natives).1 = .error (.error error) := by
    refine Classical.byContradiction fun spared => spared ⟨told, ?_⟩
    rw [← outcome_spared fun error failed => spared ⟨error, failed⟩, came]
  obtain ⟨error, failed⟩ := failed
  rcases outcome_located (eq_of_outcome failed) with faulted | ⟨same, located, left⟩
  · cases came.symm.trans faulted
  · cases came.symm.trans left
    exact ⟨error, _, eq_of_outcome failed, located⟩

end Execution

theorem Machine.located_new {m : Machine} {error told : Error} (new : error.context = none)
    (located : m.located error = .ok told) : ∃ entity, m.selfEntity = .ok entity ∧
      told = { error with context := some {
        function := some (m.program.functionName m.function)
        statement := some m.statement
        entity := some entity
        stack := m.stackTrace } } := by
  unfold Machine.located at located
  rw [new] at located
  simp only [context] at located
  cases found : m.selfEntity with
  | error stop =>
      rw [found] at located
      cases located
  | ok entity =>
      rw [found] at located
      cases located
      exact ⟨entity, rfl, rfl⟩

namespace Execution
variable {natives : Natives} {e : Execution}

theorem Dispatches.limit {function : FunctionId} {s : Nat} (dispatches : e.Dispatches natives function s) :
    0 < e.start.config.runawayLimit := by
  obtain ⟨p, ⟨first, begins, travels⟩, left, -⟩ := dispatches
  rw [← (begins_fetched natives begins).1]
  exact Nat.lt_of_lt_of_le left travels.budget_le

theorem raised_place (respect : natives.Respect .any) {function : FunctionId} {s : Nat}
    (dispatches : e.Dispatches natives function s) {error : Error} {m : Machine}
    (failed : e.performance natives = (.error (.error error), m)) :
    m.program = e.start.program ∧ (e.Dispatches natives m.function m.statement ∨
      (e.LastCalls natives m.function m.statement ∧ error.cause.isRunaway = true)) := by
  have limit := dispatches.limit
  obtain ⟨p, ⟨first, begins, travels⟩, -⟩ := dispatches
  rw [(begins_fetched natives begins).2.2] at failed
  exact reached_place respect limit ⟨first, begins, .stay _⟩ (begins_standing begins) failed

/-- The function and the statement that a new error is told with are those of a statement that the execution ran,
if it ran one. There is one exception: where the budget ends right after a call, the function is the one that was
called, and the statement is the caller's. -/
theorem failure_names_statement (respect : natives.Respect .any) {function : FunctionId} {s : Nat}
    (dispatches : e.Dispatches natives function s) {error told : Error} {m m' : Machine}
    (raises : e.Raises natives error m) (came : e.outcome natives = (.error (.error told), m')) :
    ∃ context function s, told.context = some context ∧
      context.function = some (e.start.program.functionName function) ∧ context.statement = some s ∧
        (e.Dispatches natives function s ∨
          (e.LastCalls natives function s ∧ told.cause.isRunaway = true)) := by
  obtain ⟨failed, new⟩ := raises
  obtain ⟨error', m'', failed', located⟩ := outcome_error (congrArg Prod.fst came)
  cases failed.symm.trans failed'
  obtain ⟨entity, -, rfl⟩ := located_new new located
  obtain ⟨program, ran⟩ := raised_place respect dispatches failed
  exact ⟨_, m.function, m.statement, rfl, program ▸ rfl, rfl, ran⟩

def relaying : Program where
  image := {
    statements := #[⟨0, 0, 0, 0⟩, ⟨51, 28, 0, 0⟩, ⟨0, 0, 0, 0⟩, ⟨0, 0, 0, 0⟩]
    functions := #[{}, { first := 1, parmStart := 29, name := ⟨1⟩ }, { first := 3, parmStart := 29, name := ⟨7⟩ }]
    globals := Array.replicate 28 ⟨0⟩ ++ #[⟨2⟩]
    strings := { StringPool.empty with data := "\x00outer\x00inner\x00" } }
  globals := {}
  fields := {}
  sound := by decide +kernel
  globals_eq := show _ = Image.systemGlobals _ from rfl
  fields_eq := show _ = Image.systemFields _ from rfl

theorem relaying_names : relaying.functionName ⟨1⟩ = "outer" ∧ relaying.functionName ⟨2⟩ = "inner" := by
  have outer : relaying.image.strings.resolve ⟨1⟩ = "outer" :=
    StringPool.resolve_stored "\x00" "inner\x00" rfl rfl (by simp [StringPool.Plain])
  have inner : relaying.image.strings.resolve ⟨7⟩ = "inner" :=
    StringPool.resolve_stored "\x00outer\x00" "" rfl rfl (by simp [StringPool.Plain])
  exact ⟨outer, inner⟩

def relayed (limit : Nat) : Execution := ⟨0, ⟨1⟩, .create relaying { runawayLimit := limit }⟩

theorem relayed_dispatches (limit : Nat) (some_ : 0 < limit) :
    (relayed limit).Dispatches .empty ⟨1⟩ 1 := by
  have admitted : ((relayed limit).ready { first := 1, parmStart := 29, name := ⟨1⟩ }).admission ⟨1⟩
      { first := 1, parmStart := 29, name := ⟨1⟩ } = .ok (#[], []) := rfl
  exact ⟨_, ⟨_, .entered rfl rfl admitted, .stay _⟩, some_, rfl, rfl, rfl⟩

theorem relayed_raises (limit : Nat) (runaway : ((relayed limit).outcome .empty).1.isRunaway = true)
    (new : ((relayed limit).performance .empty).1.isNew = true) :
    ∃ error m told m', (relayed limit).Raises .empty error m ∧ m.located error = .ok told ∧
      (relayed limit).outcome .empty = (.error (.error told), m') := by
  obtain ⟨error, m, raises⟩ := raises_iff.mpr new
  obtain ⟨_, stopped, told, rfl, -⟩ := (Outcome.isRunaway_iff _).mp runaway
  obtain ⟨_, _, failed, located⟩ := outcome_error stopped
  cases raises.1.symm.trans failed
  exact ⟨error, m, told, _, raises, located, eq_of_outcome stopped⟩

/-- With two statements the budget ends back in the caller. -/
theorem failure_names_statement_relayed :
    Natives.empty.Respect .any ∧ (relayed 2).Dispatches .empty ⟨1⟩ 1 ∧ ∃ error m told m',
      (relayed 2).Raises .empty error m ∧ (relayed 2).outcome .empty = (.error (.error told), m') ∧
        ∃ context function s, told.context = some context ∧
          context.function = some (relaying.functionName function) ∧ context.statement = some s ∧
            ((relayed 2).Dispatches .empty function s ∨
              ((relayed 2).LastCalls .empty function s ∧ told.cause.isRunaway = true)) := by
  have respect := Natives.empty_respect .any
  have dispatches := relayed_dispatches 2 (by decide)
  obtain ⟨error, m, told, m', raises, -, came⟩ := relayed_raises 2 (by decide +kernel) (by decide +kernel)
  exact ⟨respect, dispatches, error, m, told, m', raises, came,
    failure_names_statement respect dispatches raises came⟩

/-- With one statement it ends right after the call: the place told is the statement of the caller in the function
called, and all that was run was run by the caller. -/
theorem failure_names_callee :
    (relayed 1).Dispatches .empty ⟨1⟩ 1 ∧ (∃ error m told m' context, (relayed 1).Raises .empty error m ∧
      (relayed 1).outcome .empty = (.error (.error told), m') ∧ told.context = some context ∧
        context.function = some "inner" ∧ context.statement = some 1) ∧
      ∀ function s, (relayed 1).Dispatches .empty function s → relaying.functionName function = "outer" := by
  refine ⟨relayed_dispatches 1 (by decide), ?_, ?_⟩
  · obtain ⟨error, m, told, m', raises, located, came⟩ :=
      relayed_raises 1 (by decide +kernel) (by decide +kernel)
    have place : ((relayed 1).performance .empty).2.function = ⟨2⟩ ∧
        ((relayed 1).performance .empty).2.statement = 1 := by decide +kernel
    have program := (raised_place (Natives.empty_respect .any) (relayed_dispatches 1 (by decide)) raises.1).1
    rw [raises.1] at place
    obtain ⟨entity, -, rfl⟩ := located_new raises.2 located
    refine ⟨error, m, _, m', _, raises, came, rfl, ?_, congrArg some place.2⟩
    rw [program, place.1]
    exact congrArg some relaying_names.2
  · rintro function s ⟨p, ⟨first, begins, travels⟩, left, -, rfl, -⟩
    have full := (begins_fetched .empty begins).1
    cases travels with
    | stay =>
        cases begins with
        | entered => exact relaying_names.1
    | go _ _ tail =>
        have spent := tail.budget_le
        cases full
        exact absurd left (Nat.not_lt.mpr spent)

end Execution
end EntityMachine
