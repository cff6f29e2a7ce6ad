import EntityMachine.Proofs.Invariants
import EntityMachine.Proofs.NativeDiscipline
import Mathlib.Data.List.Forall2
import Mathlib.Logic.Relation

/-!
Executions seen from inside. A machine says only how an execution ends; this module names every moment
before that: the points between statements, the machines that native functions are handed and give back,
the executions that they start, and the machines on the way out after a failure. The stack discipline
then holds at each of them, and around each call.
-/
namespace EntityMachine
open Machine Run

/-- A loop between two statements: how many it may still run, the next one, and the machine. -/
structure Point where
  budget : Nat
  statement : Nat
  machine : Machine

/-- The loop gets from one point to another through machines with a property, the last one apart. -/
inductive Travels (natives : Natives) (reenter : FunctionId → Run Unit) (entryDepth : Nat)
    (along : Machine → Prop) : Point → Point → Prop
  | stay (p : Point) : Travels natives reenter entryDepth along p p
  | go {budget s next : Nat} {m m' : Machine} {q : Point} : along m →
      step natives reenter entryDepth s m = (.ok (some next), m') →
      Travels natives reenter entryDepth along ⟨budget, next, m'⟩ q →
      Travels natives reenter entryDepth along ⟨budget + 1, s, m⟩ q

theorem Travels.next {natives : Natives} {reenter : FunctionId → Run Unit} {entryDepth : Nat} {p q : Point}
    (travels : Travels natives reenter entryDepth (fun _ => True) p q) {budget next : Nat} {m' : Machine}
    (left : q.budget = budget + 1)
    (stepped : step natives reenter entryDepth q.statement q.machine = (.ok (some next), m')) :
    Travels natives reenter entryDepth (fun _ => True) p ⟨budget, next, m'⟩ := by
  induction travels with
  | stay p =>
      obtain ⟨b, s, m⟩ := p
      cases left
      exact .go trivial stepped (.stay _)
  | go _ first _ ih => exact .go trivial first (ih left stepped)

/-- An execution: how deep native functions may nest further ones in it, the function to run, and the
machine at the start. -/
structure Execution where
  nesting : Nat
  id : FunctionId
  start : Machine

namespace Execution

def reenter (natives : Natives) (e : Execution) : FunctionId → Run Unit := execute natives e.nesting

def outcome (natives : Natives) (e : Execution) : Outcome Unit × Machine :=
  execute natives (e.nesting + 1) e.id e.start

/-- What the function comes to before a failure is dealt with. -/
def performance (natives : Natives) (e : Execution) : Outcome Unit × Machine :=
  runFunction natives (e.reenter natives) e.id e.start

def ready (e : Execution) (f : Function) : Machine :=
  { e.start with argumentCount := f.numParms.toNat }

theorem performance_apply (natives : Natives) (e : Execution) :
    e.performance natives = match e.start.program.function e.id with
      | .error stop => (.error stop, e.start)
      | .ok f =>
        match f.nativeNumber? with
        | some number => callNative natives (e.reenter natives) e.id number (e.ready f)
        | none =>
          match (e.ready f).admission e.id f with
          | .ok (saved, moves) => loop natives (e.reenter natives) e.start.depth
              e.start.config.runawayLimit f.first.toNat ((e.ready f).entered e.id saved moves)
          | .error stop => (.error stop, e.ready f) :=
  runFunction_apply natives (e.reenter natives) e.id e.start

inductive Begins (e : Execution) : Point → Prop
  | entered {f saved moves} : e.start.program.function e.id = .ok f → f.nativeNumber? = none →
      (e.ready f).admission e.id f = .ok (saved, moves) →
      Begins e ⟨e.start.config.runawayLimit, f.first.toNat, (e.ready f).entered e.id saved moves⟩

def Reaches (natives : Natives) (e : Execution) (p : Point) : Prop :=
  ∃ first, e.Begins first ∧
    Travels natives (e.reenter natives) e.start.depth (fun _ => True) first p

theorem Reaches.next {natives : Natives} {e : Execution} {budget s next : Nat} {m m' : Machine}
    (reached : e.Reaches natives ⟨budget + 1, s, m⟩)
    (stepped : step natives (e.reenter natives) e.start.depth s m = (.ok (some next), m')) :
    e.Reaches natives ⟨budget, next, m'⟩ := by
  obtain ⟨first, begins, travels⟩ := reached
  exact ⟨first, begins, travels.next rfl stepped⟩

/-- A native function is run on a machine, as the function of the execution or by a statement. -/
inductive CallsOut (natives : Natives) (e : Execution) : Native → Machine → Prop
  | directly {f number g} : e.start.program.function e.id = .ok f → f.nativeNumber? = some number →
      natives.lookup number = .ok g → CallsOut natives e g ((e.ready f).handed e.id number g)
  | within {p : Point} {statement op callee arguments f number g} : e.Reaches natives p →
      0 < p.budget → p.machine.program.statement? p.statement = some statement →
      statement.opcode? = some op → p.machine.effect op statement = .ok (.call callee arguments) →
      p.machine.program.function callee = .ok f → f.nativeNumber? = some number →
      natives.lookup number = .ok g →
      CallsOut natives e g
        ({ p.machine.fetched p.statement statement with argumentCount := arguments }.handed
          callee number g)

end Execution

/-- What the native function comes to depends on running a function of the program on this machine. -/
def Native.Reenters (f : Native) (reenter : FunctionId → Run Unit) (m : Machine) (id : FunctionId)
    (m' : Machine) : Prop :=
  ∃ other : FunctionId → Run Unit,
    (∀ id₁ m₁, ¬ (id₁ = id ∧ m₁ = m') → other id₁ m₁ = reenter id₁ m₁) ∧
      f.run other m ≠ f.run reenter m

namespace Execution

/-- A native function of one execution starts another. -/
inductive Starts (natives : Natives) : Execution → Execution → Prop
  | reentered {nesting id start f m id' m'} :
      CallsOut natives ⟨nesting + 1, id, start⟩ f m →
      f.Reenters (execute natives (nesting + 1)) m id' m' →
      Starts natives ⟨nesting + 1, id, start⟩ ⟨nesting, id', m'⟩

/-- One execution runs while the other does, or is it. -/
def Inside (natives : Natives) : Execution → Execution → Prop := Relation.ReflTransGen (Starts natives)

/-- The machines of an execution of its own, from the start to the end. -/
inductive Moment (natives : Natives) (e : Execution) : Machine → Prop
  | start : Moment natives e e.start
  | point {p : Point} : e.Reaches natives p → Moment natives e p.machine
  | handed {f m} : e.CallsOut natives f m → Moment natives e m
  | returned {f m} : e.CallsOut natives f m → Returned (f.run (e.reenter natives) m).1 →
      Moment natives e (f.run (e.reenter natives) m).2
  | unwinding {error m} (count : Nat) : e.performance natives = (.error (.error error), m) →
      count ≤ m.depth - e.start.depth → Moment natives e (leaveMany count m).2
  | finished : Returned (e.outcome natives).1 → Moment natives e (e.outcome natives).2

end Execution

/-! ## Rows of saved cells -/

/-- The functions with a call under way, the outermost first. A frame names the function that ran before
its call, so the first name is that of whoever ran before all of them. -/
def Control.active (c : Control) : List FunctionId :=
  (c.calls.frames.toList.map Frame.function ++ [c.function]).tail

def Program.IsRow (p : Program) (id : FunctionId) (row : Array Cell) : Prop :=
  ∃ f, p.function id = .ok f ∧ f.nativeNumber? = none ∧ row.size = f.locals.toNat

/-- The saved cells are the ranges of the active functions, one row after the other. -/
def Control.Layered (c : Control) : Prop :=
  ∃ rows : List (Array Cell), List.Forall₂ c.program.IsRow c.active rows ∧
    c.locals.cells.toList = rows.flatMap Array.toList

theorem Control.enter_active (c : Control) (a : Activation) :
    (c.enter a).active = c.active ++ [a.id] := by
  have names : (c.calls.frames.toList.map Frame.function ++ [c.function]) ≠ [] := by simp
  simp only [active, enter, CallStack.add, Array.toList_push, List.map_append, List.map_cons,
    List.map_nil]
  rw [List.tail_append_of_ne_nil names]

theorem Control.enter_layered {c : Control} {a : Activation} (layered : c.Layered)
    (fits : a.Fits c.program) : (c.enter a).Layered := by
  obtain ⟨rows, matched, flat⟩ := layered
  -- The new row goes last, with the function that it was saved for.
  refine ⟨rows ++ [a.saved], ?_, ?_⟩
  · rw [enter_active]
    refine List.rel_append matched (.cons ⟨a.body, ?_⟩ .nil)
    exact ⟨fits.function, fits.ours, fits.extent⟩
  · simp only [enter, LocalsStack.add, Array.toList_append, flat, List.flatMap_append,
      List.flatMap_cons, List.flatMap_nil, List.append_nil]

theorem Control.inside_layered {base : Control} {calls : List Activation} (layered : base.Layered)
    (fits : ∀ a ∈ calls, a.Fits base.program) : (base.inside calls).Layered := by
  induction calls with
  | nil => exact layered
  | cons a outer ih =>
      refine enter_layered (ih fun b member => fits b (List.mem_cons_of_mem a member)) ?_
      rw [inside_program]
      exact fits a List.mem_cons_self

/-- The stacks keep their limits, stay within them, and the saved cells are layered. -/
structure Control.Coherent (depthLimit savedLimit : Nat) (c : Control) : Prop where
  depthLimit : c.calls.limit = depthLimit
  savedLimit : c.locals.limit = savedLimit
  bounded : c.Bounded
  layered : c.Layered

def Machine.Coherent (m : Machine) : Prop :=
  m.control.Coherent m.config.maxCallDepth m.config.localsCells

theorem Machine.create_coherent (program : Program) (config : MachineConfig) :
    (create program config).Coherent where
  depthLimit := rfl
  savedLimit := rfl
  bounded := ⟨Nat.zero_le _, Nat.zero_le _⟩
  layered := ⟨[], .nil, rfl⟩

theorem Stacked.coherent {base : Control} {calls : List Activation} {m : Machine}
    {depthLimit savedLimit : Nat} (stacked : Stacked base calls m)
    (below : base.Coherent depthLimit savedLimit) : m.control.Coherent depthLimit savedLimit := by
  have limits := base.inside_limits calls
  have layered := Control.inside_layered below.layered stacked.fits
  refine ⟨?_, ?_, stacked.bounded below.bounded, ?_⟩
  · rw [stacked.control, ← below.depthLimit]
    exact limits.1
  · rw [stacked.control, ← below.savedLimit]
    exact limits.2
  · rw [stacked.control]
    exact layered

/-! ## Invariants at every statement -/

section Invariants
variable {ι : Type} {natives : Natives} {inv : ι → Durable → Prop}

theorem Travels.preserves {reenter : FunctionId → Run Unit} {entryDepth : Nat} {along : Machine → Prop}
    {p q : Point} (travels : Travels natives reenter entryDepth along p q)
    (preserve : natives.Preserve (fun _ => True) inv)
    (deeper : ∀ i id, (reenter id).Preserves (fun _ => True) fun m => inv i m.durable) {i : ι}
    (holds : inv i p.machine.durable) : inv i q.machine.durable := by
  induction travels with
  | stay p => exact holds
  | @go budget s next m m' q _ stepped _ ih =>
      have kept := step_preserves preserve deeper entryDepth s i m holds fun _ _ => trivial
      rw [stepped] at kept
      exact ih kept

theorem Execution.reached_preserves {e : Execution} {p : Point} (reached : e.Reaches natives p)
    (preserve : natives.Preserve (fun _ => True) inv) {i : ι} (holds : inv i e.start.durable) :
    inv i p.machine.durable := by
  obtain ⟨first, begins, travels⟩ := reached
  refine travels.preserves preserve (fun i id => execute_preserves (fun _ => trivial) preserve _ id i) ?_
  cases begins with
  | @entered f saved moves _ _ _ =>
      rw [entered_durable]
      exact holds

end Invariants

/-! ## The discipline at every moment -/

section Discipline
variable {natives : Natives} (respect : natives.Respect .any)
include respect

theorem Execution.keeps (e : Execution) (c : Control) (id : FunctionId) :
    (e.reenter natives id).RestoresFrom .any c := by
  intro m here good
  obtain ⟨stops, back⟩ := execute_back respect.restore trivial e.nesting id m good
  exact ⟨stops, fun returned => ⟨(back returned).1.control.trans here, good⟩⟩

theorem Execution.runs (e : Execution) (base : Control) :
    natives.RestoreInside .any (e.reenter natives) base :=
  fun number f c known _ _ _ => respect.restore number f known c _ (e.keeps respect c)

theorem Travels.stacked {e : Execution} (base : Control) {along : Machine → Prop} {p q : Point}
    (travels : Travels natives (e.reenter natives) base.calls.depth along p q) {a : Activation}
    {outer : List Activation} (stacked : Stacked base (a :: outer) p.machine) :
    ∃ b rest, Stacked base (b :: rest) q.machine := by
  induction travels generalizing a outer with
  | stay p => exact ⟨a, outer, stacked⟩
  | @go budget s next m m' q here stepped tail ih =>
      have advance := step_advances (s := s) (e.runs respect base) stacked trivial
      rw [stepped] at advance
      cases advance with
      | stays inside => exact ih inside
      | enters _ _ _ inside => exact ih inside
      | leaves more left =>
          cases outer with
          | nil => exact absurd rfl more
          | cons b rest => exact ih left.stacked

omit respect in
theorem Execution.begins_stacked {e : Execution} {p : Point} (begins : e.Begins p) :
    ∃ a, Stacked e.start.control [a] p.machine := by
  cases begins with
  | @entered f saved moves found ours admitted =>
      exact ⟨_, (entered_stacked (m := e.ready f) (Stacked.of_control (c := e.start.control) rfl)
        found ours admitted).1⟩

theorem Execution.reached_stacked {e : Execution} {p : Point} (reached : e.Reaches natives p) :
    ∃ a outer, Stacked e.start.control (a :: outer) p.machine := by
  obtain ⟨first, begins, travels⟩ := reached
  obtain ⟨a, stacked⟩ := begins_stacked begins
  exact Travels.stacked respect e.start.control travels stacked

omit respect in
theorem Execution.CallsOut.known {e : Execution} {f : Native} {m : Machine}
    (called : e.CallsOut natives f m) : ∃ number, natives.lookup number = .ok f := by
  cases called with
  | directly _ _ known => exact ⟨_, known⟩
  | within _ _ _ _ _ _ _ known => exact ⟨_, known⟩

theorem Execution.handed_stacked {e : Execution} {f : Native} {m : Machine}
    (called : e.CallsOut natives f m) : ∃ calls, Stacked e.start.control calls m := by
  cases called with
  | directly => exact ⟨[], Stacked.of_control rfl⟩
  | within reached =>
      obtain ⟨a, outer, stacked⟩ := reached_stacked respect reached
      exact ⟨a :: outer, stacked.transfer rfl⟩

omit respect in
theorem leaveMany_stacked {base : Control} {calls : List Activation} {m : Machine} (count : Nat)
    (some_left : count ≤ calls.length) (stacked : Stacked base calls m) :
    ∃ rest, Stacked base rest (leaveMany count m).2 := by
  induction count generalizing calls m with
  | zero => exact ⟨calls, stacked⟩
  | succ count ih =>
      cases calls with
      | nil => exact absurd some_left (Nat.not_succ_le_zero count)
      | cons a outer =>
          simp only [leaveMany, bind_apply, attempt_apply, leave_apply]
          have fine : Policy.any.good m := trivial
          rcases departure_restores stacked fine with ⟨frame, -, leaving, left, -⟩ | ⟨-, leaving⟩
          · simp only [leaving]
            exact ih (Nat.le_of_succ_le_succ some_left) left.stacked
          · simp only [leaving]
            exact ⟨a :: outer, stacked⟩

theorem Execution.moment_stacked {e : Execution} {m : Machine} (moment : e.Moment natives m) :
    ∃ calls, Stacked e.start.control calls m := by
  cases moment with
  | start => exact ⟨[], Stacked.of_control rfl⟩
  | point reached =>
      obtain ⟨a, outer, stacked⟩ := reached_stacked respect reached
      exact ⟨a :: outer, stacked⟩
  | handed called => exact handed_stacked respect called
  | @returned f m called returned =>
      obtain ⟨calls, stacked⟩ := handed_stacked respect called
      obtain ⟨number, known⟩ := called.known
      have restored := (respect.restore number f known m.control _ (e.keeps respect m.control)) m rfl
      exact ⟨calls, stacked.same ((restored trivial).2 returned).1⟩
  -- On the way out the calls go one by one, and no more of them than were entered.
  | @unwinding error m count failed deep =>
      have performed := runFunction_performs e.id e.start trivial
        (fun number f g _ _ known => respect.restore number g known _ _ (e.keeps respect _))
        (fun _ => e.runs respect e.start.control)
      rw [show runFunction natives (e.reenter natives) e.id e.start = _ from failed] at performed
      cases performed with
      | fails _ _ inside =>
          refine leaveMany_stacked count ?_ inside
          rw [inside.depth_eq] at deep
          exact Nat.le_trans deep (Nat.le_of_eq (Nat.add_sub_cancel_left _ _))
      | stops silent => exact absurd trivial silent
  | finished returned =>
      obtain ⟨-, back⟩ := execute_back respect.restore trivial (e.nesting + 1) e.id e.start trivial
      exact ⟨[], Stacked.of_control (back returned).1.control⟩

/-- A native function starts executions only on the stacks that it was handed: were the stacks others, it could not
tell two ways to run the function apart. -/
theorem Execution.reenters_control (e : Execution) {number : Nat} {f : Native}
    (known : natives.lookup number = .ok f) {m m' : Machine} {id : FunctionId}
    (reenters : f.Reenters (e.reenter natives) m id m') : m'.control = m.control := by
  obtain ⟨other, same, different⟩ := reenters
  refine Classical.byContradiction fun away => different ?_
  have agree (id₁ : FunctionId) (m₁ : Machine) (there : m₁.control = m.control) (_ : True) :
      other id₁ m₁ = e.reenter natives id₁ m₁ := by
    refine same id₁ m₁ fun met => away ?_
    rw [← met.2, there]
  exact (respect number f known).2 m.control _ other (e.keeps respect m.control) agree m rfl trivial

theorem Execution.starts_stacked {e inner : Execution} (starts : e.Starts natives inner) :
    ∃ calls, Stacked e.start.control calls inner.start := by
  cases starts with
  | @reentered nesting id start f m id' m' called reenters =>
      obtain ⟨calls, stacked⟩ := handed_stacked respect called
      obtain ⟨number, known⟩ := called.known
      exact ⟨calls, stacked.same (reenters_control respect ⟨nesting + 1, id, start⟩ known reenters)⟩

theorem Execution.inside_coherent {e inner : Execution} {depthLimit savedLimit : Nat}
    (inside : e.Inside natives inner) (coherent : e.start.control.Coherent depthLimit savedLimit) :
    inner.start.control.Coherent depthLimit savedLimit := by
  induction inside with
  | refl => exact coherent
  | tail _ starts ih =>
      obtain ⟨calls, stacked⟩ := starts_stacked respect starts
      exact stacked.coherent ih

theorem Travels.returns {e : Execution} (base : Control) {b : Activation} {rest : List Activation}
    {p q : Point}
    (travels : Travels natives (e.reenter natives) base.calls.depth
      (base.calls.depth + rest.length < ·.depth) p q)
    (level : q.machine.depth = base.calls.depth + rest.length) (within : List Activation)
    (stacked : Stacked base (within ++ b :: rest) p.machine) :
    Left base b rest q.machine ∧ q.statement = b.caller + 1 := by
  -- Over the run, with the calls made since the one in question: while there are any, the depth is
  -- still too large, so the first step back to the level is that call returning.
  induction travels generalizing within with
  | stay p =>
      rw [stacked.depth_eq, List.length_append, List.length_cons] at level
      omega
  | @go budget s next m m' q here stepped tail ih =>
      cases within with
      | nil =>
          have advance := step_advances (s := s) (e.runs respect base) stacked trivial
          rw [stepped] at advance
          cases advance with
          | stays inside => exact ih level [] inside
          | enters _ _ _ inside => exact ih level [_] inside
          | leaves more left =>
              cases tail with
              | stay => exact ⟨left, rfl⟩
              | go deeper =>
                  rw [left.stacked.depth_eq] at deeper
                  exact absurd deeper (Nat.lt_irrefl _)
      | cons c deeper =>
          have advance := step_advances (s := s) (e.runs respect base) stacked trivial
          rw [stepped] at advance
          cases advance with
          | stays inside => exact ih level (c :: deeper) inside
          | enters _ _ _ inside => exact ih level (_ :: c :: deeper) inside
          | leaves more left => exact ih level deeper left.stacked

end Discipline

theorem step_enters {natives : Natives} {reenter : FunctionId → Run Unit} {entryDepth s : Nat}
    {m m' : Machine} {id : FunctionId} {f : Function} {next : Option Nat} (calls : m.CallsAt s id f)
    (ours : f.nativeNumber? = none) (stepped : step natives reenter entryDepth s m = (.ok next, m')) :
    ∃ (ready : Machine) (saved : Array Cell) (moves : List Move),
      ready.control = m.control.goto s ∧ ready.globals = m.globals ∧
        ready.admission id f = .ok (saved, moves) ∧ m' = ready.entered id saved moves := by
  obtain ⟨statement, op, arguments, found, known, asked, target⟩ := calls
  have function : (m.fetched s statement).program.function id = .ok f := target
  rw [step_apply] at stepped
  simp only [found, known, asked] at stepped
  split at stepped
  · simp only [perform_call, function, ours] at stepped
    generalize ready_eq : { m.fetched s statement with argumentCount := arguments } = ready at stepped
    cases admitted : ready.admission id f with
    | error stop =>
        rw [admitted] at stepped
        cases stepped
    | ok entry =>
        obtain ⟨saved, moves⟩ := entry
        rw [admitted] at stepped
        refine ⟨ready, saved, moves, ?_, ?_, admitted, (congrArg Prod.snd stepped).symm⟩
        · rw [← ready_eq]
          rfl
        · rw [← ready_eq]
          rfl
  · cases stepped

namespace Execution

/-- The loop is at a statement that calls a program function, and next at the caller's depth later. -/
structure CallReturns (natives : Natives) (e : Execution) (id : FunctionId) (f : Function)
    (p q : Point) : Prop where
  reached : e.Reaches natives p
  calls : p.machine.CallsAt p.statement id f
  ours : f.nativeNumber? = none
  inside : ∃ budget next m', p.budget = budget + 1 ∧
    step natives (e.reenter natives) e.start.depth p.statement p.machine = (.ok (some next), m') ∧
    Travels natives (e.reenter natives) e.start.depth (p.machine.depth < ·.depth) ⟨budget, next, m'⟩ q
  level : q.machine.depth = p.machine.depth

theorem call_returns {natives : Natives} (respect : natives.Respect .any) {e : Execution}
    {id : FunctionId} {f : Function} {p q : Point} (returns : e.CallReturns natives id f p q) :
    q.statement = p.statement + 1 ∧ q.machine.control = p.machine.control.goto p.statement ∧
      q.machine.globals.slice? f.localsStart f.localsEnd =
        p.machine.globals.slice? f.localsStart f.localsEnd := by
  obtain ⟨reached, calls, ours, ⟨budget, next, m', -, stepped, travels⟩, level⟩ := returns
  obtain ⟨a, outer, stacked⟩ := reached_stacked respect reached
  obtain ⟨ready, saved, moves, arrived, globals, admitted, rfl⟩ := step_enters calls ours stepped
  have statement : ready.statement = p.statement := congrArg Control.statement arrived
  have before : Stacked e.start.control (a :: outer) ready :=
    stacked.transfer (by rw [arrived, statement])
  have function : ready.program.function id = .ok f := by
    obtain ⟨_, _, _, _, _, _, target⟩ := calls
    rw [show ready.program = p.machine.program from congrArg Control.program arrived, target]
  obtain ⟨entered, row⟩ := entered_stacked before function ours admitted
  rw [stacked.depth_eq] at travels level
  obtain ⟨left, after⟩ := Travels.returns respect e.start.control
    travels level [] entered
  rw [statement] at left after
  refine ⟨after, ?_, ?_⟩
  · rw [left.stacked.control, left.statement, stacked.control]
    rfl
  · rw [← globals, row]
    exact left.restored

/-- An execution that returns, with success or with an error, leaves the stacks as it found them and the
cells of its function as they were; so does every call inside, once it returns. The stacks never run
empty, unless a native function says so of itself, and at no moment do they pass their limits. -/
theorem stack_discipline {natives : Natives} (respect : natives.Respect .any) (e : Execution)
    (coherent : e.start.Coherent) :
    (Returned (e.outcome natives).1 → Back e.id e.start (e.outcome natives).2) ∧
      (natives.Restore .noUnderflow → ∀ failure,
        (e.outcome natives).1 = .error (.error failure) → failure.cause.isUnderflow = false) ∧
      (∀ inner m, e.Inside natives inner → inner.Moment natives m →
        m.depth ≤ e.start.config.maxCallDepth ∧ m.locals.size ≤ e.start.config.localsCells ∧
          m.control.Layered) ∧
      ∀ inner id f p q, e.Inside natives inner → inner.CallReturns natives id f p q →
        q.statement = p.statement + 1 ∧ q.machine.control = p.machine.control.goto p.statement ∧
          q.machine.globals.slice? f.localsStart f.localsEnd =
            p.machine.globals.slice? f.localsStart f.localsEnd := by
  refine ⟨fun returned => ?_, fun discreet failure failed => ?_, fun inner m inside moment => ?_,
    fun _ _ _ _ _ _ => ?_⟩
  · have back := (execute_back respect.restore trivial (e.nesting + 1) e.id e.start trivial).2
    exact (back returned).1
  · have stops := (execute_back discreet (fun _ same => nomatch same) (e.nesting + 1) e.id e.start
      trivial).1
    rw [show execute natives (e.nesting + 1) e.id e.start = e.outcome natives from rfl, failed] at stops
    exact stops failure rfl
  · obtain ⟨calls, stacked⟩ := moment_stacked respect moment
    have here := stacked.coherent (inside_coherent respect inside coherent)
    exact ⟨here.depthLimit ▸ here.bounded.calls, here.savedLimit ▸ here.bounded.locals, here.layered⟩
  · exact call_returns respect

/-- The first function calls a function that returns at once. Then it hands one that calls itself without
end to a native function that catches errors. -/
def retrying : Program where
  image := {
    statements := #[⟨0, 0, 0, 0⟩, ⟨51, 31, 0, 0⟩, ⟨52, 28, 0, 0⟩, ⟨0, 29, 0, 0⟩, ⟨51, 30, 0, 0⟩]
    functions := #[{}, { first := 1, parmStart := 28, locals := 2 }, { first := -1 },
      { first := 4, parmStart := 28, locals := 4 }, { first := 3, parmStart := 27, locals := 3 }]
    globals := Array.replicate 4 ⟨0⟩ ++ #[⟨3⟩] ++ Array.replicate 23 ⟨0⟩ ++ #[⟨2⟩, ⟨7⟩, ⟨3⟩, ⟨4⟩] }
  globals := {}
  fields := {}
  sound := by decide +kernel
  globals_eq := show _ = Image.systemGlobals _ from rfl
  fields_eq := show _ = Image.systemFields _ from rfl

theorem stack_discipline_retrying :
    let natives := Natives.empty.register 1 ⟨"try0", Samples.tryFirst⟩
    let e : Execution := ⟨1, ⟨1⟩, .create retrying { maxCallDepth := 4 }⟩
    natives.Respect .any ∧ natives.Restore .noUnderflow ∧
      e.start.Coherent ∧ (e.outcome natives).1.isOk = true ∧ Back e.id e.start (e.outcome natives).2 ∧
      ∃ f p q, e.CallReturns natives ⟨4⟩ f p q ∧ q.statement = p.statement + 1 := by
  intro natives e
  have respect (policy : Policy) : natives.Respect policy :=
    Natives.register_respect (Natives.empty_respect policy)
      (Native.respects_of_matches fun c _ _ nested => Samples.tryFirst_matches nested) 1
  have coherent := create_coherent retrying { maxCallDepth := 4 }
  have succeeds : (e.outcome natives).1.isOk = true := by decide +kernel
  have laws := stack_discipline (respect .any) e coherent
  let outer : Function := { first := 1, parmStart := 28, locals := 2 }
  let entered := (e.ready outer).entered ⟨1⟩ #[⟨2⟩, ⟨7⟩] []
  let called := step natives (e.reenter natives) e.start.depth 1 entered
  let back := step natives (e.reenter natives) e.start.depth 3 called.2
  have admitted : (e.ready outer).admission ⟨1⟩ outer = .ok (#[⟨2⟩, ⟨7⟩], []) := by decide +kernel
  have entry : called.1 = .ok (some 3) := by decide +kernel
  have exit : back.1 = .ok (some 2) := by decide +kernel
  have deeper : entered.depth < called.2.depth := by decide +kernel
  have travels : Travels natives (e.reenter natives) e.start.depth (entered.depth < ·.depth)
      ⟨99998 + 1, 3, called.2⟩ ⟨99998, 2, back.2⟩ := .go deeper (eq_of_outcome exit) (.stay _)
  have call : e.CallReturns natives ⟨4⟩ { first := 3, parmStart := 27, locals := 3 }
      ⟨100000, 1, entered⟩ ⟨99998, 2, back.2⟩ := {
    reached := ⟨_, .entered (by decide +kernel) rfl admitted, .stay _⟩
    calls := ⟨⟨51, 31, 0, 0⟩, .call 0, 0, by decide +kernel, rfl, by decide +kernel, by decide +kernel⟩
    ours := rfl
    inside := ⟨99999, 3, called.2, rfl, eq_of_outcome entry, travels⟩
    level := by decide +kernel }
  exact ⟨respect .any, (respect .noUnderflow).restore, coherent, succeeds,
    laws.1 (returned_of_isOk succeeds), _, _, _, call, (laws.2.2.2 e _ _ _ _ .refl call).1⟩

end Execution
end EntityMachine
