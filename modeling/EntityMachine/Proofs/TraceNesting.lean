import EntityMachine.Proofs.Interplay
import EntityMachine.Proofs.TraceBuffers

/-!
Traces of executions. An observer that follows the events of an execution always knows which functions are
open: what is left is what was entered last, each event has the depth of its place, and in the end nothing
is open, however the execution ends and whatever runs inside it.
-/
namespace EntityMachine
open Machine Run

/-! ## Well-nested events -/

/-- What is open after an event, the innermost function first, if the event is one that may come where so
much is open above the depth of entry. -/
def TraceEvent.follow? (entry : Nat) (opened : List (FunctionId × String)) (event : TraceEvent) :
    Option (List (FunctionId × String)) :=
  match event, opened with
  | .enter id name depth, opened =>
    if depth = entry + opened.length + 1 then some ((id, name) :: opened) else none
  | .leave id name depth, innermost :: outer =>
    if (id, name) = innermost ∧ depth = entry + outer.length then some outer else none
  | .statement _ id depth _, innermost :: outer =>
    if id = innermost.1 ∧ depth = entry + outer.length + 1 then some (innermost :: outer) else none
  | .native _ _, opened => some opened
  | _, [] => none

/-- Every function that is entered is left again, in the opposite order, and each event has the function and
the depth of its place. -/
def WellNested (entry : Nat) (events : List TraceEvent) : Prop :=
  events.foldlM (TraceEvent.follow? entry) [] = some []

instance (entry : Nat) (events : List TraceEvent) : Decidable (WellNested entry events) :=
  inferInstanceAs (Decidable (_ = _))

example : WellNested 3 [.enter ⟨1⟩ "outer" 4, .enter ⟨2⟩ "inner" 5, .leave ⟨2⟩ "inner" 4, .leave ⟨1⟩ "outer" 3] ∧
    ¬ WellNested 3 [.enter ⟨1⟩ "outer" 4, .enter ⟨2⟩ "inner" 5, .leave ⟨1⟩ "outer" 4, .leave ⟨2⟩ "inner" 3] := by
  decide +kernel

theorem TraceEvent.follow?_above {entry : Nat} {opened opened' below : List (FunctionId × String)}
    {event : TraceEvent} (follows : event.follow? (entry + below.length) opened = some opened') :
    event.follow? entry (opened ++ below) = some (opened' ++ below) := by
  have depth (rest : List (FunctionId × String)) :
      entry + (rest ++ below).length = entry + below.length + rest.length := by
    rw [List.length_append]
    omega
  cases event with
  | native number name =>
      cases opened <;> cases follows <;> rfl
  | enter id name d =>
      simp only [TraceEvent.follow?, Option.ite_none_right_eq_some, Option.some.injEq] at follows
      obtain ⟨place, rfl⟩ := follows
      simp only [TraceEvent.follow?, depth, if_pos place, List.cons_append]
  | leave id name d =>
      cases opened with
      | nil => cases follows
      | cons innermost outer =>
          simp only [TraceEvent.follow?, Option.ite_none_right_eq_some, Option.some.injEq] at follows
          obtain ⟨place, rfl⟩ := follows
          simp only [TraceEvent.follow?, List.cons_append, depth, if_pos place]
  | statement index id d text =>
      cases opened with
      | nil => cases follows
      | cons innermost outer =>
          simp only [TraceEvent.follow?, Option.ite_none_right_eq_some, Option.some.injEq] at follows
          obtain ⟨place, rfl⟩ := follows
          simp only [TraceEvent.follow?, List.cons_append, depth, if_pos place]

theorem followed_above {entry : Nat} {opened opened' below : List (FunctionId × String)}
    {events : List TraceEvent}
    (follows : events.foldlM (TraceEvent.follow? (entry + below.length)) opened = some opened') :
    events.foldlM (TraceEvent.follow? entry) (opened ++ below) = some (opened' ++ below) := by
  induction events generalizing opened with
  | nil =>
      cases follows
      rfl
  | cons event rest ih =>
      rw [List.foldlM_cons] at follows ⊢
      cases first : event.follow? (entry + below.length) opened with
      | none =>
          rw [first] at follows
          cases follows
      | some middle =>
          rw [first] at follows
          rw [TraceEvent.follow?_above first]
          exact ih follows

theorem WellNested.append {entry : Nat} {events more : List TraceEvent} (first : WellNested entry events)
    (second : WellNested entry more) : WellNested entry (events ++ more) := by
  unfold WellNested at first ⊢
  rw [List.foldlM_append, first]
  exact second

/-! ## What is open -/

namespace Control

theorem active_length (c : Control) : c.active.length = c.calls.depth := by
  simp [active, CallStack.depth]

end Control

namespace Machine

/-- The functions with a call under way above a depth, with their names, the innermost first. -/
def opened (m : Machine) (entry : Nat) : List (FunctionId × String) :=
  ((m.control.active.drop entry).map fun id => (id, m.program.functionName id)).reverse

theorem opened_length (m : Machine) (entry : Nat) : (m.opened entry).length = m.depth - entry := by
  rw [opened, List.length_reverse, List.length_map, List.length_drop, Control.active_length]
  rfl

theorem opened_depth (m : Machine) : m.opened m.depth = [] := by
  rw [← List.length_eq_zero_iff, opened_length, Nat.sub_self]

theorem opened_of_control {m m' : Machine} (same : m'.control = m.control) (entry : Nat) :
    m'.opened entry = m.opened entry := by
  rw [opened, opened, same, show m'.program = m.program from congrArg Control.program same]

theorem active_innermost {m m' : Machine} {id : FunctionId} {entry : Nat} (deep : entry ≤ m.depth)
    (active : m'.control.active = m.control.active ++ [id]) (program : m'.program = m.program) :
    m'.opened entry = (id, m.program.functionName id) :: m.opened entry := by
  have inside : entry ≤ m.control.active.length := by
    rw [Control.active_length]
    exact deep
  rw [opened, opened, active, program, List.drop_append_of_le_length inside, List.map_append,
    List.reverse_append]
  rfl

theorem opened_running {m : Machine} {entry : Nat} (deep : entry < m.depth) :
    ∃ outer, m.opened entry = (m.function, m.program.functionName m.function) :: outer := by
  have running : ∃ callers, m.control.active = callers ++ [m.function] := by
    change ∃ callers, (m.calls.frames.toList.map Frame.function ++ [m.function]).tail = _
    cases frames : m.calls.frames.toList with
    | nil =>
        have none_ : m.depth = 0 := congrArg List.length frames
        omega
    | cons frame rest => exact ⟨rest.map Frame.function, rfl⟩
  obtain ⟨callers, active⟩ := running
  have inside : entry ≤ callers.length := by
    have lengths := congrArg List.length active
    rw [Control.active_length, List.length_append] at lengths
    have whole : m.control.calls.depth = m.depth := rfl
    simp only [List.length_cons, List.length_nil] at lengths
    omega
  rw [opened, active, List.drop_append_of_le_length inside, List.map_append, List.reverse_append]
  exact ⟨_, rfl⟩

theorem entered_active (m : Machine) (id : FunctionId) (saved : Array Cell) (moves : List Move) :
    (m.entered id saved moves).control.active = m.control.active ++ [id] :=
  m.control.enter_active { caller := m.statement, id := id, body := default, saved := saved }

theorem departure_frame {m : Machine} {f : Function} {saved : Array Cell} {frame : Frame}
    (leaving : m.departure = .ok (f, saved, frame)) : m.calls.frames.back? = some frame := by
  revert leaving
  unfold departure
  cases m.calls.isEmpty with
  | true => nofun
  | false =>
      cases m.program.function m.function with
      | error stop => nofun
      | ok g =>
          simp only [Bool.false_eq_true, ↓reduceIte, Outcome.pure_eq, Outcome.ok_bind]
          cases m.locals.top g.locals.toNat with
          | error stop => nofun
          | ok cells =>
              simp only [Outcome.ok_bind]
              by_cases outside : m.globals.size < g.localsStart + g.locals.toNat
              · simp only [outside, ↓reduceIte, Outcome.throw_eq, Outcome.error_bind]
                nofun
              · simp only [outside, ↓reduceIte]
                unfold CallStack.top
                cases m.calls.frames.back? with
                | none => nofun
                | some top =>
                    rintro ⟨⟩
                    rfl

theorem departed_active {m : Machine} {f : Function} {saved : Array Cell} {frame : Frame}
    (leaving : m.departure = .ok (f, saved, frame)) :
    m.control.active = (m.departed f saved frame).control.active ++ [m.function] := by
  obtain ⟨frames, same⟩ := Array.back?_eq_some_iff.mp (departure_frame leaving)
  have before : m.control.active = (m.calls.frames.toList.map Frame.function ++ [m.function]).tail := rfl
  have after : (m.departed f saved frame).control.active =
      (m.calls.frames.pop.toList.map Frame.function ++ [frame.function]).tail := rfl
  rw [before, after, same, Array.pop_push, Array.toList_push, List.map_append]
  exact List.tail_append_of_ne_nil (by simp)

theorem departed_depth {m : Machine} {f : Function} {saved : Array Cell} {frame : Frame}
    (leaving : m.departure = .ok (f, saved, frame)) : m.depth = (m.departed f saved frame).depth + 1 := by
  have lengths := congrArg List.length (departed_active leaving)
  rw [List.length_append, Control.active_length, Control.active_length] at lengths
  exact lengths

theorem traced_tracer {m : Machine} (on : m.tracing = true) {kind : String} {event : Machine → TraceEvent}
    (named : (event m).kind = kind) :
    (m.traced kind event).tracer = m.tracer.map fun t => t.record (event m) := by
  change m.tracerAfter kind event = _
  cases installed : m.tracer with
  | none => simp [tracerAfter, on, installed]
  | some tracer =>
      simp only [tracerAfter, on, installed, Option.map_some, Tracer.record, named]
      split <;> rfl

end Machine

/-! ## Telling -/

theorem told_append {heard heard' heard'' : Option Tracer} {events more : List TraceEvent}
    (first : heard' = heard.map (events.foldl Tracer.record ·))
    (second : heard'' = heard'.map (more.foldl Tracer.record ·)) :
    heard'' = heard.map ((events ++ more).foldl Tracer.record ·) := by
  rw [second, first, Option.map_map]
  simp only [List.foldl_append]
  rfl

/-- What the tracer is told between two machines leads from what is open in the one to what is open in the
other. -/
def Tells (entry : Nat) (m m' : Machine) : Prop :=
  ∃ events : List TraceEvent, m'.tracer = m.tracer.map (events.foldl Tracer.record ·) ∧
    events.foldlM (TraceEvent.follow? entry) (m.opened entry) = some (m'.opened entry)

namespace Tells
variable {entry : Nat} {m m₁ m₂ m' : Machine}

theorem of_same (tracer : m'.tracer = m.tracer) (control : m'.control = m.control) : Tells entry m m' := by
  refine ⟨[], ?_, ?_⟩
  · simp [tracer]
  · rw [opened_of_control control]
    rfl

theorem of_event (event : TraceEvent) (tracer : m'.tracer = m.tracer.map (·.record event))
    (follows : event.follow? entry (m.opened entry) = some (m'.opened entry)) : Tells entry m m' :=
  ⟨[event], tracer, by rw [List.foldlM_cons, follows]; rfl⟩

theorem trans (first : Tells entry m m₁) (second : Tells entry m₁ m₂) : Tells entry m m₂ := by
  obtain ⟨events, tracer, follows⟩ := first
  obtain ⟨more, tracer', follows'⟩ := second
  refine ⟨events ++ more, told_append tracer tracer', ?_⟩
  rw [List.foldlM_append, follows]
  exact follows'

theorem entered (on : m.tracing = true) (deep : entry ≤ m.depth) (id : FunctionId) (saved : Array Cell)
    (moves : List Move) : Tells entry m (m.entered id saved moves) := by
  have depth : (m.entered id saved moves).depth = m.depth + 1 := Array.size_push _
  refine of_event (.enter id (m.program.functionName id) (m.entered id saved moves).depth) ?_ ?_
  · exact traced_tracer (m := { m with
      globals := m.globals.moveAll moves
      locals := m.locals.add saved
      calls := m.calls.add { returnStatement := m.statement, function := m.function }
      function := id
      profile := m.profile.countCall id }) on rfl
  · rw [active_innermost deep (m.entered_active id saved moves) rfl, TraceEvent.follow?, opened_length,
      if_pos (by omega)]

theorem departed (on : m.tracing = true) (deep : entry < m.depth) {f : Function} {saved : Array Cell}
    {frame : Frame} (leaving : m.departure = .ok (f, saved, frame)) :
    Tells entry m (m.departed f saved frame) := by
  have active := departed_active leaving
  have depth := departed_depth leaving
  refine of_event (.leave m.function (m.program.functionName m.function) (m.departed f saved frame).depth) ?_ ?_
  · exact traced_tracer (m := { m with
      globals := m.globals.overwrite f.localsStart saved
      locals := m.locals.dropTop f.locals.toNat
      calls := m.calls.dropTop
      function := frame.function
      statement := frame.returnStatement }) on rfl
  · rw [active_innermost (m := m.departed f saved frame) (by omega) active rfl, TraceEvent.follow?,
      opened_length, if_pos ⟨rfl, by omega⟩]

theorem fetched (on : m.tracing = true) (deep : entry < m.depth) (s : Nat) (statement : Statement) :
    Tells entry m (m.fetched s statement) := by
  let source : Listing.Source := { image := m.program.image, strings := m.strings, globals := some m.globals }
  obtain ⟨outer, running⟩ := m.opened_running deep
  have place : entry + outer.length + 1 = m.depth := by
    have lengths := congrArg List.length running
    rw [opened_length, List.length_cons] at lengths
    omega
  refine of_event (.statement s m.function m.depth (Listing.statementText source s statement)) ?_ ?_
  · exact traced_tracer (m := { m with
      statement := s
      profile := m.profile.countStatement m.function }) on rfl
  · have same : (m.fetched s statement).opened entry = m.opened entry := rfl
    rw [same, running, TraceEvent.follow?, if_pos ⟨rfl, place.symm⟩]

theorem handed (on : m.tracing = true) (id : FunctionId) (number : Nat) (f : Native) :
    Tells entry m (m.handed id number f) := by
  refine of_event (.native number f.name) ?_ ?_
  · exact traced_tracer (m := { m with profile := m.profile.countCall id }) on rfl
  · have same : (m.handed id number f).opened entry = m.opened entry := rfl
    rw [same]
    cases m.opened entry <;> rfl

end Tells

/-- The second machine is where the first was, and what the tracer was told between them nests well. -/
def Balances (m m' : Machine) : Prop :=
  m'.control = m.control ∧ ∃ events : List TraceEvent,
    m'.tracer = m.tracer.map (events.foldl Tracer.record ·) ∧ WellNested m.depth events

namespace Balances
variable {m m₁ m₂ m' : Machine}

theorem of_same (same : (m'.tracer, m'.control) = (m.tracer, m.control)) : Balances m m' := by
  obtain ⟨tracer, control⟩ := Prod.mk.inj same
  exact ⟨control, [], by simp [tracer], rfl⟩

theorem trans (first : Balances m m₁) (second : Balances m₁ m₂) : Balances m m₂ := by
  obtain ⟨control, events, tracer, nested⟩ := first
  obtain ⟨control', more, tracer', nested'⟩ := second
  have depth : m₁.depth = m.depth := congrArg (fun c : Control => c.calls.depth) control
  rw [depth] at nested'
  exact ⟨control'.trans control, events ++ more, told_append tracer tracer', nested.append nested'⟩

theorem tells (balances : Balances m m') {entry : Nat} (deep : entry ≤ m.depth) : Tells entry m m' := by
  obtain ⟨control, events, tracer, nested⟩ := balances
  have depth : m.depth = entry + (m.opened entry).length := by
    rw [opened_length]
    omega
  rw [depth] at nested
  refine ⟨events, tracer, ?_⟩
  rw [opened_of_control control]
  exact followed_above nested

end Balances

theorem Tells.balances {m m' : Machine} (tells : Tells m.depth m m') (control : m'.control = m.control) :
    Balances m m' := by
  obtain ⟨events, tracer, follows⟩ := tells
  rw [opened_of_control control, opened_depth] at follows
  exact ⟨control, events, tracer, follows⟩

/-! ## Statements -/

section Statements
variable {natives : Natives} {reenter : FunctionId → Run Unit} {entry : Nat}

theorem Tells.of_leaves {body : Run α} (leaves : body.Leaves voice) (m : Machine) : Tells entry m (body m).2 :=
  .of_same (congrArg Voice.tracer (leaves m)) (congrArg Voice.control (leaves m))

theorem callNative_tells {m : Machine} (id : FunctionId) (number : Nat) (on : m.tracing = true)
    (deep : entry ≤ m.depth)
    (runs : ∀ g, natives.lookup number = .ok g → Returned (g.run reenter (m.handed id number g)).1 →
      Balances (m.handed id number g) (g.run reenter (m.handed id number g)).2)
    (returned : Returned (callNative natives reenter id number m).1) :
    Tells entry m (callNative natives reenter id number m).2 := by
  rw [callNative_apply] at returned ⊢
  cases known : natives.lookup number with
  | error stop => exact .of_same rfl rfl
  | ok g =>
      rw [known] at returned
      exact (Tells.handed on id number g).trans ((runs g known returned).tells deep)

theorem write_tells {body : Run Unit} (leaves : body.Leaves voice) (next : Nat) (m : Machine) :
    Tells entry m ((body >>= fun _ => pure (some next) : Run (Option Nat)) m).2 :=
  .of_leaves (leaves_bind leaves fun _ => leaves_pure (some next)) m

theorem finish_tells {ready : Machine} {entryDepth s : Nat} (offset : Nat) (on : ready.tracing = true)
    (deep : entry < ready.depth) :
    Tells entry ready (perform natives reenter entryDepth s (.finish offset) ready).2 := by
  have leaves : (giveResult offset).Leaves voice := giveResult_leaves offset fun _ _ _ => rfl
  have given : Tells entry ready (giveResult offset ready).2 := .of_leaves leaves ready
  have kept := leaves ready
  rw [perform_finish]
  cases outcome : giveResult offset ready with
  | mk result m' =>
      rw [outcome] at given kept
      cases result with
      | error stop => exact given
      | ok done =>
          have still : m'.tracing = true := (congrArg Voice.tracing kept).trans on
          have depth : m'.depth = ready.depth := congrArg (fun v : Voice => v.control.calls.depth) kept
          simp only
          cases leaving : m'.departure with
          | error stop => exact given
          | ok found =>
              obtain ⟨f, saved, frame⟩ := found
              exact given.trans (.departed still (depth ▸ deep) leaving)

theorem call_tells {ready : Machine} {entryDepth s : Nat} {callee : FunctionId} {arguments : Nat}
    (on : ready.tracing = true) (deep : entry ≤ ready.depth)
    (runs : ∀ f number g, ready.program.function callee = .ok f → f.nativeNumber? = some number →
      natives.lookup number = .ok g →
        let called := { ready with argumentCount := arguments }.handed callee number g
        Returned (g.run reenter called).1 → Balances called (g.run reenter called).2)
    (returned : Returned (perform natives reenter entryDepth s (.call callee arguments) ready).1) :
    Tells entry ready (perform natives reenter entryDepth s (.call callee arguments) ready).2 := by
  let called : Machine := { ready with argumentCount := arguments }
  have passed : Tells entry ready called := .of_same rfl rfl
  rw [perform_call] at returned ⊢
  cases found : ready.program.function callee with
  | error stop =>
      simp only [found]
      exact passed
  | ok f =>
      simp only [found] at returned ⊢
      cases native : f.nativeNumber? with
      | some number =>
          simp only [native] at returned ⊢
          have told (back : Returned (callNative natives reenter callee number called).1) :=
            callNative_tells (m := called) callee number on deep (fun g => runs f number g found native) back
          cases outcome : callNative natives reenter callee number called with
          | mk result m' =>
              rw [outcome] at returned told
              cases result with
              | ok done => exact passed.trans (told (returned_ok done))
              | error stop => exact passed.trans (told returned.passed)
      | none =>
          simp only
          cases admitted : called.admission callee f with
          | error stop => exact passed
          | ok admission =>
              obtain ⟨saved, moves⟩ := admission
              exact passed.trans (.entered on deep callee saved moves)

-- One case per effect. Calls and returns are told of; the others say nothing.
theorem perform_tells {ready : Machine} {entryDepth s : Nat} {effect : Effect} (on : ready.tracing = true)
    (deep : entry < ready.depth)
    (runs : ∀ callee arguments f number g, effect = .call callee arguments →
      ready.program.function callee = .ok f → f.nativeNumber? = some number →
        natives.lookup number = .ok g →
          let called := { ready with argumentCount := arguments }.handed callee number g
          Returned (g.run reenter called).1 → Balances called (g.run reenter called).2)
    (returned : Returned (perform natives reenter entryDepth s effect ready).1) :
    Tells entry ready (perform natives reenter entryDepth s effect ready).2 := by
  cases effect with
  | write offset cells => exact write_tells (write_leaves _ _ fun _ _ _ => rfl) (s + 1) ready
  | writeField address cells => exact write_tells (writeFields_leaves _ _ _ fun _ _ _ => rfl) (s + 1) ready
  | jump distance => exact .of_same rfl rfl
  | schedule frame think => exact write_tells (schedule_leaves _ _ fun _ _ _ => rfl) (s + 1) ready
  | finish offset => exact finish_tells offset on deep
  | call callee arguments =>
      exact call_tells on (Nat.le_of_lt deep) (fun f number g => runs callee arguments f number g rfl) returned

end Statements

/-! ## Executions -/

namespace Execution
variable {natives : Natives} {e : Execution}

theorem begins_tells {p : Point} (begins : e.Begins p) (on : e.start.tracing = true) :
    Tells e.start.depth e.start p.machine := by
  cases begins with
  | @entered f saved moves _ _ _ =>
      have passed : Tells e.start.depth e.start (e.ready f) := .of_same rfl rfl
      exact passed.trans (.entered (m := e.ready f) on (Nat.le_refl _) e.id saved moves)

section Runs
variable (respect : natives.Respect .any) (on : ∀ m, e.Moment natives m → m.tracing = true)
  (runs : ∀ f m, e.CallsOut natives f m → Returned (f.run (e.reenter natives) m).1 →
    Balances m (f.run (e.reenter natives) m).2)
include respect on runs

theorem step_tells {budget s : Nat} {m : Machine} (reached : e.Reaches natives ⟨budget + 1, s, m⟩)
    (returned : Returned (step natives (e.reenter natives) e.start.depth s m).1) :
    Tells e.start.depth m (step natives (e.reenter natives) e.start.depth s m).2 := by
  have tracing : m.tracing = true := on m (.point reached)
  have deep : e.start.depth < m.depth := by
    obtain ⟨a, outer, stacked⟩ := reached_stacked respect reached
    have depth : m.depth = e.start.depth + (a :: outer).length := stacked.depth_eq
    rw [depth, List.length_cons]
    omega
  rw [step_apply] at returned ⊢
  cases found : m.program.statement? s with
  | none => exact .of_same rfl rfl
  | some statement =>
      simp only [found] at returned ⊢
      cases covered : m.profile.covers m.function with
      | false => exact .of_same rfl rfl
      | true =>
          have fetched : Tells e.start.depth m (m.fetched s statement) := .fetched tracing deep s statement
          simp only [covered, ↓reduceIte] at returned ⊢
          cases known : statement.opcode? with
          | none => exact fetched
          | some op =>
              simp only [known] at returned ⊢
              cases asked : m.effect op statement with
              | error stop => exact fetched
              | ok effect =>
                  simp only [asked] at returned ⊢
                  refine fetched.trans (perform_tells tracing deep ?_ returned)
                  rintro callee arguments f number g rfl target native named
                  exact runs g _ (.within reached (Nat.succ_pos budget) found known asked target native named)

theorem travels_tells {p q : Point}
    (travels : Travels natives (e.reenter natives) e.start.depth (fun _ => True) p q)
    (reached : e.Reaches natives p) : Tells e.start.depth p.machine q.machine := by
  induction travels with
  | stay p => exact .of_same rfl rfl
  | go _ stepped _ ih =>
      have told := step_tells respect on runs reached
      rw [stepped] at told
      exact (told (returned_ok _)).trans (ih (reached.next stepped))

theorem reached_tells {p : Point} (reached : e.Reaches natives p) :
    Tells e.start.depth e.start p.machine := by
  obtain ⟨first, begins, travels⟩ := reached
  have entered := begins_tells begins (on _ .start)
  exact entered.trans (travels_tells respect on runs travels ⟨first, begins, .stay _⟩)

theorem loop_tells (budget s : Nat) (m : Machine) (reached : e.Reaches natives ⟨budget, s, m⟩)
    (returned : Returned (loop natives (e.reenter natives) e.start.depth budget s m).1) :
    Tells e.start.depth m (loop natives (e.reenter natives) e.start.depth budget s m).2 := by
  -- Over the budget: each step tells of what it enters and leaves, from a point that is reached.
  induction budget generalizing s m with
  | zero => exact .of_same rfl rfl
  | succ budget ih =>
      have told := step_tells respect on runs reached
      rw [loop] at returned ⊢
      cases outcome : step natives (e.reenter natives) e.start.depth s m with
      | mk result m' =>
          rw [outcome] at returned told
          rcases result with stop | (_ | next)
          · exact told returned.passed
          · exact told (returned_ok _)
          · exact (told (returned_ok _)).trans (ih next m' (reached.next outcome) returned)

theorem performance_tells (returned : Returned (e.performance natives).1) :
    Tells e.start.depth e.start (e.performance natives).2 := by
  have tracing : e.start.tracing = true := on e.start .start
  rw [performance_apply] at returned ⊢
  cases found : e.start.program.function e.id with
  | error stop => exact .of_same rfl rfl
  | ok f =>
      have passed : Tells e.start.depth e.start (e.ready f) := .of_same rfl rfl
      simp only [found] at returned ⊢
      cases native : f.nativeNumber? with
      | some number =>
          simp only [native] at returned ⊢
          refine passed.trans (callNative_tells (m := e.ready f) e.id number tracing (Nat.le_refl _) ?_ returned)
          exact fun g known => runs g _ (.directly found native known)
      | none =>
          simp only [native] at returned ⊢
          cases admitted : (e.ready f).admission e.id f with
          | error stop => exact passed
          | ok admission =>
              obtain ⟨saved, moves⟩ := admission
              rw [admitted] at returned
              have begins : e.Begins ⟨e.start.config.runawayLimit, f.first.toNat,
                  (e.ready f).entered e.id saved moves⟩ := .entered found native admitted
              exact (begins_tells begins tracing).trans
                (loop_tells respect on runs _ _ _ ⟨_, begins, .stay _⟩ returned)

end Runs

theorem leaveMany_tells {entry : Nat} (count : Nat) {m : Machine} (on : m.tracing = true)
    (deep : entry + count ≤ m.depth) : Tells entry m (leaveMany count m).2 := by
  induction count generalizing m with
  | zero => exact .of_same rfl rfl
  | succ count ih =>
      simp only [leaveMany, bind_apply, attempt_apply, leave_apply]
      cases leaving : m.departure with
      | error stop => cases stop <;> exact .of_same rfl rfl
      | ok found =>
          obtain ⟨f, saved, frame⟩ := found
          have depth := departed_depth leaving
          exact (Tells.departed on (by omega) leaving).trans (ih on (by omega))

theorem failed_deep (respect : natives.Respect .any) {error : Error} {m : Machine}
    (failed : e.performance natives = (.error (.error error), m)) : e.start.depth ≤ m.depth := by
  obtain ⟨calls, stacked⟩ := moment_stacked respect (.unwinding 0 failed (Nat.zero_le _))
  have depth : m.depth = e.start.depth + calls.length := stacked.depth_eq
  omega

theorem outcome_balances (respect : natives.Respect .any) (on : ∀ m, e.Moment natives m → m.tracing = true)
    (runs : ∀ f m, e.CallsOut natives f m → Returned (f.run (e.reenter natives) m).1 →
      Balances m (f.run (e.reenter natives) m).2)
    (returned : Returned (e.outcome natives).1) : Balances e.start (e.outcome natives).2 := by
  obtain ⟨-, back⟩ := execute_back respect.restore trivial (e.nesting + 1) e.id e.start trivial
  refine Tells.balances ?_ (back returned).1.control
  have told := performance_tells respect on runs
  have opened : e.outcome natives = guarded (runFunction natives (e.reenter natives) e.id) e.start := rfl
  rw [opened, guarded_apply] at returned ⊢
  rw [show runFunction natives (e.reenter natives) e.id e.start = e.performance natives from rfl] at returned ⊢
  cases performed : e.performance natives with
  | mk result m =>
      rw [performed] at returned told
      cases result with
      | ok done => exact told (returned_ok _)
      | error stop =>
          cases stop with
          | fault => exact absurd returned (not_returned Stop.fault_silent)
          | nestedTooDeep => exact absurd returned (not_returned Stop.nesting_silent)
          | error error =>
              simp only at returned ⊢
              cases located : m.located error with
              | error stop => exact told (returned_error error)
              | ok placed =>
                  have tracing : m.tracing = true := on m (.unwinding 0 performed (Nat.zero_le _))
                  have deep := failed_deep respect performed
                  have left : Tells e.start.depth m (unwind e.start.depth m).2 :=
                    leaveMany_tells (m.depth - e.start.depth) tracing (by omega)
                  simp only
                  cases unwound : unwind e.start.depth m with
                  | mk result m' =>
                      rw [unwound] at left
                      cases result <;> exact (told (returned_error error)).trans left

section Nesting
variable (interact : natives.Interact fun m => (m.tracer, m.control))
include interact

theorem interact_respect : natives.Respect .any :=
  (interact.mono fun _ _ same => congrArg Prod.snd same).respect

theorem call_balances {f : Native} {m : Machine} (called : e.CallsOut natives f m)
    (nested : ∀ id m', f.Reenters (e.reenter natives) m id m' → Returned (e.reenter natives id m').1 →
      Balances m' (e.reenter natives id m').2)
    (returned : Returned (f.run (e.reenter natives) m).1) : Balances m (f.run (e.reenter natives) m).2 := by
  obtain ⟨number, known⟩ := called.known
  have interacts := interact number f known
  refine interacts.relates (fun _ _ => .of_same) .trans m (fun id m' asked => ?_) returned
  exact nested id m' ((asks_iff interacts _ m id m').mp asked)

theorem calls_balance (on : ∀ inner m, e.Inside natives inner → inner.Moment natives m → m.tracing = true)
    (f : Native) (m : Machine) (called : e.CallsOut natives f m)
    (returned : Returned (f.run (e.reenter natives) m).1) : Balances m (f.run (e.reenter natives) m).2 := by
  obtain ⟨nesting, id, start⟩ := e
  -- Over the nesting: what a native function starts is one level further in.
  induction nesting generalizing id start f m with
  | zero =>
      refine call_balances interact called (fun id' m' _ deep => ?_) returned
      exact absurd deep (not_returned Stop.nesting_silent)
  | succ nesting ih =>
      refine call_balances interact called (fun id' m' reenters back => ?_) returned
      have within (inner : Execution) (m : Machine) (inside : Inside natives ⟨nesting, id', m'⟩ inner) :
          inner.Moment natives m → m.tracing = true := on inner m (.head (.reentered called reenters) inside)
      exact outcome_balances (e := ⟨nesting, id', m'⟩) (interact_respect interact) (within _ · .refl)
        (fun f m called => ih f m id' m' within called) back

end Nesting

/-- At each statement what was told leads to the functions that are open there. In the end nothing is open.
The tracer is told of nothing else, and one that wants every event shows the newest of them. -/
theorem traces_nest_well (interact : natives.Interact fun m => (m.tracer, m.control)) {tracer : Tracer}
    (installed : e.start.tracer = some tracer)
    (on : ∀ inner m, e.Inside natives inner → inner.Moment natives m → m.tracing = true) :
    (∀ p, e.Reaches natives p → ∃ events : List TraceEvent,
      p.machine.tracer = some (events.foldl Tracer.record tracer) ∧
        events.foldlM (TraceEvent.follow? e.start.depth) [] = some (p.machine.opened e.start.depth)) ∧
      (Returned (e.outcome natives).1 → ∃ events told, WellNested e.start.depth events ∧
        (e.outcome natives).2.tracer = some told ∧ told = events.foldl Tracer.record tracer ∧
          ((∀ kind, tracer.wants kind = true) →
            told.heard = (tracer.heard ++ events).rtake tracer.buffer.maximum)) := by
  have respect := interact_respect interact
  have runs := calls_balance interact on
  constructor
  · intro p reached
    obtain ⟨events, tracer', follows⟩ := reached_tells respect (on e · .refl) runs reached
    rw [installed] at tracer'
    rw [opened_depth] at follows
    exact ⟨events, tracer', follows⟩
  · intro returned
    obtain ⟨-, events, tracer', nested⟩ := outcome_balances respect (on e · .refl) runs returned
    rw [installed] at tracer'
    exact ⟨events, _, nested, tracer', rfl, fun wanted => Tracer.heard_records wanted events⟩

/-- A function that calls itself without end is left, level by level, before the native function that ran it
goes on. -/
theorem traces_nest_well_retrying :
    let natives := Natives.empty.register 1 ⟨"try0", Samples.tryFirst⟩
    let tracer := Tracer.ofConfig { enabled := true }
    let start := { Machine.create retrying { maxCallDepth := 4, trace := true } with tracer := some tracer }
    let e : Execution := ⟨1, ⟨1⟩, start⟩
    Returned (e.outcome natives).1 ∧
      (∃ events, WellNested 0 events ∧
        (e.outcome natives).2.tracer.map Tracer.heard = some (events.rtake TraceBuffer.defaultMaximum)) ∧
      (e.outcome natives).2.tracer.map (fun told => told.heard.filterMap TraceEvent.depth?) =
        some [1, 1, 2, 2, 1, 1, 2, 2, 3, 3, 4, 4, 3, 2, 1, 1, 0] := by
  intro natives tracer start e
  have interact : natives.Interact voice :=
    Natives.register_interact (Natives.empty_interact voice) Samples.tryFirst_interacts 1
  have apart : natives.Interact fun m => (m.tracer, m.control) := by
    refine interact.mono fun m m' same => ?_
    exact Prod.ext (congrArg Voice.tracer same) (congrArg Voice.control same)
  have succeeds : (e.outcome natives).1.isOk = true := by decide +kernel
  have returned := returned_of_isOk succeeds
  have installed : e.start.tracer = some tracer := rfl
  obtain ⟨-, ended⟩ := traces_nest_well apart installed fun _ _ inside => inside_tracing interact inside
  obtain ⟨events, told, nested, known, -, heard⟩ := ended returned
  have fresh : tracer.heard = [] := by decide +kernel
  have room : tracer.buffer.maximum = TraceBuffer.defaultMaximum := rfl
  refine ⟨returned, ⟨events, nested, ?_⟩, by decide +kernel⟩
  rw [known, Option.map_some, heard fun _ => rfl, fresh, List.nil_append, room]

end Execution
end EntityMachine
