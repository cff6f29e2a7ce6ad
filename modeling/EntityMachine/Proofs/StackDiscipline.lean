import EntityMachine.Proofs.Activations
import EntityMachine.Proofs.Soundness

/-!
Stack discipline. An execution only ever takes off the stacks what it put there, so it gives both back
as they were, whatever the program does and however it ends. The argument is made once, for any policy:
which machines an execution may meet, and which stops it may come to.
-/
namespace EntityMachine
open Machine Run

/-- Which machines may be met and what may stop them. Operations of the machine keep to every policy;
only native functions could break one. -/
structure Policy where
  good : Machine → Prop
  allowed : Stop → Prop
  plain : ∀ e : Error, e.cause.isUnderflow = false → allowed (.error e)
  context : ∀ e e' : Error, e'.cause = e.cause → allowed (.error e) → allowed (.error e')
  fault : ∀ m, good m → ¬ m.Sound → allowed .fault
  shaped : ∀ m m' : Machine, m'.shape = m.shape → good m → good m'

namespace Policy

def any : Policy where
  good := fun _ => True
  allowed := fun _ => True
  plain := fun _ _ => trivial
  context := fun _ _ _ _ => trivial
  fault := fun _ _ _ => trivial
  shaped := fun _ _ _ _ => trivial

def noUnderflow : Policy where
  good := fun _ => True
  allowed := fun stop => ∀ e, stop = .error e → e.cause.isUnderflow = false
  plain := by
    rintro e plain _ ⟨⟩
    exact plain
  context := by
    rintro e e' same allowed _ ⟨⟩
    rw [same]
    exact allowed e rfl
  fault := fun _ _ _ _ same => nomatch same
  shaped := fun _ _ _ _ => trivial

def noFault : Policy where
  good := Sound
  allowed := fun stop => stop ≠ .fault
  plain := fun _ _ same => nomatch same
  context := fun _ _ _ _ same => nomatch same
  fault := fun _ sound broken => absurd sound broken
  shaped := fun _ _ same sound => sound.of_shape same

def onlyErrors : Policy where
  good := Sound
  allowed := Stop.Reported
  plain := fun _ _ => trivial
  context := fun _ _ _ _ => trivial
  fault := fun _ sound broken => absurd sound broken
  shaped := fun _ _ same sound => sound.of_shape same

theorem allows (policy : Policy) {m : Machine} (good : policy.good m) {stop : Stop}
    (may : m.MayStop stop) : policy.allowed stop := by
  cases stop with
  | error e => exact policy.plain e may
  | fault => exact policy.fault m good may
  | nestedTooDeep => exact may.elim

theorem allows_stops (policy : Policy) {m : Machine} (good : policy.good m) {outcome : Outcome α}
    (stops : Outcome.Stops m.MayStop outcome) : Outcome.Stops policy.allowed outcome :=
  stops.mono (fun _ => policy.allows good) fun _ _ => trivial

end Policy

/-! ## Native functions -/

/-- Started on these stacks, the computation gives them back whenever it returns. -/
def Run.RestoresFrom (policy : Policy) (c : Control) (body : Run α) : Prop :=
  ∀ m, m.control = c → policy.good m → Outcome.Stops policy.allowed (body m).1 ∧
    (Returned (body m).1 → (body m).2.control = c ∧ policy.good (body m).2)

/-- The function keeps to the policy and leaves the stacks as it found them, as long as the executions
that it starts do. -/
def Native.Restores (policy : Policy) (f : Native) : Prop :=
  ∀ c (reenter : FunctionId → Run Unit), (∀ id, (reenter id).RestoresFrom policy c) →
    (f.run reenter).RestoresFrom policy c

def Natives.Restore (policy : Policy) (natives : Natives) : Prop :=
  ∀ number f, natives.lookup number = .ok f → f.Restores policy

/-- With this way to start executions, the native functions leave the stacks as they find them inside
calls over a base. -/
def Natives.RestoreInside (policy : Policy) (natives : Natives) (reenter : FunctionId → Run Unit)
    (base : Control) : Prop :=
  ∀ number f c, natives.lookup number = .ok f → base.calls.depth < c.calls.depth →
    c.calls.limit = base.calls.limit → c.program = base.program →
      (f.run reenter).RestoresFrom policy c

theorem callNative_restores {policy : Policy} {natives : Natives} {reenter : FunctionId → Run Unit}
    {m : Machine} {number : Nat} (good : policy.good m)
    (restores : ∀ g, natives.lookup number = .ok g → (g.run reenter).RestoresFrom policy m.control)
    (id : FunctionId) :
    Outcome.Stops policy.allowed (callNative natives reenter id number m).1 ∧
      (Returned (callNative natives reenter id number m).1 →
        (callNative natives reenter id number m).2.control = m.control ∧
          policy.good (callNative natives reenter id number m).2) := by
  have stops := policy.allows_stops good (m.lookup_stops natives number)
  rw [callNative_apply]
  cases known : natives.lookup number with
  | error stop =>
      rw [known] at stops
      exact ⟨stops, fun _ => ⟨rfl, good⟩⟩
  | ok g =>
      have handed := policy.shaped m _ (handed_shape m id number g) good
      exact restores g known (m.handed id number g) rfl handed

theorem departure_restores {policy : Policy} {base : Control} {a : Activation}
    {outer : List Activation} {m : Machine} (stacked : Stacked base (a :: outer) m)
    (good : policy.good m) :
    (∃ frame : Frame, frame.returnStatement = a.caller ∧ m.departure = .ok (a.body, a.saved, frame) ∧
      Left base a outer (m.departed a.body a.saved frame) ∧
        policy.good (m.departed a.body a.saved frame)) ∨
    policy.allowed .fault ∧ m.departure = .error .fault := by
  have leaving := departure_stacked stacked
  by_cases past : m.globals.size < a.body.localsEnd
  · rw [if_pos past] at leaving
    refine .inr ⟨policy.fault m good fun sound => ?_, leaving⟩
    exact absurd past (Nat.not_lt.mpr (sound.covers stacked.function_found).2)
  · rw [if_neg past] at leaving
    have left := departed_stacked stacked (Nat.le_of_not_lt past)
    exact .inl ⟨_, rfl, leaving, left, policy.shaped _ _ (m.departed_shape _ _ _) good⟩

/-! ## One statement -/

def Machine.CallsAt (m : Machine) (s : Nat) (id : FunctionId) (f : Function) : Prop :=
  ∃ statement op arguments, m.program.statement? s = some statement ∧ statement.opcode? = some op ∧
    m.effect op statement = .ok (.call id arguments) ∧ m.program.function id = .ok f

/-- What a statement inside a call may come to, by its result and the machine it leaves. -/
inductive Advance (policy : Policy) (base : Control) (a : Activation) (outer : List Activation)
    (m : Machine) (s : Nat) : Except Stop (Option Nat) → Machine → Prop
  | stays {next m'} : Stacked base (a :: outer) m' → policy.good m' →
      Advance policy base a outer m s (.ok (some next)) m'
  | enters {b m'} : b.caller = s → m.CallsAt s b.id b.body →
      m.globals.slice? b.body.localsStart b.body.localsEnd = some b.saved →
      Stacked base (b :: a :: outer) m' → policy.good m' →
      Advance policy base a outer m s (.ok (some b.body.first.toNat)) m'
  | leaves {m'} : outer ≠ [] → Left base a outer m' → policy.good m' →
      Advance policy base a outer m s (.ok (some (a.caller + 1))) m'
  | ends {m'} : outer = [] → Left base a outer m' → policy.good m' →
      Advance policy base a outer m s (.ok none) m'
  | fails {e m'} : policy.allowed (.error e) → Stacked base (a :: outer) m' → policy.good m' →
      Advance policy base a outer m s (.error (.error e)) m'
  | stops {stop m'} : ¬ stop.Reported → policy.allowed stop →
      Advance policy base a outer m s (.error stop) m'

section Step
variable {policy : Policy} {base : Control} {a : Activation} {outer : List Activation}
  {m : Machine} {s : Nat} {natives : Natives} {reenter : FunctionId → Run Unit}

theorem Advance.of_stop {m' : Machine} {stop : Stop} (allowed : policy.allowed stop)
    (reported : stop.Reported → Stacked base (a :: outer) m' ∧ policy.good m') :
    Advance policy base a outer m s (.error stop) m' := by
  cases stop with
  | fault => exact .stops Stop.fault_silent allowed
  | nestedTooDeep => exact .stops Stop.nesting_silent allowed
  | error e =>
      obtain ⟨stacked, good⟩ := reported trivial
      exact .fails allowed stacked good

theorem Advance.of_error {m' : Machine} {stop : Stop} (stacked : Stacked base (a :: outer) m)
    (allowed : policy.allowed stop) (same : m'.control = m.control.goto m'.statement)
    (good : policy.good m') : Advance policy base a outer m s (.error stop) m' :=
  .of_stop allowed fun _ => ⟨stacked.transfer same, good⟩

theorem Advance.of_leaves {ready : Machine} {body : Run Unit} {next : Nat}
    (stacked : Stacked base (a :: outer) m) (same : ready.control = m.control.goto ready.statement)
    (good : policy.good ready) (safe : ready.SafeAt body) (kept : body.Leaves control) :
    Advance policy base a outer m s ((do body; return some next : Run (Option Nat)) ready).1
      ((do body; return some next : Run (Option Nat)) ready).2 := by
  have after := kept ready
  obtain ⟨stops, shape⟩ := safe
  rw [bind_apply]
  cases outcome : body ready with
  | mk result m' =>
      rw [outcome] at after stops shape
      have here : m'.control = m.control.goto m'.statement := by
        have moved : m'.statement = ready.statement := congrArg Control.statement after
        rw [show m'.control = ready.control from after, same, moved]
      have fine := policy.shaped _ _ shape good
      cases result with
      | ok done => exact .stays (stacked.transfer here) fine
      | error stop => exact .of_error stacked (policy.allows good stops) here fine

theorem Advance.of_entered {ready : Machine} {id : FunctionId} {f : Function} {saved : Array Cell}
    {moves : List Move} (stacked : Stacked base (a :: outer) m) (calls : m.CallsAt s id f)
    (ours : f.nativeNumber? = none) (same : ready.control = m.control.goto s)
    (globals : ready.globals = m.globals) (good : policy.good ready)
    (admitted : ready.admission id f = .ok (saved, moves)) :
    Advance policy base a outer m s (.ok (some f.first.toNat)) (ready.entered id saved moves) := by
  have statement : ready.statement = s := congrArg Control.statement same
  have program : ready.program = m.program := congrArg Control.program same
  have function : ready.program.function id = .ok f := by
    obtain ⟨_, _, _, _, _, _, function⟩ := calls
    rw [program, function]
  have before : Stacked base (a :: outer) ready := stacked.transfer (by rw [same, statement])
  obtain ⟨entered, row⟩ := entered_stacked before function ours admitted
  rw [statement] at entered
  exact .enters (b := { caller := s, id := id, body := f, saved := saved }) rfl calls
    (globals ▸ row) entered (policy.shaped _ _ (ready.entered_shape id saved moves) good)

theorem Advance.of_finish {ready : Machine} {offset : Nat} (stacked : Stacked base (a :: outer) m)
    (same : ready.control = m.control.goto ready.statement) (good : policy.good ready)
    (inside : ready.Sound → offset + 1 ≤ ready.globals.size) :
    Advance policy base a outer m s
      (perform natives reenter base.calls.depth s (.finish offset) ready).1
      (perform natives reenter base.calls.depth s (.finish offset) ready).2 := by
  have leaves : (giveResult offset).Leaves control := giveResult_leaves offset fun _ _ _ => rfl
  have kept := leaves ready
  obtain ⟨stops, shape⟩ := giveResult_safe inside
  rw [perform_finish]
  cases outcome : giveResult offset ready with
  | mk result given =>
      rw [outcome] at kept stops shape
      have here : given.control = m.control.goto given.statement := by
        have still : given.statement = ready.statement := congrArg Control.statement kept
        rw [show given.control = ready.control from kept, same, still]
      have within : Stacked base (a :: outer) given := stacked.transfer here
      have fine := policy.shaped _ _ shape good
      cases result with
      | error stop => exact .of_error stacked (policy.allows good stops) here fine
      | ok done =>
          -- What is taken off is the innermost call itself, by the invariant.
          rcases departure_restores within fine with ⟨frame, caller, leaving, left, last⟩ | ⟨fault, leaving⟩
          · simp only [leaving, left.stacked.depth_eq, caller]
            -- The loop stops when the depth is back at the base: when no call is around this one.
            cases outer with
            | nil =>
                rw [List.length_nil, Nat.add_zero, if_pos rfl]
                exact .ends rfl left last
            | cons b rest =>
                rw [if_neg (by rw [List.length_cons]; omega)]
                exact .leaves (List.cons_ne_nil b rest) left last
          · simp only [leaving]
            exact .stops Stop.fault_silent fault

theorem Advance.of_native {ready : Machine} {callee : FunctionId} {arguments : Nat} {f : Function}
    {number : Nat} (runs : natives.RestoreInside policy reenter base)
    (stacked : Stacked base (a :: outer) m) (same : ready.control = m.control.goto ready.statement)
    (good : policy.good ready) (found : ready.program.function callee = .ok f)
    (native : f.nativeNumber? = some number) :
    Advance policy base a outer m s
      (perform natives reenter base.calls.depth s (.call callee arguments) ready).1
      (perform natives reenter base.calls.depth s (.call callee arguments) ready).2 := by
  let called := { ready with argumentCount := arguments }
  have before : Stacked base (a :: outer) ready := stacked.transfer same
  -- A native function runs over the calls around it, so deeper than the base.
  have deeper : base.calls.depth < ready.control.calls.depth := by
    have depth : ready.control.calls.depth = _ := before.depth_eq
    rw [depth, List.length_cons]
    omega
  have restores (g : Native) (known : natives.lookup number = .ok g) :
      (g.run reenter).RestoresFrom policy called.control :=
    runs number g ready.control known deeper before.limit_eq before.program_eq
  obtain ⟨raised, restored⟩ := callNative_restores (policy.shaped ready called rfl good) restores callee
  rw [perform_call]
  simp only [found, native]
  cases outcome : callNative natives reenter callee number called with
  | mk result m' =>
      rw [outcome] at raised restored
      cases result with
      | ok done =>
          obtain ⟨back, fine⟩ := restored (returned_ok _)
          exact .stays (before.same back) fine
      | error stop =>
          apply Advance.of_stop raised
          intro reported
          obtain ⟨back, fine⟩ := restored ((returned_error_iff stop).mpr reported)
          exact ⟨before.same back, fine⟩

-- One case per effect. Only calls and returns touch the stacks; the others spare them.
theorem perform_advances (runs : natives.RestoreInside policy reenter base) {ready : Machine}
    {effect : Effect} (stacked : Stacked base (a :: outer) m) (same : ready.control = m.control.goto s)
    (globals : ready.globals = m.globals) (good : policy.good ready)
    (fits : ready.Sound → ready.Fits effect)
    (asked : ∀ callee arguments f, effect = .call callee arguments →
      m.program.function callee = .ok f → m.CallsAt s callee f) :
    Advance policy base a outer m s (perform natives reenter base.calls.depth s effect ready).1
      (perform natives reenter base.calls.depth s effect ready).2 := by
  have statement : ready.statement = s := congrArg Control.statement same
  have program : ready.program = m.program := congrArg Control.program same
  have arrived : ready.control = m.control.goto ready.statement := by rw [same, statement]
  cases effect with
  | write offset cells =>
      exact .of_leaves stacked arrived good (write_safe fits) (write_leaves _ _ fun _ _ _ => rfl)
  | writeField address cells =>
      exact .of_leaves stacked arrived good (ready.writeFields_safe _ _ _)
        (writeFields_leaves _ _ _ fun _ _ _ => rfl)
  | jump distance => exact .stays (stacked.transfer arrived) good
  | schedule frame think =>
      exact .of_leaves stacked arrived good (ready.schedule_safe _ _)
        (schedule_leaves _ _ fun _ _ _ => rfl)
  | finish offset => exact .of_finish stacked arrived good fits
  | call callee arguments =>
      let called := { ready with argumentCount := arguments }
      have fine : policy.good called := policy.shaped ready _ rfl good
      cases found : ready.program.function callee with
      | error stop =>
          have stops := policy.allows_stops good (ready.function_stops callee)
          have passed : called.control = m.control.goto called.statement := arrived
          rw [found] at stops
          rw [perform_call]
          simp only [found]
          exact .of_error stacked stops passed fine
      | ok f =>
          cases native : f.nativeNumber? with
          | some number => exact .of_native runs stacked arrived good found native
          | none =>
              have calls := asked callee arguments f rfl (program ▸ found)
              have stops := policy.allows_stops fine (admission_stops (m := called) found native)
              rw [perform_call]
              simp only [found, native]
              cases admitted : called.admission callee f with
              | error stop =>
                  have passed : called.control = m.control.goto called.statement := arrived
                  rw [admitted] at stops
                  exact .of_error stacked stops passed fine
              | ok entry =>
                  obtain ⟨saved, moves⟩ := entry
                  have passed : called.control = m.control.goto s := same
                  exact .of_entered stacked calls native passed globals fine admitted

theorem step_advances (runs : natives.RestoreInside policy reenter base)
    (stacked : Stacked base (a :: outer) m) (good : policy.good m) :
    Advance policy base a outer m s (step natives reenter base.calls.depth s m).1
      (step natives reenter base.calls.depth s m).2 := by
  rw [step_apply]
  cases found : m.program.statement? s with
  | none => exact .fails (policy.plain _ rfl) stacked good
  | some statement =>
      cases covered : m.profile.covers m.function with
      | false =>
          refine .stops Stop.fault_silent (policy.fault m good fun sound => ?_)
          rw [(sound.covers stacked.function_found).1] at covered
          cases covered
      | true =>
          have arrived : (m.fetched s statement).control = m.control.goto s := rfl
          have fine := policy.shaped _ _ (m.fetched_shape s statement) good
          simp only [↓reduceIte]
          cases known : statement.opcode? with
          | none => exact .fails (policy.plain _ rfl) (stacked.transfer arrived) fine
          | some op =>
              have meets := m.effect_meets fun sound =>
                sound.segment ▸ m.program.valid.statements s statement op found known
              simp only
              cases asked : m.effect op statement with
              | error stop =>
                  rw [asked] at meets
                  exact .of_error stacked (policy.allows good meets) arrived fine
              | ok effect =>
                  rw [asked] at meets
                  refine perform_advances runs stacked arrived rfl fine (fun sound => ?_) ?_
                  · exact meets (sound.of_shape (m.fetched_shape s statement).symm)
                  · rintro callee arguments f rfl target
                    exact ⟨statement, op, arguments, found, known, asked, target⟩

end Step

/-! ## Whole executions -/

/-- What a loop may come to that began in one call, `bottom`. -/
inductive Ending (policy : Policy) (base : Control) (bottom : Activation) :
    Except Stop Unit → Machine → Prop
  | returns {m'} : Left base bottom [] m' → policy.good m' → Ending policy base bottom (.ok ()) m'
  | fails {e m'} {calls : List Activation} : policy.allowed (.error e) →
      calls.getLast? = some bottom → Stacked base calls m' → policy.good m' →
      Ending policy base bottom (.error (.error e)) m'
  | stops {stop m'} : ¬ stop.Reported → policy.allowed stop →
      Ending policy base bottom (.error stop) m'

/-- The machine is where it was, and the cells of the function that ran are as they were. -/
structure Back (id : FunctionId) (m m' : Machine) : Prop where
  control : m'.control = m.control
  range : ∀ f, m.program.function id = .ok f → f.nativeNumber? = none →
    m'.globals.slice? f.localsStart f.localsEnd = m.globals.slice? f.localsStart f.localsEnd

/-- What running a function may come to before its failure is dealt with. -/
inductive Performance (policy : Policy) (id : FunctionId) (m : Machine) :
    Except Stop Unit → Machine → Prop
  | returns {m'} : Back id m m' → policy.good m' → Performance policy id m (.ok ()) m'
  | fails {e m'} {calls : List Activation} : policy.allowed (.error e) → policy.good m' →
      Stacked m.control calls m' → (calls = [] → Back id m m') →
      (∀ bottom m'', calls.getLast? = some bottom → Left m.control bottom [] m'' → Back id m m'') →
      Performance policy id m (.error (.error e)) m'
  | stops {stop m'} : ¬ stop.Reported → policy.allowed stop →
      Performance policy id m (.error stop) m'

section Execute
variable {policy : Policy} {base : Control} {bottom : Activation} {natives : Natives}
  {reenter : FunctionId → Run Unit}

theorem loop_ends (runs : natives.RestoreInside policy reenter base) (budget s : Nat) (m : Machine)
    (a : Activation) (outer : List Activation) (last : (a :: outer).getLast? = some bottom)
    (stacked : Stacked base (a :: outer) m) (good : policy.good m) :
    Ending policy base bottom (loop natives reenter base.calls.depth budget s m).1
      (loop natives reenter base.calls.depth budget s m).2 := by
  -- Over the budget, with the calls general: a step may put one on top or take one off.
  -- What stays the same is the outermost call, `bottom`.
  induction budget generalizing s m a outer with
  | zero => exact .fails (policy.plain _ rfl) last stacked good
  | succ budget ih =>
      have advance := step_advances (s := s) runs stacked good
      rw [loop]
      cases outcome : step natives reenter base.calls.depth s m with
      | mk result m' =>
          rw [outcome] at advance
          cases advance with
          | stays inside fine => exact ih _ _ a outer last inside fine
          | enters from_here calls found inside fine =>
              exact ih _ _ _ (a :: outer) (by rw [List.getLast?_cons_cons, last]) inside fine
          | leaves more left fine =>
              cases outer with
              | nil => exact absurd rfl more
              | cons b rest => exact ih _ _ b rest last left.stacked fine
          | ends none left fine =>
              subst none
              cases last
              exact .returns left fine
          | fails raised inside fine => exact .fails raised last inside fine
          | stops silent allowed => exact .stops silent allowed

theorem leaveMany_restores (calls : List Activation) (m : Machine) (stacked : Stacked base calls m)
    (good : policy.good m) :
    (∃ m', leaveMany calls.length m = (.ok (), m') ∧ policy.good m' ∧ (calls = [] → m' = m) ∧
      ∀ bottom, calls.getLast? = some bottom → Left base bottom [] m') ∨
    policy.allowed .fault ∧ ∃ m', leaveMany calls.length m = (.error .fault, m') := by
  -- Over the calls: each departure takes the innermost one off and restores its cells.
  induction calls generalizing m with
  | nil => exact .inl ⟨m, rfl, good, fun _ => rfl, fun _ last => nomatch last⟩
  | cons a outer ih =>
      simp only [List.length_cons, leaveMany, bind_apply, attempt_apply, leave_apply]
      rcases departure_restores stacked good with ⟨frame, -, leaving, left, fine⟩ | ⟨fault, leaving⟩
      · simp only [leaving]
        rcases ih _ left.stacked fine with ⟨m', returned, still, same, range⟩ | faulted
        · refine .inl ⟨m', returned, still, nofun, fun bottom last => ?_⟩
          cases outer with
          | nil =>
              cases last
              rw [same rfl]
              exact left
          | cons b rest => exact range bottom (by rwa [List.getLast?_cons_cons] at last)
        · exact .inr faulted
      · simp only [leaving]
        exact .inr ⟨fault, m, rfl⟩

theorem unwind_eq (calls : List Activation) (m : Machine) (stacked : Stacked base calls m) :
    unwind base.calls.depth m = leaveMany calls.length m := by
  have count : m.depth - base.calls.depth = calls.length := by
    rw [stacked.depth_eq, Nat.add_sub_cancel_left]
  rw [unwind, get_bind, count]

section Perform
variable {id : FunctionId} {m m' : Machine} {f : Function}

theorem Performance.of_stop {stop : Stop} (allowed : policy.allowed stop)
    (reported : stop.Reported → policy.good m' ∧ Back id m m') :
    Performance policy id m (.error stop) m' := by
  cases stop with
  | fault => exact .stops Stop.fault_silent allowed
  | nestedTooDeep => exact .stops Stop.nesting_silent allowed
  | error e =>
      obtain ⟨good, back⟩ := reported trivial
      exact .fails allowed good (Stacked.of_control back.control) (fun _ => back)
        (fun bottom _ last => nomatch last)

theorem Performance.of_native {number : Nat} (good : policy.good m)
    (found : m.program.function id = .ok f) (native : f.nativeNumber? = some number)
    (restores : ∀ g, natives.lookup number = .ok g → (g.run reenter).RestoresFrom policy m.control) :
    let ready := { m with argumentCount := f.numParms.toNat }
    Performance policy id m (callNative natives reenter id number ready).1
      (callNative natives reenter id number ready).2 := by
  intro ready
  -- A native function has no range of its own to give back.
  have back {m' : Machine} (same : m'.control = m.control) : Back id m m' := by
    refine ⟨same, fun g known ours => ?_⟩
    rw [found] at known
    cases known
    rw [native] at ours
    cases ours
  obtain ⟨raised, restored⟩ :=
    callNative_restores (m := ready) (policy.shaped m ready rfl good) restores id
  cases outcome : callNative natives reenter id number ready with
  | mk result m' =>
      rw [outcome] at raised restored
      cases result with
      | ok done =>
          obtain ⟨same, fine⟩ := restored (returned_ok _)
          exact .returns (back same) fine
      | error stop =>
          apply Performance.of_stop raised
          intro reported
          obtain ⟨same, fine⟩ := restored ((returned_error_iff stop).mpr reported)
          exact ⟨fine, back same⟩

theorem Ending.performance {result : Except Stop Unit}
    (back : ∀ m'', Left m.control bottom [] m'' → Back id m m'')
    (ended : Ending policy m.control bottom result m') : Performance policy id m result m' := by
  cases ended with
  | returns left fine => exact .returns (back m' left) fine
  | stops silent allowed => exact .stops silent allowed
  | fails allowed last inside fine =>
      refine .fails allowed fine inside ?_ ?_
      · rintro rfl
        cases last
      · intro b m'' same left
        rw [last] at same
        cases same
        exact back m'' left

theorem runFunction_performs (id : FunctionId) (m : Machine) (good : policy.good m)
    (direct : ∀ number f g, m.program.function id = .ok f → f.nativeNumber? = some number →
      natives.lookup number = .ok g → (g.run reenter).RestoresFrom policy m.control)
    (inside : m.depth < m.calls.limit → natives.RestoreInside policy reenter m.control) :
    Performance policy id m (runFunction natives reenter id m).1
      (runFunction natives reenter id m).2 := by
  have stops := policy.allows_stops good (m.function_stops id)
  have here {m' : Machine} (same : m'.control = m.control) (cells : m'.globals = m.globals) :
      Back id m m' := ⟨same, fun _ _ _ => by rw [cells]⟩
  rw [runFunction_apply]
  cases found : m.program.function id with
  | error stop =>
      rw [found] at stops
      exact .of_stop stops fun _ => ⟨good, here rfl rfl⟩
  | ok f =>
      let ready := { m with argumentCount := f.numParms.toNat }
      have fine : policy.good ready := policy.shaped m _ rfl good
      cases native : f.nativeNumber? with
      | some number =>
          simp only [native]
          exact .of_native good found native fun g known => direct number f g found native known
      | none =>
          have stops := policy.allows_stops fine (admission_stops (m := ready) found native)
          simp only [native]
          cases admitted : ready.admission id f with
          | error stop =>
              rw [admitted] at stops
              exact .of_stop stops fun _ => ⟨fine, here rfl rfl⟩
          | ok entry =>
              obtain ⟨saved, moves⟩ := entry
              obtain ⟨entered, row⟩ := entered_stacked (m := ready)
                (Stacked.of_control (c := m.control) rfl) found native admitted
              have room : m.depth < m.calls.limit :=
                ((admission_iff ready id f saved moves).mp admitted).1
              -- The entry call is the bottom of all that the loop piles up.
              let bottom : Activation := { caller := m.statement, id := id, body := f, saved := saved }
              have back (m'' : Machine) (left : Left m.control bottom [] m'') : Back id m m'' := by
                refine ⟨by rw [left.stacked.control, left.statement]; rfl, fun g known _ => ?_⟩
                rw [found] at known
                cases known
                exact left.restored.trans row.symm
              exact Ending.performance back (loop_ends (inside room) m.config.runawayLimit
                f.first.toNat _ bottom [] rfl entered
                (policy.shaped ready _ (ready.entered_shape id saved moves) fine))

end Perform

theorem guarded_back {id : FunctionId} {m : Machine} {body : Run Unit}
    (performed : Performance policy id m (body m).1 (body m).2) :
    Outcome.Stops policy.allowed (guarded body m).1 ∧
      (Returned (guarded body m).1 → Back id m (guarded body m).2 ∧ policy.good (guarded body m).2) := by
  have silent {stop : Stop} (quiet : ¬ stop.Reported) (allowed : policy.allowed stop) (m' : Machine) :
      Outcome.Stops policy.allowed (.error stop : Outcome Unit) ∧
        (Returned (.error stop : Outcome Unit) → Back id m m' ∧ policy.good m') :=
    ⟨allowed, fun returned => absurd returned (not_returned quiet)⟩
  rw [guarded_apply]
  cases outcome : body m with
  | mk result m' =>
      rw [outcome] at performed
      cases performed with
      | returns back good => exact ⟨trivial, fun _ => ⟨back, good⟩⟩
      | @stops stop m' quiet allowed =>
          cases stop with
          | fault => exact silent quiet allowed m'
          | nestedTooDeep => exact silent quiet allowed m'
          | error e => exact absurd trivial quiet
      | @fails e m' calls allowed good inside outside within =>
          have stops := policy.allows_stops good (m'.located_stops e)
          simp only
          cases told : m'.located e with
          | error stop =>
              rw [told] at stops
              rw [located_stop told] at stops ⊢
              exact silent Stop.fault_silent stops m'
          | ok e' =>
              -- The reported failure names a place, but its cause is the one that was met.
              have told := policy.context e e' (located_cause told) allowed
              have unwinding : unwind m.depth m' = _ := unwind_eq calls m' inside
              rcases leaveMany_restores calls m' inside good with
                ⟨m'', done, still, same, range⟩ | ⟨fault, m'', faulted⟩
              · rw [done] at unwinding
                simp only [unwinding]
                refine ⟨told, fun _ => ⟨?_, still⟩⟩
                cases last : calls.getLast? with
                | none =>
                    rw [List.getLast?_eq_none_iff] at last
                    rw [same last]
                    exact outside last
                | some bottom => exact within bottom m'' last (range bottom last)
              · rw [faulted] at unwinding
                simp only [unwinding]
                exact silent Stop.fault_silent fault m''

/-- Whatever an execution comes to, it keeps to the policy, and its caller finds the machine where it
was. Nested executions do so as well, so native functions may rely on it. -/
theorem execute_back (restore : natives.Restore policy)
    (deep : policy.allowed .nestedTooDeep) (nesting : Nat) (id : FunctionId) (m : Machine)
    (good : policy.good m) :
    Outcome.Stops policy.allowed (execute natives nesting id m).1 ∧
      (Returned (execute natives nesting id m).1 → Back id m (execute natives nesting id m).2 ∧
        policy.good (execute natives nesting id m).2) := by
  -- Over the nesting: executions that native functions start are one level further in.
  induction nesting generalizing id m with
  | zero => exact ⟨deep, fun returned => absurd returned (not_returned Stop.nesting_silent)⟩
  | succ nesting ih =>
      have keeps (c : Control) (id : FunctionId) :
          (execute natives nesting id).RestoresFrom policy c := by
        intro m here good
        obtain ⟨stops, back⟩ := ih id m good
        exact ⟨stops, fun returned => ⟨(back returned).1.control.trans here, (back returned).2⟩⟩
      refine guarded_back (runFunction_performs id m good ?_ ?_)
      · intro number f g _ _ known
        exact restore number g known m.control _ (keeps m.control)
      · intro _ number f c known _ _ _
        exact restore number f known c _ (keeps c)

end Execute
end EntityMachine
