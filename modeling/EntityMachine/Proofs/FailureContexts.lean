import EntityMachine.Proofs.FailurePlaces
import EntityMachine.Proofs.Interplay
import EntityMachine.Proofs.OpenCalls

/-!
Errors that cross executions. An error is told where it arose as the execution that raised it ends, before anything
is unwound, and keeps that through all the executions around it, as long as native functions pass it on.
-/
namespace EntityMachine
open Machine Run

/-! ## Native functions that pass errors on -/

/-- Whatever stops an execution that the native function started stops the function, and every error of its own is
new. -/
structure Native.PassesOn (f : Native) : Prop where
  passes : ∀ reenter m id m' stop, f.Reenters reenter m id m' → (reenter id m').1 = .error stop →
    (f.run reenter m).1 = .error stop
  new : ∀ reenter m error, (f.run reenter m).1 = .error (.error error) → error.context = none ∨
    ∃ id m', f.Reenters reenter m id m' ∧ (reenter id m').1 = .error (.error error)

def Natives.PassOn (natives : Natives) : Prop := ∀ number f, natives.lookup number = .ok f → f.PassesOn

/-- A computation put together from operations whose errors are new and from executions of functions. It catches
nothing. -/
inductive Forwards : {α : Type} → ((FunctionId → Run Unit) → Run α) → Prop
  | quiet {α : Type} {body : Run α} : body.Raises → Forwards fun _ => body
  | nested (id : FunctionId) : Forwards fun reenter => reenter id
  | bind {α β : Type} {first : (FunctionId → Run Unit) → Run α} {rest : α → (FunctionId → Run Unit) → Run β} :
      Forwards first → (∀ a, Forwards (rest a)) → Forwards fun reenter => first reenter >>= fun a => rest a reenter

namespace Forwards
variable {reenter : FunctionId → Run Unit}

theorem interacts {body : (FunctionId → Run Unit) → Run α} (forwards : Forwards body) :
    Interacts (fun _ => ()) body := by
  induction forwards with
  | quiet => exact .quiet fun _ => rfl
  | nested id => exact .nested id
  | bind _ _ ih later => exact .bind ih later

theorem passes {body : (FunctionId → Run Unit) → Run α} (forwards : Forwards body) {m m' : Machine}
    {id : FunctionId} {stop : Stop} (asked : Asks body reenter m id m') (stopped : (reenter id m').1 = .error stop) :
    (body reenter m).1 = .error stop := by
  induction forwards generalizing m with
  | quiet => exact absurd asked (not_asks fun _ => rfl)
  | nested id₁ =>
      by_cases here : id₁ = id ∧ m = m'
      · obtain ⟨rfl, rfl⟩ := here
        exact stopped
      · exact absurd asked (not_asks fun _ => if_neg here)
  | @bind α β first rest begins _ ih later =>
      beta_reduce
      rw [bind_apply]
      rcases begins.interacts.asks_or m id m' with before | spared
      · have failed := ih before
        cases outcome : first reenter m with
        | mk result m₁ =>
            rw [outcome] at failed
            cases failed
            rfl
      · cases outcome : first reenter m with
        | mk result m₁ =>
            cases result with
            | error stop =>
                refine absurd asked (not_asks fun last => ?_)
                rw [bind_apply, bind_apply, spared _ interrupted_other, outcome]
            | ok a =>
                refine later a fun last => ?_
                have told := asked last
                beta_reduce at told
                rwa [bind_apply, spared _ interrupted_other, outcome] at told

theorem new {body : (FunctionId → Run Unit) → Run α} (forwards : Forwards body) {m : Machine} {error : Error}
    (failed : (body reenter m).1 = .error (.error error)) : error.context = none ∨
      ∃ id m', Asks body reenter m id m' ∧ (reenter id m').1 = .error (.error error) := by
  induction forwards generalizing m with
  | @quiet α body raises =>
      have raised := raises m
      rw [show (body m).1 = _ from failed] at raised
      exact .inl raised.1
  | nested id => exact .inr ⟨id, m, fun last => if_pos ⟨rfl, rfl⟩, failed⟩
  | @bind α β first rest begins _ ih later =>
      beta_reduce at failed
      rw [bind_apply] at failed
      cases outcome : first reenter m with
      | mk result m₁ =>
          rw [outcome] at failed
          cases result with
          | error stop =>
              cases failed
              rcases ih (congrArg Prod.fst outcome) with told | ⟨id, m', asked, stopped⟩
              · exact .inl told
              · exact .inr ⟨id, m', asked.first rest, stopped⟩
          | ok a =>
              rcases later a failed with told | ⟨id, m', asked, stopped⟩
              · exact .inl told
              · exact .inr ⟨id, m', begins.interacts.asks_rest outcome asked, stopped⟩

theorem passesOn {f : Native} (forwards : Forwards f.run) : f.PassesOn where
  passes := by
    intro reenter m id m' stop reenters stopped
    have asked := (asks_iff forwards.interacts reenter m id m').mpr reenters
    exact forwards.passes asked stopped
  new := by
    intro reenter m error failed
    rcases forwards.new failed with told | ⟨id, m', asked, stopped⟩
    · exact .inl told
    · exact .inr ⟨id, m', (asks_iff forwards.interacts reenter m id m').mp asked, stopped⟩

end Forwards

theorem Natives.empty_passOn : empty.PassOn :=
  fun _ _ known => nomatch known

theorem Natives.register_passOn {natives : Natives} {f : Native} (pass : natives.PassOn) (passes : f.PassesOn)
    (number : Nat) : (natives.register number f).PassOn := by
  intro n g known
  rw [lookup_register] at known
  split at known
  · cases known
    exact passes
  · exact pass n g known

namespace Samples

theorem runFirst_forwards : Forwards runFirst := by
  refine .bind (.quiet (raises_get fun m => raises_pure m)) fun m => ?_
  refine .bind (.quiet (raises_read ?_)) fun c => .nested c.function
  exact Outcome.raises_bind (Outcome.raises_ofOption _) fun _ => Outcome.raises_ofOption _

theorem refuse_raises : refuse.Raises :=
  raises_get fun _ _ => Outcome.raises_fail rfl

end Samples

theorem Machine.located_again (m : Machine) {error : Error} (told : error.context ≠ none) :
    m.located error = .ok error := by
  unfold located
  split
  · rfl
  · contradiction

namespace Execution
variable {natives : Natives} {e inner : Execution}

/-! ## Through one execution -/

theorem CallsOut.ends {f : Native} {m : Machine} {stop : Stop} (called : e.CallsOut natives f m)
    (failed : (f.run (e.reenter natives) m).1 = .error stop) :
    e.performance natives = f.run (e.reenter natives) m ∨ (e.performance natives).1 = .error .fault := by
  obtain ⟨m', ran⟩ : ∃ m', f.run (e.reenter natives) m = (.error stop, m') := ⟨_, eq_of_outcome failed⟩
  cases called with
  | directly found native listed =>
      rw [performance_apply]
      simp only [found, native, callNative_apply, listed, true_or]
  | @within p statement op callee arguments body number _ reached left found known asked target native listed =>
      obtain ⟨first, begins, travels⟩ := reached
      rw [(begins_fetched natives begins).2.2, loop_along travels]
      obtain ⟨budget, s, n⟩ := p
      cases budget with
      | zero => exact absurd left (Nat.lt_irrefl 0)
      | succ budget =>
          simp only at found known asked target ran ⊢
          cases covered : n.profile.covers n.function with
          | false =>
              have stepped : step natives (e.reenter natives) e.start.depth s n = (.error .fault, n) := by
                simp [step_apply, found, covered]
              simp only [loop, stepped, or_true]
          | true =>
              have function : (n.fetched s statement).program.function callee = .ok body := target
              have stepped := step_apply natives (e.reenter natives) e.start.depth s n
              simp only [found, covered, ↓reduceIte, known, asked, perform_call, function, native,
                callNative_apply, listed, ran] at stepped
              simp only [loop, stepped, ran, true_or]

theorem Starts.ends (pass : natives.PassOn) (starts : e.Starts natives inner) {stop : Stop}
    (stopped : (inner.outcome natives).1 = .error stop) :
    ∃ number f m, natives.lookup number = .ok f ∧ f.Reenters (e.reenter natives) m inner.id inner.start ∧
      (f.run (e.reenter natives) m).1 = .error stop ∧
        (e.performance natives = f.run (e.reenter natives) m ∨ (e.performance natives).1 = .error .fault) := by
  cases starts with
  | @reentered nesting id start f m id' m' called reenters =>
      obtain ⟨number, known⟩ := called.known
      have failed := (pass number f known).passes _ m id' m' stop reenters stopped
      exact ⟨number, f, m, known, reenters, failed, called.ends failed⟩

theorem outcome_fault (failed : (e.performance natives).1 = .error .fault) :
    (e.outcome natives).1 = .error .fault := by
  have spared (error : Error) : (e.performance natives).1 ≠ .error (.error error) := by
    rw [failed]
    nofun
  rw [outcome_spared spared, failed]

theorem outcome_context {error : Error} (failed : (e.outcome natives).1 = .error (.error error)) :
    error.context ≠ none := by
  obtain ⟨raised, m, -, located⟩ := outcome_error failed
  by_cases new : raised.context = none
  · obtain ⟨entity, -, rfl⟩ := m.located_new new located
    nofun
  · rw [m.located_again new] at located
    cases located
    exact new

theorem Starts.outcome (pass : natives.PassOn) (starts : e.Starts natives inner) {stop : Stop}
    (stopped : (inner.outcome natives).1 = .error stop) (fails : stop ≠ .nestedTooDeep) :
    (e.outcome natives).1 = .error .fault ∨ (e.outcome natives).1 = .error stop := by
  obtain ⟨number, f, m, -, -, failed, ended | faulted⟩ := starts.ends pass stopped
  · rw [← ended] at failed
    cases stop with
    | fault => exact .inl (outcome_fault failed)
    | nestedTooDeep => exact absurd rfl fails
    | error error =>
        have context := outcome_context stopped
        rcases outcome_located (eq_of_outcome failed) with faulted | ⟨told, located, came⟩
        · exact .inl faulted
        · rw [Machine.located_again _ context] at located
          cases located
          exact .inr came
  · exact .inl (outcome_fault faulted)

theorem Starts.places (respect : natives.Respect .any) (pass : natives.PassOn) (starts : e.Starts natives inner)
    {error : Error} (stopped : (inner.outcome natives).1 = .error (.error error))
    (safe : (e.outcome natives).1 ≠ .error .fault) :
    inner.start.control.places = e.openCalls natives e.start.control.places := by
  obtain ⟨number, f, m, known, reenters, failed, ended | faulted⟩ := starts.ends pass stopped
  · have handed : inner.start.control = m.control := reenters_control respect e known reenters
    have given : (f.run (e.reenter natives) m).2.control = m.control :=
      natives_return respect e number f m known (failed ▸ returned_error error)
    rw [← failed_places respect (ended.trans (eq_of_outcome failed))]
    exact congrArg Control.places (handed.trans given.symm)
  · exact absurd (outcome_fault faulted) safe

/-! ## Through all executions -/

/-- The calls that are open when an error arises, over all the executions under way: those of the first, which was
started inside some calls, and on from each to the one that a native function of its started. -/
inductive Surfaces (natives : Natives) : List Call → Execution → Execution → List Call → Prop
  | raised {below e error m} : e.Raises natives error m → Surfaces natives below e e (e.openCalls natives below)
  | passed {below e inner origin calls} : e.Starts natives inner →
      (e.outcome natives).1 = (inner.outcome natives).1 →
      Surfaces natives (e.openCalls natives below) inner origin calls → Surfaces natives below e origin calls

theorem inside_surfaces (respect : natives.Respect .any) (pass : natives.PassOn) {origin : Execution}
    (inside : e.Inside natives origin) {error : Error} {m : Machine} (raises : origin.Raises natives error m) :
    (e.outcome natives).1 = .error .fault ∨
      ∃ told, m.located error = .ok told ∧ (origin.outcome natives).1 = .error (.error told) ∧
        (e.outcome natives).1 = .error (.error told) ∧
        e.Surfaces natives e.start.control.places origin m.control.places := by
  -- From the innermost outwards: each execution started the one before.
  induction inside using Relation.ReflTransGen.head_induction_on with
  | refl =>
      rcases outcome_located raises.1 with faulted | ⟨told, located, came⟩
      · exact .inl faulted
      · refine .inr ⟨told, located, came, came, ?_⟩
        rw [failed_places respect raises.1]
        exact .raised raises
  | @head e inner starts _ ih =>
      by_cases faulted : (e.outcome natives).1 = .error .fault
      · exact .inl faulted
      rcases ih with fault | ⟨told, located, first, came, surfaces⟩
      · rcases starts.outcome pass fault nofun with lost | lost <;> exact .inl lost
      · rcases starts.outcome pass came nofun with fault | passed
        · exact .inl fault
        · rw [starts.places respect pass came faulted] at surfaces
          exact .inr ⟨told, located, first, passed, .passed starts (passed.trans came.symm) surfaces⟩

theorem raised_or_passed (pass : natives.PassOn) {error : Error}
    (failed : (e.performance natives).1 = .error (.error error)) :
    error.context = none ∨ ∃ inner, e.Starts natives inner ∧ (inner.outcome natives).1 = .error (.error error) := by
  rcases performance_raises failed with raised | ⟨-, limit, exhausted⟩ | ⟨g, m, called, ran⟩
  · exact .inl raised.1
  · cases exhausted
    exact .inl rfl
  · obtain ⟨number, known⟩ := called.known
    rcases (pass number g known).new _ m error ran with new | ⟨id', m', reenters, stopped⟩
    · exact .inl new
    · obtain ⟨nesting, id, start⟩ := e
      cases nesting with
      | zero => cases stopped
      | succ nesting => exact .inr ⟨⟨nesting, id', m'⟩, .reentered called reenters, stopped⟩

theorem Starts.nesting_lt (starts : e.Starts natives inner) : inner.nesting < e.nesting := by
  cases starts with
  | reentered => exact Nat.lt_succ_self _

theorem raised_inside (pass : natives.PassOn) (e : Execution) {told : Error}
    (came : (e.outcome natives).1 = .error (.error told)) :
    ∃ origin error m, e.Inside natives origin ∧ origin.Raises natives error m := by
  obtain ⟨error, m, failed, -⟩ := outcome_error came
  rcases raised_or_passed pass (congrArg Prod.fst failed) with new | ⟨inner, starts, stopped⟩
  · exact ⟨e, error, m, .refl, failed, new⟩
  · obtain ⟨origin, first, m', inside, raises⟩ := raised_inside pass inner stopped
    exact ⟨origin, first, m', .head starts inside, raises⟩
termination_by e.nesting
decreasing_by exact starts.nesting_lt

end Execution

/-! ## The place that is told -/

def Machine.innermost (m : Machine) : List Call → String
  | [] => "<null>"
  | call :: _ => m.program.functionName call.function

/-- The error is told with its cause, and with the place of a machine at which these calls are open. -/
structure Told (m : Machine) (calls : List Call) (error told : Error) : Prop where
  cause : told.cause = error.cause
  context : ∃ entity, m.selfEntity = .ok entity ∧ told.context = some {
    function := some (m.innermost calls)
    statement := some m.statement
    entity := some entity
    stack := calls.map fun call => m.callText call.function call.statement }

theorem Machine.innermost_places (m : Machine) : m.program.functionName m.function = m.innermost m.control.places := by
  unfold Control.places
  cases m.control.calls.frames.toList.reverse with
  | cons frame rest => rfl
  | nil =>
      by_cases null : m.function.isNull = true
      · simp [Call.walk, null, control, innermost, Program.functionName, Image.functionName]
      · simp [Call.walk, null, control, innermost]

theorem Machine.told_of_new {m : Machine} {error told : Error} (new : error.context = none)
    (located : m.located error = .ok told) : Told m m.control.places error told := by
  obtain ⟨entity, found, rfl⟩ := m.located_new new located
  exact ⟨rfl, entity, found, by rw [m.innermost_places, m.stackTrace_eq]⟩

namespace Execution
variable {natives : Natives}

/-- An error that one execution raises comes out of another around it as it left the first: with its cause, and
told with the calls that were open then in all the executions under way. -/
structure Delivers (natives : Natives) (e origin : Execution) (error : Error) (m : Machine) (told : Error) :
    Prop where
  left : (origin.outcome natives).1 = .error (.error told)
  came : (e.outcome natives).1 = .error (.error told)
  place : ∃ calls, e.Surfaces natives [] origin calls ∧ Told m calls error told

/-- From an idle machine, an error that is raised in any execution, among those that native functions start in one
another, is delivered by the first if none of these functions catches it. And an error that comes out is one that
is delivered so: it is told its place, whatever it is. -/
theorem errors_keep_their_place (respect : natives.Respect .any) (restore : natives.Restore .noFault)
    (pass : natives.PassOn) (e : Execution) (sound : e.start.Sound) (idle : e.start.calls.frames = #[])
    (null : e.start.function.isNull = true) :
    (e.outcome natives).1 ≠ .error .fault ∧
      (∀ origin error m, e.Inside natives origin → origin.Raises natives error m →
        ∃ told, e.Delivers natives origin error m told) ∧
      ∀ told, (e.outcome natives).1 = .error (.error told) →
        ∃ origin error m, e.Inside natives origin ∧ origin.Raises natives error m ∧
          e.Delivers natives origin error m told := by
  have safe : (e.outcome natives).1 ≠ .error .fault := by
    intro faulted
    have stops := (execute_back restore nofun (e.nesting + 1) e.id e.start sound).1
    rw [show (execute natives (e.nesting + 1) e.id e.start).1 = _ from faulted] at stops
    exact absurd rfl stops
  have outside : e.start.control.places = [] := by
    rw [Control.places, show e.start.control.calls.frames = #[] from idle]
    exact if_pos null
  have delivers (origin : Execution) (error : Error) (m : Machine) (inside : e.Inside natives origin)
      (raises : origin.Raises natives error m) : ∃ told, e.Delivers natives origin error m told := by
    rcases inside_surfaces respect pass inside raises with faulted | ⟨told, located, left, came, surfaces⟩
    · exact absurd faulted safe
    · rw [outside] at surfaces
      exact ⟨told, left, came, _, surfaces, m.told_of_new raises.2 located⟩
  refine ⟨safe, delivers, fun told came => ?_⟩
  obtain ⟨origin, error, m, inside, raises⟩ := raised_inside pass e came
  obtain ⟨same, delivered⟩ := delivers origin error m inside raises
  cases came.symm.trans delivered.came
  exact ⟨origin, error, m, inside, raises, delivered⟩

def delegating : Program where
  image := {
    statements := #[⟨0, 0, 0, 0⟩, ⟨31, 28, 4, 0⟩, ⟨52, 29, 0, 0⟩, ⟨0, 0, 0, 0⟩, ⟨51, 30, 0, 0⟩, ⟨0, 0, 0, 0⟩]
    functions := #[{}, { first := 1, parmStart := 31, name := ⟨1⟩ }, { first := 4, parmStart := 31, name := ⟨7⟩ },
      { first := -1 }, { first := -2 }]
    globals := Array.replicate 28 ⟨0⟩ ++ #[⟨2⟩, ⟨3⟩, ⟨4⟩]
    strings := { StringPool.empty with data := "\x00outer\x00inner\x00" } }
  globals := {}
  fields := {}
  sound := by decide +kernel
  globals_eq := show _ = Image.systemGlobals _ from rfl
  fields_eq := show _ = Image.systemFields _ from rfl

def delegates : Natives :=
  (Natives.empty.register 1 ⟨"run0", Samples.runFirst⟩).register 2 ⟨"refuse", Samples.plain Samples.refuse⟩

def delegated : Execution := ⟨1, ⟨1⟩, .create delegating {}⟩

def chosen : Outcome (Option Nat) × Machine :=
  step delegates (delegated.reenter delegates) 0 1
    ((delegated.ready { first := 1, parmStart := 31, name := ⟨1⟩ }).entered ⟨1⟩ #[] [])

def delegate : Execution := ⟨0, ⟨2⟩, { chosen.2.fetched 2 ⟨52, 29, 0, 0⟩ with argumentCount := 1 }.handed ⟨3⟩ 1
  ⟨"run0", Samples.runFirst⟩⟩

theorem delegated_starts : delegated.Starts delegates delegate := by
  have admitted : (delegated.ready { first := 1, parmStart := 31, name := ⟨1⟩ }).admission ⟨1⟩
      { first := 1, parmStart := 31, name := ⟨1⟩ } = .ok (#[], []) := rfl
  have goes : chosen.1 = .ok (some 2) := by decide +kernel
  have reached : delegated.Reaches delegates ⟨99999, 2, chosen.2⟩ :=
    ⟨_, .entered rfl rfl admitted, .go trivial (eq_of_outcome goes) (.stay _)⟩
  have asked : delegate.start.argument 0 = .ok ⟨2⟩ := by decide +kernel
  have effect : chosen.2.effect (.call 1) ⟨52, 29, 0, 0⟩ = .ok (.call ⟨3⟩ 1) := by decide +kernel
  have called : delegated.CallsOut delegates ⟨"run0", Samples.runFirst⟩ delegate.start :=
    .within reached (by decide) rfl rfl effect rfl rfl rfl
  refine .reentered called ?_
  refine (asks_iff Samples.runFirst_interacts _ _ _ _).mp fun last => ?_
  change Samples.runFirst _ delegate.start = _
  rw [Samples.runFirst, get_bind, asked, ok_bind]
  exact if_pos ⟨rfl, rfl⟩

theorem delegated_surfaces {calls : List Call} (surfaces : delegated.Surfaces delegates [] delegate calls) :
    calls = [⟨⟨2⟩, 4⟩, ⟨⟨1⟩, 2⟩] := by
  have outer : delegated.openCalls delegates [] = [⟨⟨1⟩, 2⟩] := by decide +kernel
  cases surfaces with
  | passed starts _ further =>
      rw [outer] at further
      cases further with
      | raised => decide +kernel
      | passed deeper =>
          have last := Nat.lt_one_iff.mp starts.nesting_lt
          exact absurd deeper.nesting_lt (last ▸ Nat.not_lt_zero _)

/-- The function that it ran is the innermost, at its call; the one that had it run is at that. -/
theorem errors_keep_their_place_delegated :
    delegates.Respect .any ∧ delegates.Restore .noFault ∧ delegates.PassOn ∧ delegated.start.Sound ∧
      delegated.Inside delegates delegate ∧ ∃ error m told, delegate.Raises delegates error m ∧
      (delegate.outcome delegates).1 = .error (.error told) ∧
      (delegated.outcome delegates).1 = .error (.error told) ∧
      Told m [⟨⟨2⟩, 4⟩, ⟨⟨1⟩, 2⟩] error told := by
  have respect (policy : Policy) : delegates.Respect policy :=
    Natives.register_respect
      (Natives.register_respect (Natives.empty_respect policy)
        (Native.respects_of_matches fun c _ _ nested => Samples.runFirst_matches nested) 1)
      (Samples.plain_respects fun c => matches_get fun m => fail_matches rfl m) 2
  have pass : delegates.PassOn :=
    Natives.register_passOn (Natives.register_passOn Natives.empty_passOn Samples.runFirst_forwards.passesOn 1)
      (Forwards.quiet Samples.refuse_raises).passesOn 2
  have new : (delegate.performance delegates).1.isNew = true := by decide +kernel
  obtain ⟨error, m, raises⟩ := raises_iff.mpr new
  have sound : delegated.start.Sound := create_sound _ _
  have inside : delegated.Inside delegates delegate := .single delegated_starts
  obtain ⟨-, delivered, -⟩ :=
    errors_keep_their_place (respect .any) (respect .noFault).restore pass delegated sound rfl rfl
  obtain ⟨told, delivers⟩ := delivered delegate error m inside raises
  obtain ⟨calls, surfaces, place⟩ := delivers.place
  rw [delegated_surfaces surfaces] at place
  exact ⟨respect .any, (respect .noFault).restore, pass, sound, inside, error, m, told, raises, delivers.left,
    delivers.came, place⟩

end Execution
end EntityMachine
