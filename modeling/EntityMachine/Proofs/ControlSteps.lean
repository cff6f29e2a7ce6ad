import EntityMachine.Proofs.TraceNesting

/-!
Where a statement leads. What it asks for is known before it is run, and native functions give the stacks back as
they found them. So a statement leaves the machine where it is, or in a function that it entered, or back in the
caller, and one that fails was not left.
-/
namespace EntityMachine
open Machine Run

namespace Machine

def dispatches (m : Machine) (s : Nat) : Bool := (fetch s m).1.isOk

/-- What a statement asks for, if it is a known one and has what it needs. -/
def asks (m : Machine) (s : Nat) : Option Effect := do
  let statement ← m.program.statement? s
  let op ← statement.opcode?
  (m.effect op statement).toOption

def callee? (m : Machine) (s : Nat) : Option FunctionId :=
  match m.asks s with
  | some (.call id _) =>
    match m.program.function id with
    | .ok f => if f.nativeNumber?.isNone then some id else none
    | .error _ => none
  | _ => none

def finishes (m : Machine) (s : Nat) : Bool :=
  match m.asks s with
  | some (.finish _) => true
  | _ => false

/-- What a statement may come to, and where it leaves the machine. -/
inductive Passage (entryDepth : Nat) (m : Machine) (s : Nat) : Except Stop (Option Nat) → Machine → Prop
  | unfetched {stop m'} : m.dispatches s = false → m'.control = m.control →
      Passage entryDepth m s (.error stop) m'
  | stopped {stop m'} : m.dispatches s = true → m'.control = m.control.goto s →
      Passage entryDepth m s (.error stop) m'
  | stays {next m'} : m.dispatches s = true → m.callee? s = none → m.finishes s = false →
      m'.control = m.control.goto s → Passage entryDepth m s (.ok (some next)) m'
  | enters {id f saved m'} : m.dispatches s = true → m.callee? s = some id → m.finishes s = false →
      m.program.function id = .ok f → f.nativeNumber? = none →
      m'.control = (m.control.goto s).enter ⟨s, id, f, saved⟩ →
      Passage entryDepth m s (.ok (some f.first.toNat)) m'
  | leaves {frame locals next m'} : m.dispatches s = true → m.callee? s = none → m.finishes s = true →
      m.calls.frames.back? = some frame →
      m'.control = ⟨m.program, m.calls.dropTop, locals, frame.function, frame.returnStatement⟩ →
      (next.isSome → m'.depth ≠ entryDepth) → Passage entryDepth m s (.ok next) m'

end Machine

/-- Started this way, native functions that return leave the stacks as they were handed them. -/
def Natives.Return (natives : Natives) (reenter : FunctionId → Run Unit) : Prop :=
  ∀ number g m, natives.lookup number = .ok g → Returned (g.run reenter m).1 →
    (g.run reenter m).2.control = m.control

theorem Execution.natives_return {natives : Natives} (respect : natives.Respect .any) (e : Execution) :
    natives.Return (e.reenter natives) := by
  intro number g m listed returned
  have restored := respect.restore number g listed m.control _ (e.keeps respect m.control)
  exact ((restored m rfl trivial).2 returned).1

namespace Machine
variable {natives : Natives} {reenter : FunctionId → Run Unit} {entryDepth s : Nat} {m ready : Machine}

theorem callee?_none {effect : Effect} (asked : m.asks s = some effect)
    (other : ∀ id arguments, effect ≠ .call id arguments) : m.callee? s = none := by
  rw [callee?, asked]
  cases effect with
  | call id arguments => exact absurd rfl (other id arguments)
  | _ => rfl

theorem finishes_false {effect : Effect} (asked : m.asks s = some effect)
    (other : ∀ offset, effect ≠ .finish offset) : m.finishes s = false := by
  rw [finishes, asked]
  cases effect with
  | finish offset => exact absurd rfl (other offset)
  | _ => rfl

theorem Passage.of_leaves {body : Run Unit} {next : Nat} (dispatched : m.dispatches s = true)
    (callee : m.callee? s = none) (finishes : m.finishes s = false) (same : ready.control = m.control.goto s)
    (kept : body.Leaves control) :
    Passage entryDepth m s ((do body; return some next : Run (Option Nat)) ready).1
      ((do body; return some next : Run (Option Nat)) ready).2 := by
  have after := (kept ready).trans same
  rw [bind_apply]
  cases outcome : body ready with
  | mk result m' =>
      rw [outcome] at after
      cases result with
      | ok done => exact .stays dispatched callee finishes after
      | error stop => exact .stopped dispatched after

theorem Passage.of_finish {offset : Nat} (dispatched : m.dispatches s = true)
    (asked : m.asks s = some (.finish offset)) (same : ready.control = m.control.goto s) :
    Passage entryDepth m s (perform natives reenter entryDepth s (.finish offset) ready).1
      (perform natives reenter entryDepth s (.finish offset) ready).2 := by
  have callee : m.callee? s = none := callee?_none asked nofun
  have finishes : m.finishes s = true := by rw [Machine.finishes, asked]
  have leaves : (giveResult offset).Leaves control := giveResult_leaves offset fun _ _ _ => rfl
  have kept := (leaves ready).trans same
  rw [perform_finish]
  cases outcome : giveResult offset ready with
  | mk result given =>
      rw [outcome] at kept
      cases result with
      | error stop => exact .stopped dispatched kept
      | ok done =>
          simp only
          cases leaving : given.departure with
          | error stop => exact .stopped dispatched kept
          | ok found =>
              obtain ⟨f, saved, frame⟩ := found
              have calls : given.calls = m.calls := congrArg Control.calls kept
              have program : given.program = m.program := congrArg Control.program kept
              have back := departure_frame leaving
              rw [calls] at back
              have control : (given.departed f saved frame).control = ⟨m.program, m.calls.dropTop,
                  given.locals.dropTop f.locals.toNat, frame.function, frame.returnStatement⟩ := by
                rw [← program, ← calls]
                rfl
              apply Passage.leaves dispatched callee finishes back control
              intro goes level
              simp [level] at goes

theorem Passage.of_call {callee : FunctionId} {arguments : Nat} (keeps : natives.Return reenter)
    (dispatched : m.dispatches s = true) (asked : m.asks s = some (.call callee arguments))
    (same : ready.control = m.control.goto s)
    (returned : Returned (perform natives reenter entryDepth s (.call callee arguments) ready).1) :
    Passage entryDepth m s (perform natives reenter entryDepth s (.call callee arguments) ready).1
      (perform natives reenter entryDepth s (.call callee arguments) ready).2 := by
  let called : Machine := { ready with argumentCount := arguments }
  have passed : called.control = m.control.goto s := same
  have program : ready.program = m.program := congrArg Control.program same
  have finishes : m.finishes s = false := finishes_false asked nofun
  rw [perform_call] at returned ⊢
  cases found : ready.program.function callee with
  | error stop =>
      simp only [found]
      exact .stopped dispatched passed
  | ok f =>
      have target : m.program.function callee = .ok f := program ▸ found
      simp only [found] at returned ⊢
      cases native : f.nativeNumber? with
      | some number =>
          have foreign : m.callee? s = none := by
            rw [callee?, asked]
            simp [target, native]
          simp only [native, callNative_apply] at returned ⊢
          cases listed : natives.lookup number with
          | error stop => exact .stopped dispatched passed
          | ok g =>
              have back := keeps number g (called.handed callee number g) listed
              simp only [listed] at returned ⊢
              cases outcome : g.run reenter (called.handed callee number g) with
              | mk result m' =>
                  rw [outcome] at returned back
                  cases result with
                  | ok done => exact .stays dispatched foreign finishes ((back (returned_ok done)).trans passed)
                  | error stop => exact .stopped dispatched ((back returned.passed).trans passed)
      | none =>
          have ours : m.callee? s = some callee := by
            rw [callee?, asked]
            simp [target, native]
          simp only
          cases admitted : called.admission callee f with
          | error stop => exact .stopped dispatched passed
          | ok entry =>
              obtain ⟨saved, moves⟩ := entry
              have statement : called.statement = s := congrArg Control.statement passed
              have control : (called.entered callee saved moves).control =
                  (m.control.goto s).enter ⟨s, callee, f, saved⟩ := by
                change called.control.enter ⟨called.statement, callee, f, saved⟩ = _
                rw [passed, statement]
              exact .enters dispatched ours finishes target native control

-- One case per effect. Only calls and returns touch the stacks; the others spare them.
theorem perform_passes {effect : Effect} (keeps : natives.Return reenter) (dispatched : m.dispatches s = true)
    (asked : m.asks s = some effect) (same : ready.control = m.control.goto s)
    (returned : Returned (perform natives reenter entryDepth s effect ready).1) :
    Passage entryDepth m s (perform natives reenter entryDepth s effect ready).1
      (perform natives reenter entryDepth s effect ready).2 := by
  cases effect with
  | write offset cells =>
      exact .of_leaves dispatched (callee?_none asked nofun) (finishes_false asked nofun) same
        (write_leaves _ _ fun _ _ _ => rfl)
  | writeField address cells =>
      exact .of_leaves dispatched (callee?_none asked nofun) (finishes_false asked nofun) same
        (writeFields_leaves _ _ _ fun _ _ _ => rfl)
  | jump distance => exact .stays dispatched (callee?_none asked nofun) (finishes_false asked nofun) same
  | schedule frame think =>
      exact .of_leaves dispatched (callee?_none asked nofun) (finishes_false asked nofun) same
        (schedule_leaves _ _ fun _ _ _ => rfl)
  | finish offset => exact .of_finish dispatched asked same
  | call callee arguments => exact .of_call keeps dispatched asked same returned

theorem step_passes {result : Except Stop (Option Nat)} {m' : Machine} (keeps : natives.Return reenter)
    (stepped : step natives reenter entryDepth s m = (result, m')) (returned : Returned result) :
    Passage entryDepth m s result m' := by
  have ends : (step natives reenter entryDepth s m).1 = result ∧ (step natives reenter entryDepth s m).2 = m' := by
    rw [stepped]
    exact ⟨rfl, rfl⟩
  obtain ⟨rfl, rfl⟩ := ends
  have fetches := m.fetch_apply s
  rw [step_apply] at returned ⊢
  cases found : m.program.statement? s with
  | none =>
      rw [found] at fetches
      exact .unfetched (by rw [dispatches, fetches]; rfl) rfl
  | some statement =>
      cases covered : m.profile.covers m.function with
      | false =>
          rw [found, covered] at fetches
          exact .unfetched (by rw [dispatches, fetches]; rfl) rfl
      | true =>
          have dispatched : m.dispatches s = true := by
            rw [found, covered] at fetches
            rw [dispatches, fetches]
            rfl
          have arrived : (m.fetched s statement).control = m.control.goto s := rfl
          simp only [found, covered, ↓reduceIte] at returned ⊢
          cases known : statement.opcode? with
          | none => exact .stopped dispatched arrived
          | some op =>
              simp only [known] at returned ⊢
              cases asked : m.effect op statement with
              | error stop => exact .stopped dispatched arrived
              | ok effect =>
                  have asks : m.asks s = some effect := by simp [Machine.asks, found, known, asked, Except.toOption]
                  simp only [asked] at returned
                  exact perform_passes keeps dispatched asks arrived returned

theorem statement_missing {error : Error} (unfetched : m.dispatches s = false)
    (stepped : (step natives reenter entryDepth s m).1 = .error (.error error)) :
    m.program.statement? s = none := by
  rw [dispatches, fetch_apply] at unfetched
  rw [step_apply] at stepped
  cases found : m.program.statement? s with
  | none => rfl
  | some statement =>
      simp only [found] at unfetched stepped
      cases covered : m.profile.covers m.function <;> rw [covered] at unfetched stepped
      · cases stepped
      · cases unfetched

end Machine
end EntityMachine
