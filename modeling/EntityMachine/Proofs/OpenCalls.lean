import EntityMachine.Proofs.Budget
import EntityMachine.Proofs.ControlSteps

/-!
Open calls, followed from the statements alone: one that calls a function of the program opens a call, one that
returns closes the innermost, and any other moves it on. The machine keeps frames that name callers instead, and
rebuilds its calls from them when it has to tell where it is. Both come to the same, wherever an execution stops.
-/
namespace EntityMachine
open Machine Run

/-- An open call: the function, and the statement that it is at. Before its first that is the one that called it. -/
structure Call where
  function : FunctionId
  statement : Nat
  deriving DecidableEq

namespace Call

/-- The innermost call comes to a statement. -/
def arrive (s : Nat) : List Call → List Call
  | [] => []
  | call :: outer => { call with statement := s } :: outer

def walk : List Frame → FunctionId → Nat → List Call
  | [], id, s => if id.isNull then [] else [⟨id, s⟩]
  | frame :: rest, id, s => ⟨id, s⟩ :: walk rest frame.function frame.returnStatement

theorem walk_goto (frames : List Frame) (id : FunctionId) (s s' : Nat) :
    walk frames id s' = arrive s' (walk frames id s) := by
  cases frames with
  | nil =>
      by_cases null : id.isNull = true
      · simp [walk, null, arrive]
      · simp [walk, null, arrive]
  | cons frame rest => rfl

end Call

/-! ## By the statements -/

namespace Machine

/-- The open calls after a statement was run. -/
def follow (m : Machine) (s : Nat) (calls : List Call) : List Call :=
  if m.finishes s then calls.tail
  else match m.callee? s with
    | some id => ⟨id, s⟩ :: Call.arrive s calls
    | none => Call.arrive s calls

/-- The open calls after a statement failed. -/
def remain (m : Machine) (s : Nat) (calls : List Call) : List Call :=
  if m.dispatches s then Call.arrive s calls else calls

def followed (natives : Natives) (reenter : FunctionId → Run Unit) (entryDepth : Nat) :
    (budget s : Nat) → Machine → List Call → List Call
  | 0, _, _, calls => calls
  | budget + 1, s, m, calls =>
    match step natives reenter entryDepth s m with
    | (.ok (some next), m') => followed natives reenter entryDepth budget next m' (m.follow s calls)
    | (.ok none, _) => m.follow s calls
    | (.error _, _) => m.remain s calls

end Machine

/-- The open calls where an execution stops that was started inside some calls. -/
def Execution.openCalls (natives : Natives) (e : Execution) (below : List Call) : List Call :=
  match e.start.program.function e.id with
  | .error _ => below
  | .ok f =>
    match f.nativeNumber?, (e.ready f).admission e.id f with
    | none, .ok (saved, moves) => followed natives (e.reenter natives) e.start.depth
        e.start.config.runawayLimit f.first.toNat ((e.ready f).entered e.id saved moves)
        (⟨e.id, e.start.statement⟩ :: below)
    | _, _ => below

/-! ## By the frames -/

namespace Control

def places (c : Control) : List Call := Call.walk c.calls.frames.toList.reverse c.function c.statement

theorem places_goto (c : Control) (s : Nat) : (c.goto s).places = Call.arrive s c.places :=
  Call.walk_goto _ _ _ _

theorem places_enter (c : Control) (id : FunctionId) (f : Function) (saved : Array Cell) :
    (c.enter ⟨c.statement, id, f, saved⟩).places = ⟨id, c.statement⟩ :: c.places := by
  have frames : (c.enter ⟨c.statement, id, f, saved⟩).calls.frames.toList.reverse =
      ⟨c.statement, c.function⟩ :: c.calls.frames.toList.reverse := by
    simp [enter, CallStack.add]
  rw [places, frames]
  rfl

theorem places_leave (c : Control) {frame : Frame} (top : c.calls.frames.back? = some frame) (locals : LocalsStack) :
    (Control.mk c.program c.calls.dropTop locals frame.function frame.returnStatement).places =
      c.places.tail := by
  obtain ⟨rest, whole⟩ := Array.back?_eq_some_iff.mp top
  have before : c.calls.frames.toList.reverse = frame :: rest.toList.reverse := by simp [whole]
  have after : c.calls.dropTop.frames.toList.reverse = rest.toList.reverse := by simp [CallStack.dropTop, whole]
  simp only [places, before, after]
  rfl

end Control

theorem Machine.stackTrace_eq (m : Machine) :
    m.stackTrace = m.control.places.map fun call => m.callText call.function call.statement := by
  have told (frames : List Frame) (id : FunctionId) (s : Nat) : m.callsFrom frames id s =
      (Call.walk frames id s).map fun call => m.callText call.function call.statement := by
    induction frames generalizing id s with
    | nil => by_cases null : id.isNull = true <;> simp [callsFrom, Call.walk, null]
    | cons frame rest ih => rw [callsFrom, ih, Call.walk, List.map_cons]
  exact told _ _ _

/-! ## The same calls -/

namespace Machine
variable {natives : Natives} {reenter : FunctionId → Run Unit} {entryDepth s : Nat} {m m' : Machine}

theorem Passage.follows {next : Option Nat} (passage : Passage entryDepth m s (.ok next) m') :
    m'.control.places = m.follow s m.control.places := by
  cases passage with
  | stays _ callee finishes control =>
      rw [control, Control.places_goto, follow, finishes, callee]
      rfl
  | enters _ callee finishes _ _ control =>
      rw [control, follow, finishes, callee]
      exact (Control.places_enter (m.control.goto s) _ _ _).trans (by rw [Control.places_goto]; rfl)
  | leaves _ _ finishes top control =>
      rw [control, follow, finishes, if_pos rfl]
      exact m.control.places_leave top _

theorem Passage.remains {stop : Stop} (passage : Passage entryDepth m s (.error stop) m') :
    m'.control.places = m.remain s m.control.places := by
  cases passage with
  | unfetched absent control => rw [control, remain, absent, if_neg Bool.false_ne_true]
  | stopped dispatched control => rw [control, Control.places_goto, remain, dispatched, if_pos rfl]

/-- Where a loop stops the machine tells the calls that are open. -/
theorem loop_places (keeps : natives.Return reenter) {budget : Nat} {result : Outcome Unit}
    (stopped : loop natives reenter entryDepth budget s m = (result, m')) (returned : Returned result) :
    m'.control.places = followed natives reenter entryDepth budget s m m.control.places := by
  induction budget generalizing s m with
  | zero =>
      cases stopped
      rfl
  | succ budget ih =>
      simp only [loop] at stopped
      rw [followed]
      cases stepped : step natives reenter entryDepth s m with
      | mk outcome n =>
          rw [stepped] at stopped
          rcases outcome with stop | (_ | next)
          · cases stopped
            exact (step_passes keeps stepped returned.passed).remains
          · cases stopped
            exact (step_passes keeps stepped (returned_ok none)).follows
          · have told := (step_passes keeps stepped (returned_ok (some next))).follows
            rw [ih stopped, told]

end Machine

namespace Execution
variable {natives : Natives} {e : Execution}

theorem failed_places (respect : natives.Respect .any) {error : Error} {m : Machine}
    (failed : e.performance natives = (.error (.error error), m)) :
    m.control.places = e.openCalls natives e.start.control.places := by
  have keeps := e.natives_return respect
  rw [performance_apply] at failed
  unfold openCalls
  cases found : e.start.program.function e.id with
  | error stop =>
      rw [found] at failed
      cases failed
      rfl
  | ok f =>
      simp only [found] at failed ⊢
      cases native : f.nativeNumber? with
      | some number =>
          simp only [native, callNative_apply] at failed
          cases listed : natives.lookup number with
          | error stop =>
              rw [listed] at failed
              cases failed
              rfl
          | ok g =>
              simp only [listed] at failed
              have back := keeps number g ((e.ready f).handed e.id number g) listed
              rw [failed] at back
              exact congrArg Control.places (back (returned_error error))
      | none =>
          simp only [native] at failed ⊢
          cases admitted : (e.ready f).admission e.id f with
          | error stop =>
              rw [admitted] at failed
              cases failed
              rfl
          | ok entry =>
              obtain ⟨saved, moves⟩ := entry
              simp only [admitted] at failed ⊢
              have entry : ((e.ready f).entered e.id saved moves).control.places =
                  ⟨e.id, e.start.statement⟩ :: e.start.control.places :=
                e.start.control.places_enter e.id f saved
              rw [loop_places keeps failed (returned_error error), entry]

end Execution
end EntityMachine
