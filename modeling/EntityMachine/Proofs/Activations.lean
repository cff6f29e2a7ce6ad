import EntityMachine.Proofs.Segments
import EntityMachine.Proofs.Transfers

/-!
Calls under way. The two stacks of a machine record the same nesting of calls, one frame and one row
of saved cells for each call. `inside` rebuilds both stacks from the list of calls, and `step_advances`
says all that one statement can do to that list: leave it alone, put one call on top, or take the top
call off and put its cells back.
-/
namespace EntityMachine
open Machine Run

/-- Where a machine is in its program: what calls and returns change, beside the segment. -/
structure Control where
  program : Program
  calls : CallStack
  locals : LocalsStack
  function : FunctionId
  statement : Nat

def Machine.control (m : Machine) : Control where
  program := m.program
  calls := m.calls
  locals := m.locals
  function := m.function
  statement := m.statement

/-- A call under way: the statement that made it, the function called, and the cells of the function's
range as they were before the call. -/
structure Activation where
  caller : Nat
  id : FunctionId
  body : Function
  saved : Array Cell

namespace Control

def goto (c : Control) (statement : Nat) : Control := { c with statement }

def enter (c : Control) (a : Activation) : Control :=
  { c with
    calls := c.calls.add { returnStatement := a.caller, function := c.function }
    locals := c.locals.add a.saved
    function := a.id }

/-- The stacks inside some calls, the innermost first. -/
def inside (base : Control) : List Activation → Control
  | [] => base
  | a :: outer => (base.inside outer).enter a

theorem inside_program (base : Control) (calls : List Activation) :
    (base.inside calls).program = base.program := by
  induction calls with
  | nil => rfl
  | cons a outer ih => exact ih

theorem inside_depth (base : Control) (calls : List Activation) :
    (base.inside calls).calls.depth = base.calls.depth + calls.length := by
  induction calls with
  | nil => rfl
  | cons a outer ih =>
      have pushed : (base.inside (a :: outer)).calls.depth = (base.inside outer).calls.depth + 1 :=
        Array.size_push _
      rw [pushed, ih, List.length_cons, Nat.add_assoc]

theorem inside_limits (base : Control) (calls : List Activation) :
    (base.inside calls).calls.limit = base.calls.limit ∧
      (base.inside calls).locals.limit = base.locals.limit := by
  induction calls with
  | nil => exact ⟨rfl, rfl⟩
  | cons a outer ih => exact ih

end Control

/-- The call is one of a program function, and the cells saved for it are as many as its range has. -/
structure Activation.Fits (a : Activation) (p : Program) : Prop where
  function : p.function a.id = .ok a.body
  ours : a.body.nativeNumber? = none
  extent : a.saved.size = a.body.locals.toNat

structure Control.Bounded (c : Control) : Prop where
  calls : c.calls.depth ≤ c.calls.limit
  locals : c.locals.size ≤ c.locals.limit

/-- A machine is inside some calls that began over some stacks. -/
structure Stacked (base : Control) (calls : List Activation) (m : Machine) : Prop where
  control : m.control = (base.inside calls).goto m.statement
  fits : ∀ a ∈ calls, a.Fits base.program
  bounded : base.Bounded → m.control.Bounded

/-- The machine came back from a call: it is inside the outer calls, at the statement that made the call,
and the cells of the function's range are as they were. -/
structure Left (base : Control) (a : Activation) (outer : List Activation) (m : Machine) : Prop where
  stacked : Stacked base outer m
  statement : m.statement = a.caller
  restored : m.globals.slice? a.body.localsStart a.body.localsEnd = some a.saved

namespace CallStack

theorem add_top (s : CallStack) (frame : Frame) : (s.add frame).top = .ok frame := by
  simp [top, add, Array.back?_push]

theorem add_dropTop (s : CallStack) (frame : Frame) : (s.add frame).dropTop = s := by
  simp [dropTop, add]

theorem dropTop_depth (s : CallStack) : s.dropTop.depth ≤ s.depth := by
  simp [dropTop, depth]

theorem add_isEmpty (s : CallStack) (frame : Frame) : (s.add frame).isEmpty = false := by
  simp [isEmpty, add]

end CallStack

namespace LocalsStack

theorem add_top (s : LocalsStack) (cells : Array Cell) :
    (s.add cells).top cells.size = .ok cells := by
  simp [top, add, size]

theorem add_dropTop (s : LocalsStack) (cells : Array Cell) :
    (s.add cells).dropTop cells.size = s := by
  simp [dropTop, add, size]

theorem dropTop_size (s : LocalsStack) (count : Nat) : (s.dropTop count).size ≤ s.size := by
  simp only [dropTop, size, Array.size_shrink]
  omega

end LocalsStack

namespace Stacked
variable {base : Control} {calls outer : List Activation} {a : Activation} {m m' : Machine}

theorem program_eq (stacked : Stacked base calls m) : m.program = base.program := by
  have same := congrArg Control.program stacked.control
  exact same.trans (base.inside_program calls)

theorem depth_eq (stacked : Stacked base calls m) :
    m.depth = base.calls.depth + calls.length := by
  have same := congrArg (fun c => c.calls.depth) stacked.control
  exact same.trans (base.inside_depth calls)

theorem limit_eq (stacked : Stacked base calls m) :
    m.control.calls.limit = base.calls.limit := by
  have same := congrArg (fun c => c.calls.limit) stacked.control
  exact same.trans (base.inside_limits calls).1

theorem function_eq (stacked : Stacked base (a :: outer) m) : m.function = a.id :=
  congrArg Control.function stacked.control

theorem function_found (stacked : Stacked base (a :: outer) m) :
    m.program.function m.function = .ok a.body := by
  rw [stacked.program_eq, stacked.function_eq, (stacked.fits a List.mem_cons_self).function]

theorem transfer (stacked : Stacked base calls m)
    (same : m'.control = m.control.goto m'.statement) : Stacked base calls m' where
  control := by rw [same, stacked.control]; rfl
  fits := stacked.fits
  bounded := fun below => by
    have before := stacked.bounded below
    rw [same]
    exact ⟨before.calls, before.locals⟩

theorem same (stacked : Stacked base calls m) (back : m'.control = m.control) :
    Stacked base calls m' := by
  have here : m'.statement = m.statement := congrArg Control.statement back
  refine stacked.transfer ?_
  rw [back, here]
  rfl

theorem of_control {c : Control} (same : m.control = c) : Stacked c [] m where
  control := by subst same; rfl
  fits := fun _ member => absurd member List.not_mem_nil
  bounded := fun below => same ▸ below

end Stacked

theorem departure_stacked {base : Control} {a : Activation} {outer : List Activation} {m : Machine}
    (stacked : Stacked base (a :: outer) m) :
    m.departure = if m.globals.size < a.body.localsEnd then .error .fault else
      .ok (a.body, a.saved,
        { returnStatement := a.caller, function := (base.inside outer).function }) := by
  have fits := stacked.fits a List.mem_cons_self
  have calls : m.calls = _ := congrArg Control.calls stacked.control
  have locals : m.locals = _ := congrArg Control.locals stacked.control
  have function := stacked.function_found
  have top : m.locals.top a.body.locals.toNat = .ok a.saved := by
    rw [locals, ← fits.extent]
    exact LocalsStack.add_top _ _
  have frame : m.calls.top =
      .ok { returnStatement := a.caller, function := (base.inside outer).function } := by
    rw [calls]
    exact CallStack.add_top _ _
  have nonempty : m.calls.isEmpty = false := by
    rw [calls]
    exact CallStack.add_isEmpty _ _
  have extent : a.body.localsStart + a.body.locals.toNat = a.body.localsEnd := rfl
  -- Of the checks a departure makes, only the bound on the cells may still fail.
  simp only [departure, nonempty, function, top, frame, extent, Bool.false_eq_true, ↓reduceIte,
    Outcome.pure_eq, Outcome.ok_bind]
  by_cases past : m.globals.size < a.body.localsEnd
  · simp only [past, ↓reduceIte, Outcome.throw_eq, Outcome.error_bind]
  · simp only [past, ↓reduceIte]

theorem departed_stacked {base : Control} {a : Activation} {outer : List Activation} {m : Machine}
    (stacked : Stacked base (a :: outer) m) (whole : a.body.localsEnd ≤ m.globals.size) :
    Left base a outer (m.departed a.body a.saved
      { returnStatement := a.caller, function := (base.inside outer).function }) := by
  have fits := stacked.fits a List.mem_cons_self
  have calls : m.calls.dropTop = (base.inside outer).calls := by
    rw [show m.calls = _ from congrArg Control.calls stacked.control]
    exact CallStack.add_dropTop _ _
  have locals : m.locals.dropTop a.body.locals.toNat = (base.inside outer).locals := by
    rw [show m.locals = _ from congrArg Control.locals stacked.control, ← fits.extent]
    exact LocalsStack.add_dropTop _ _
  have program : m.program = (base.inside outer).program :=
    stacked.program_eq.trans (base.inside_program outer).symm
  -- The stacks, the bounds that they kept, and the cells of the range.
  refine ⟨⟨?_, fun b member => stacked.fits b (List.mem_cons_of_mem a member), fun below => ?_⟩,
    rfl, ?_⟩
  · change Control.mk m.program m.calls.dropTop (m.locals.dropTop _) _ _ = _
    rw [program, calls, locals]
    rfl
  · have before := stacked.bounded below
    exact ⟨Nat.le_trans (CallStack.dropTop_depth m.calls) before.calls,
      Nat.le_trans (LocalsStack.dropTop_size m.locals _) before.locals⟩
  · have extent : a.body.localsEnd = a.body.localsStart + a.saved.size := by
      rw [fits.extent]
      rfl
    rw [extent]
    exact Segment.overwrite_slice m.globals _ _ (by omega)

theorem entered_stacked {base : Control} {calls : List Activation} {m : Machine} {id : FunctionId}
    {f : Function} {saved : Array Cell} {moves : List Move} (stacked : Stacked base calls m)
    (function : m.program.function id = .ok f) (ours : f.nativeNumber? = none)
    (admitted : m.admission id f = .ok (saved, moves)) :
    Stacked base ({ caller := m.statement, id := id, body := f, saved := saved } :: calls)
      (m.entered id saved moves) ∧ m.globals.slice? f.localsStart f.localsEnd = some saved := by
  obtain ⟨room, found, space, -⟩ := (admission_iff m id f saved moves).mp admitted
  refine ⟨⟨?_, ?_, fun _ => ⟨?_, ?_⟩⟩, found⟩
  · change Control.mk m.program (m.calls.add _) (m.locals.add saved) id m.statement = _
    rw [show m.program = _ from congrArg Control.program stacked.control,
      show m.calls = _ from congrArg Control.calls stacked.control,
      show m.locals = _ from congrArg Control.locals stacked.control,
      show m.function = _ from congrArg Control.function stacked.control]
    rfl
  · intro a member
    rcases List.mem_cons.mp member with rfl | later
    · exact {
        function := stacked.program_eq ▸ function
        ours := ours
        extent := (Segment.slice_size found).trans (Nat.add_sub_cancel_left _ _) }
    · exact stacked.fits a later
  -- Admission checked the room on both stacks before anything was pushed.
  · change (m.calls.frames.push _).size ≤ m.calls.limit
    rw [Array.size_push]
    exact room
  · change (m.locals.cells ++ saved).size ≤ m.locals.limit
    rw [Array.size_append]
    exact space

end EntityMachine
