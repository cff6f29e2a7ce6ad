import EntityMachine.Proofs.Continuation

/-!
Watching a session. A host may trace, count and collect what is printed, or not: the session goes the same
way, answers the same and prints the same.
-/
namespace EntityMachine
open Machine Run

/-- What there is to watch. -/
structure Watch where
  tracing : Bool
  tracer : Option Tracer
  profile : Profile
  output : Array String

namespace Session

def watched (s : Session) (watch : Watch) : Session :=
  { s with machine := { s.machine with
    tracing := watch.tracing, tracer := watch.tracer, profile := watch.profile, output := watch.output } }

/-- What a host asks of a session that it watches. -/
inductive Action where
  | call (name : String)
  | runThink (e : EntityIndex)
  | runFrame (frametime : Single)

inductive Reply where
  | done
  | inUse (used : Bool)
  | thinks (count : Nat)
  deriving DecidableEq, Repr

def Action.reply : Action → Play Reply
  | .call name => do
    Session.call name
    return .done
  | .runThink e => do return .inUse (← Session.runThink e)
  | .runFrame frametime => do return .thinks (← Session.runFrame frametime)

def replies (actions : List Action) : Session → List (Outcome Reply) × Session :=
  inTurn (actions.map Action.reply)

theorem reply_agrees {counts : Stop → Prop} {alike : Session → Session → Prop}
    (likeness : Likeness counts alike) (action : Action) : Agrees counts alike action.reply := by
  cases action with
  | call name => exact agrees_bind (call_agrees likeness name) fun _ => agrees_pure _
  | runThink e => exact agrees_bind (runThink_agrees likeness e) fun _ => agrees_pure _
  | runFrame frametime => exact agrees_bind (runFrame_agrees likeness frametime) fun _ => agrees_pure _

theorem watched_of_alike {start other : Log} {s t : Session}
    (alike : Alike (Machine.Beside start other True) .reference s t) (dropped : other.unlinked = start.unlinked) :
    ∃ printed watch, s.machine.output = start.output ++ printed ∧ watch.output = other.output ++ printed ∧
      t = s.watched watch := by
  obtain ⟨beside, first, second, time, frame⟩ := alike
  have same : t = { s with machine := t.machine } := by
    rw [← time, ← frame, first, ← second]
  rw [same]
  generalize t.machine = m' at beside
  cases beside with
  | intro log arguments grown asked =>
      obtain ⟨printed, before, after⟩ := grown.output
      have unlinked : log.unlinked = s.machine.unlinked := by
        obtain ⟨more, before, after⟩ := grown.unlinked
        rw [after, dropped]
        exact before.symm
      refine ⟨printed, ⟨log.tracing, log.tracer, log.profile, log.output⟩, before, after, ?_⟩
      cases asked trivial
      simp only [watched, Machine.aside, unlinked]

/-- However a session is watched, calls, thinks and frames come to the same replies, print the same, and leave
a session that differs in nothing but its watch. -/
theorem watching_changes_nothing {s : Session} {watch : Watch} (natives : s.natives = .reference)
    (counters : watch.profile.size = s.machine.profile.size) (actions : List Action) :
    (replies actions (s.watched watch)).1 = (replies actions s).1 ∧
      ∃ printed last, (replies actions s).2.machine.output = s.machine.output ++ printed ∧
        last.output = watch.output ++ printed ∧
          (replies actions (s.watched watch)).2 = (replies actions s).2.watched last := by
  let other := (s.watched watch).machine.log
  have likeness : Likeness (fun _ => True) (Alike (Machine.Beside s.machine.log other True) .reference) :=
    alike_likeness (logs_likeness _ _ _) (agrees_execute Natives.reference_blind nestingBound)
  have alike : Alike (Machine.Beside s.machine.log other True) .reference s (s.watched watch) := by
    refine ⟨.intro other s.machine.argumentCount ⟨counters, ?_, ?_⟩ fun _ => rfl, natives, natives, rfl, rfl⟩
    · exact ⟨#[], by simp, by simp⟩
    · exact ⟨#[], by simp, by simp⟩
  have each : ∀ play ∈ actions.map Action.reply, Agrees (fun _ => True) _ play :=
    List.forall_mem_map.mpr fun action _ => reply_agrees likeness action
  obtain ⟨same, last⟩ := inTurn_agrees each alike fun _ _ _ _ => trivial
  exact ⟨same, watched_of_alike last rfl⟩

/-- A frame in which a think draws a number, a call of a function that there is not, and another think, traced
and not. -/
theorem watching_changes_nothing_drawing :
    let actions := [Action.runFrame ⟨0x3dcccccd⟩, .call "missing", .runThink ⟨1⟩]
    let watch : Watch := ⟨true, some (.ofConfig { enabled := true }), .replicate 3 ⟨7, 7⟩, #["before"]⟩
    drawingStart.natives = .reference ∧ watch.profile.size = drawingStart.machine.profile.size ∧
      (replies actions drawingStart).1.head?.bind (·.toOption) = some (.thinks 1) ∧
      (replies actions (drawingStart.watched watch)).1 = (replies actions drawingStart).1 ∧
        ∃ printed last, (replies actions drawingStart).2.machine.output =
          drawingStart.machine.output ++ printed ∧ last.output = watch.output ++ printed ∧
            (replies actions (drawingStart.watched watch)).2 = (replies actions drawingStart).2.watched last := by
  intro actions watch
  have natives : drawingStart.natives = .reference := rfl
  have counters : watch.profile.size = drawingStart.machine.profile.size := by decide +kernel
  have came : (replies actions drawingStart).1.head?.bind (·.toOption) = some (.thinks 1) := by decide +kernel
  exact ⟨natives, counters, came, watching_changes_nothing natives counters actions⟩

end Session
end EntityMachine
