import EntityMachine.Proofs.Likeness

/-!
Observation. Counters, printed lines, traces and notes for the spatial index are kept for the host. Nothing
that runs looks at them: two machines that differ in those alone go the same way, and what the one prints
and notes on the way the other does too.
-/
namespace EntityMachine
open Machine Run

/-- What a machine keeps for its host. -/
structure Log where
  profile : Profile
  output : Array String
  tracing : Bool
  tracer : Option Tracer
  unlinked : Array EntityIndex

/-- Two logs, each grown from one of another two, and both by the same. -/
structure Log.Grown (start other a b : Log) : Prop where
  profile : b.profile.size = a.profile.size
  output : ∃ printed, a.output = start.output ++ printed ∧ b.output = other.output ++ printed
  unlinked : ∃ dropped, a.unlinked = start.unlinked ++ dropped ∧ b.unlinked = other.unlinked ++ dropped

namespace Machine

def log (m : Machine) : Log := ⟨m.profile, m.output, m.tracing, m.tracer, m.unlinked⟩

def aside (m : Machine) (log : Log) (arguments : Nat) : Machine :=
  { m with
    argumentCount := arguments, profile := log.profile, output := log.output, tracing := log.tracing
    tracer := log.tracer, unlinked := log.unlinked }

/-- The machines differ in their logs, which have grown alike since two others. They agree in the pending
arguments too if it is asked. -/
inductive Beside (start other : Log) (asked : Prop) (m : Machine) : Machine → Prop
  | intro (log : Log) (arguments : Nat) : Log.Grown start other m.log log →
      (asked → arguments = m.argumentCount) → Beside start other asked m (m.aside log arguments)

end Machine

/-- The computation does not look at logs, and adds the same to both. -/
def Run.Blind (start other : Log) (asked : Prop) (body : Run α) : Prop :=
  Agrees (fun _ => True) (Machine.Beside start other asked) body

section Blind
variable {start other : Log} {asked : Prop} {m m' : Machine}

/-! ## Changes to both machines -/

namespace Machine

theorem Beside.change (beside : m.Beside start other asked m') (change : Machine → Machine)
    (apart : ∀ log arguments, change (m.aside log arguments) = (change m).aside log arguments)
    (log : (change m).log = m.log) (arguments : (change m).argumentCount = m.argumentCount) :
    Beside start other asked (change m) (change m') := by
  cases beside with
  | intro log' arguments' grown same =>
      rw [apart]
      exact .intro log' arguments' (log ▸ grown) (arguments ▸ same)

theorem Beside.logged (beside : m.Beside start other asked m') (change : Machine → Machine)
    (apart : ∀ log arguments,
      change (m.aside log arguments) = (change m).aside (change (m.aside log arguments)).log arguments)
    (profile : ∀ m, (change m).profile.size = m.profile.size)
    (output : ∀ m, (change m).output = m.output) (unlinked : ∀ m, (change m).unlinked = m.unlinked)
    (arguments : (change m).argumentCount = m.argumentCount) :
    Beside start other asked (change m) (change m') := by
  cases beside with
  | intro log arguments' grown same =>
      rw [apart]
      refine .intro _ arguments' ⟨?_, ?_, ?_⟩ (arguments ▸ same)
      · exact (profile _).trans (grown.profile.trans (profile m).symm)
      · obtain ⟨printed, first, second⟩ := grown.output
        exact ⟨printed, (output m).trans first, (output _).trans second⟩
      · obtain ⟨dropped, first, second⟩ := grown.unlinked
        exact ⟨dropped, (unlinked m).trans first, (unlinked _).trans second⟩

theorem Beside.printed (beside : m.Beside start other asked m') (text : String) :
    Beside start other asked { m with output := m.output.push text }
      { m' with output := m'.output.push text } := by
  cases beside with
  | intro log arguments grown same =>
      obtain ⟨profile, ⟨printed, first, second⟩, unlinked⟩ := grown
      refine .intro { log with output := log.output.push text } arguments ⟨profile, ?_, unlinked⟩ same
      refine ⟨printed.push text, ?_, ?_⟩
      · rw [Array.append_push]
        exact congrArg (Array.push · text) first
      · rw [Array.append_push]
        exact congrArg (Array.push · text) second

theorem Beside.dropped (beside : m.Beside start other asked m') (e : EntityIndex) (entities : Entities) :
    Beside start other asked { m with unlinked := m.unlinked.push e, entities }
      { m' with unlinked := m'.unlinked.push e, entities } := by
  cases beside with
  | intro log arguments grown same =>
      obtain ⟨profile, output, dropped, first, second⟩ := grown
      refine .intro { log with unlinked := log.unlinked.push e } arguments ⟨profile, output, ?_⟩ same
      refine ⟨dropped.push e, ?_, ?_⟩
      · rw [Array.append_push]
        exact congrArg (Array.push · e) first
      · rw [Array.append_push]
        exact congrArg (Array.push · e) second

theorem Beside.passed (beside : m.Beside start other asked m') (argumentCount : Nat) :
    Beside start other True { m with argumentCount } { m' with argumentCount } := by
  cases beside with
  | intro log arguments grown => exact .intro log argumentCount grown fun _ => rfl

theorem Beside.weaken (beside : m.Beside start other True m') : m.Beside start other asked m' := by
  cases beside with
  | intro log arguments grown same => exact .intro log arguments grown fun _ => same trivial

/-! ## Reading -/

theorem Beside.same (beside : m.Beside start other asked m') (part : Machine → σ)
    (apart : ∀ log arguments, part (m.aside log arguments) = part m) : part m' = part m := by
  cases beside with
  | intro log arguments => exact apart log arguments

theorem Beside.covers (beside : m.Beside start other asked m') (id : FunctionId) :
    m'.profile.covers id = m.profile.covers id := by
  cases beside with
  | intro log arguments grown =>
      have sizes : log.profile.size = m.profile.size := grown.profile
      simp only [aside, Profile.covers, sizes]

theorem Beside.admission (beside : m.Beside start other True m') (id : FunctionId) (f : Function) :
    m'.admission id f = m.admission id f := by
  have covers := beside.covers id
  cases beside with
  | intro log arguments grown same =>
      cases same trivial
      unfold Machine.admission
      rw [covers]
      rfl

theorem beside_arguments (m m' : Machine) (beside : m.Beside start other True m') :
    m'.argumentCount = m.argumentCount := by
  cases beside with
  | intro log arguments grown same => exact same trivial

theorem logs_likeness (start other : Log) (asked : Prop) : Likeness (Beside start other asked) where
  bare := fun _ _ beside => beside.same Machine.bare fun _ _ => rfl
  covers := fun _ _ id beside => beside.covers id
  globals := fun _ _ globals beside => beside.change ({ · with globals }) (fun _ _ => rfl) rfl rfl
  entities := fun _ _ entities beside => beside.change ({ · with entities }) (fun _ _ => rfl) rfl rfl
  strings := fun _ _ strings beside => beside.change ({ · with strings }) (fun _ _ => rfl) rfl rfl
  random := fun _ _ random beside => beside.change ({ · with random }) (fun _ _ => rfl) rfl rfl
  passed := fun _ _ argumentCount beside => (beside.passed argumentCount).weaken
  tracing := fun _ _ tracing beside => beside.logged ({ · with tracing }) (fun _ _ => rfl)
    (fun _ => rfl) (fun _ => rfl) (fun _ => rfl) rfl
  printed := fun _ _ text beside => beside.printed text
  dropped := fun _ _ e entities beside => beside.dropped e entities
  entered := fun _ _ id saved moves beside => beside.logged (·.entered id saved moves) (fun _ _ => rfl)
    (fun _ => Array.size_modify) (fun _ => rfl) (fun _ => rfl) rfl
  departed := fun _ _ f saved frame beside => beside.logged (·.departed f saved frame) (fun _ _ => rfl)
    (fun _ => rfl) (fun _ => rfl) (fun _ => rfl) rfl
  fetched := fun _ _ s statement beside => beside.logged (·.fetched s statement) (fun _ _ => rfl)
    (fun _ => Array.size_modify) (fun _ => rfl) (fun _ => rfl) rfl
  handed := fun _ _ id number f beside => beside.logged (·.handed id number f) (fun _ _ => rfl)
    (fun _ => Array.size_modify) (fun _ => rfl) (fun _ => rfl) rfl

theorem logs_course (start other : Log) : Course (fun _ => True) (Beside start other True) where
  toLikeness := logs_likeness start other True
  admission := fun _ _ id f beside _ => beside.admission id f
  budget := fun _ _ beside => Nat.le_of_eq (beside.same (·.config.runawayLimit) fun _ _ => rfl).symm
  spent := fun _ _ _ beside _ => beside.same (·.config.runawayLimit) fun _ _ => rfl
  told := fun _ _ _ _ => trivial

end Machine
end Blind

/-- The native functions do not look at logs either, as long as the executions do not that they start. -/
def Natives.Blind (natives : Natives) : Prop :=
  ∀ start other number f reenter, natives.lookup number = .ok f →
    (∀ id, (reenter id).Blind start other True) → (f.run reenter).Blind start other True

theorem agrees_execute {start other : Log} {asked : Prop} {natives : Natives} (blind : natives.Blind)
    (nesting : Nat) (id : FunctionId) : (execute natives nesting id).Blind start other asked := by
  have follow : natives.Follow (fun _ => True) (Machine.Beside start other True) := by
    intro number f reenter known deeper
    exact (blind start other number f reenter known fun id => (deeper id).agrees).follows
  have course := logs_course start other
  cases nesting with
  | zero => exact agrees_throw _
  | succ nesting =>
      -- The arguments that were pending before are not asked for.
      have ran : Follows (fun _ => True) (Machine.Beside start other asked)
          (runFunction natives (execute natives nesting) id) :=
        follows_runFunction course follow (follows_execute course follow nesting)
          (logs_likeness start other asked) (fun _ _ arguments beside => beside.passed arguments)
          (fun _ _ beside => beside.weaken) id
      exact (follows_guarded (logs_likeness start other asked) course.told ran).agrees

theorem Natives.reference_blind : Natives.reference.Blind := by
  intro start other number f reenter known _
  obtain ⟨row, member, rfl⟩ := reference_known known
  exact Reference.catalogue_same (logs_likeness start other True) beside_arguments row member

end EntityMachine
