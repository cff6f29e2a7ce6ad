import EntityMachine.Machine

/-!
How computations on a machine compose. A computation keeps the machine's new state also when it fails,
so a law about the state afterwards needs no case for the failure; a law about results leaves out
computations that stopped with a fault, since their callers never see them return.
-/
namespace EntityMachine

/-- The stop is one that a caller is told of. -/
def Stop.Reported : Stop → Prop
  | .error _ => True
  | .fault | .nestedTooDeep => False

theorem Stop.fault_silent : ¬ fault.Reported := id

theorem Stop.nesting_silent : ¬ nestedTooDeep.Reported := id

namespace Outcome

@[simp] theorem ok_bind (a : α) (next : α → Outcome β) : (Except.ok a >>= next) = next a := rfl

@[simp] theorem error_bind (stop : Stop) (next : α → Outcome β) :
    (Except.error stop >>= next) = .error stop := rfl

@[simp] theorem pure_eq (a : α) : (pure a : Outcome α) = .ok a := rfl

@[simp] theorem throw_eq (stop : Stop) : (throw stop : Outcome α) = .error stop := rfl

@[simp] theorem ofOption_some (a : α) : ofOption (some a) = .ok a := rfl

@[simp] theorem ofOption_none : (ofOption none : Outcome α) = .error .fault := rfl

theorem map_ok_iff (outcome : Outcome α) (f : α → β) (b : β) :
    outcome.map f = .ok b ↔ ∃ a, outcome = .ok a ∧ f a = b := by
  cases outcome <;> simp [Except.map]

theorem bind_ok_iff (outcome : Outcome α) (next : α → Outcome β) (b : β) :
    (outcome >>= next) = .ok b ↔ ∃ a, outcome = .ok a ∧ next a = .ok b := by
  cases outcome <;> simp

/-- What comes out is an allowed stop, or a value with a property. -/
def Meets (allowed : Stop → Prop) (fine : α → Prop) : Outcome α → Prop
  | .ok a => fine a
  | .error stop => allowed stop

def Stops (allowed : Stop → Prop) (outcome : Outcome α) : Prop := Meets allowed (fun _ => True) outcome

section Meets
variable {allowed : Stop → Prop} {fine : α → Prop}

@[simp] theorem meets_ok (a : α) : Meets allowed fine (.ok a) ↔ fine a := .rfl

@[simp] theorem meets_bind {fine : β → Prop} (outcome : Outcome α) (next : α → Outcome β) :
    Meets allowed fine (outcome >>= next) ↔
      Meets allowed (fun a => Meets allowed fine (next a)) outcome := by
  cases outcome <;> rfl

@[simp] theorem meets_map {fine : β → Prop} (outcome : Outcome α) (f : α → β) :
    Meets allowed fine (outcome.map f) ↔ Meets allowed (fun a => fine (f a)) outcome := by
  cases outcome <;> rfl

theorem Meets.mono {other : Stop → Prop} {also : α → Prop} {outcome : Outcome α}
    (meets : Meets allowed fine outcome) (stops : ∀ stop, allowed stop → other stop)
    (values : ∀ a, fine a → also a) : Meets other also outcome := by
  cases outcome with
  | ok a => exact values a meets
  | error stop => exact stops stop meets

theorem Stops.map {outcome : Outcome α} (stops : Stops allowed outcome) (f : α → β) :
    Stops allowed (outcome.map f) := (meets_map outcome f).mpr stops

end Meets
end Outcome

namespace Run

/-! ## Sequencing -/

theorem bind_apply (body : ExceptT Stop (StateM σ) α) (next : α → ExceptT Stop (StateM σ) β) (s : σ) :
    (body >>= next) s = match body s with
      | (.ok a, s') => next a s'
      | (.error stop, s') => (.error stop, s') := by
  cases outcome : body s with
  | mk result s' =>
      -- The monad is opened here, and by `attempt_apply`, and nowhere else.
      have opened : (body >>= next) s = ExceptT.bindCont next result s' :=
        congrArg (fun outcome : Except Stop α × σ => ExceptT.bindCont next outcome.1 outcome.2) outcome
      rw [opened]
      cases result <;> rfl

theorem bind_of_ok {body : Run α} (next : α → Run β) {m m' : Machine} {a : α}
    (returned : body m = (.ok a, m')) : (body >>= next) m = next a m' := by
  rw [bind_apply, returned]

@[simp] theorem get_bind (next : Machine → Run β) (m : Machine) : (get >>= next) m = next m m := rfl

@[simp] theorem set_bind (m' : Machine) (next : PUnit → Run β) (m : Machine) :
    ((set m' : Run PUnit) >>= next) m = next ⟨⟩ m' := rfl

@[simp] theorem modify_bind (change : Machine → Machine) (next : PUnit → Run β) (m : Machine) :
    ((modify change : Run PUnit) >>= next) m = next ⟨⟩ (change m) := rfl

@[simp] theorem throw_bind (stop : Stop) (next : α → Run β) (m : Machine) :
    ((throw stop : Run α) >>= next) m = (.error stop, m) := rfl

@[simp] theorem ok_bind (a : α) (next : α → Run β) (m : Machine) :
    ((liftM (Except.ok a : Outcome α) : Run α) >>= next) m = next a m := rfl

@[simp] theorem error_bind (stop : Stop) (next : α → Run β) (m : Machine) :
    ((liftM (Except.error stop : Outcome α) : Run α) >>= next) m = (.error stop, m) := rfl

theorem attempt_apply (body : Run α) (m : Machine) :
    attempt body m = match body m with
      | (.ok a, m') => (.ok (.ok a), m')
      | (.error (.error e), m') => (.ok (.error e), m')
      | (.error stop, m') => (.error stop, m') := rfl

/-! ## Parts of the machine that a computation leaves alone -/

/-- The part is the same afterwards, whether the computation fails or not. -/
def Leaves (part : Machine → σ) (body : Run α) : Prop := ∀ m, part (body m).2 = part m

section Leaves
variable {part : Machine → σ}

theorem leaves_pure (a : α) : (pure a : Run α).Leaves part := fun _ => rfl

theorem leaves_fail (cause : Cause) : (fail cause : Run α).Leaves part := fun _ => rfl

theorem leaves_get : (get : Run Machine).Leaves part := fun _ => rfl

theorem leaves_outcome (outcome : Outcome α) : (liftM outcome : Run α).Leaves part := fun _ => rfl

theorem leaves_modify {change : Machine → Machine} (same : ∀ m, part (change m) = part m) :
    (modify change : Run PUnit).Leaves part := same

theorem leaves_bind {body : Run α} {next : α → Run β} (first : body.Leaves part)
    (rest : ∀ a, (next a).Leaves part) : (body >>= next).Leaves part := by
  intro m
  rw [bind_apply]
  have before := first m
  cases outcome : body m with
  | mk result m' =>
      rw [outcome] at before
      cases result with
      | ok a => exact (rest a m').trans before
      | error stop => exact before

theorem leaves_get_bind {next : Machine → Run β}
    (rest : ∀ m, part (next m m).2 = part m) : (get >>= next : Run β).Leaves part := rest

theorem leaves_attempt {body : Run α} (kept : body.Leaves part) : (attempt body).Leaves part := by
  intro m
  have before := kept m
  rw [attempt_apply]
  cases outcome : body m with
  | mk result m' =>
      rw [outcome] at before
      cases result with
      | ok a => exact before
      | error stop => cases stop <;> exact before

theorem leaves_ite {condition : Prop} [Decidable condition] {yes no : Run α}
    (first : yes.Leaves part) (second : no.Leaves part) :
    (if condition then yes else no).Leaves part := by
  split
  · exact first
  · exact second

end Leaves

/-! ## Results that a caller sees -/

/-- The computation came back to its caller, with a value or with an error. -/
def Returned (outcome : Except Stop α) : Prop := ∀ stop, outcome = .error stop → stop.Reported

theorem returned_ok (a : α) : Returned (.ok a) := nofun

theorem returned_error_iff (stop : Stop) :
    Returned (.error stop : Except Stop α) ↔ stop.Reported := by
  constructor
  · intro returned
    exact returned stop rfl
  · rintro reported _ ⟨⟩
    exact reported

theorem Returned.passed {stop : Stop} (returned : Returned (.error stop : Except Stop α)) :
    Returned (.error stop : Except Stop β) := (returned_error_iff stop).mpr ((returned_error_iff stop).mp returned)

theorem returned_error (e : Error) : Returned (.error (.error e) : Except Stop α) :=
  (returned_error_iff _).mpr trivial

theorem not_returned {stop : Stop} (silent : ¬ stop.Reported) :
    ¬ Returned (.error stop : Except Stop α) := mt (returned_error_iff stop).mp silent

theorem returned_of_isOk {outcome : Outcome α} (succeeds : outcome.isOk = true) :
    Returned outcome := by
  cases outcome with
  | ok a => exact returned_ok a
  | error stop => cases succeeds

theorem eq_of_outcome {result : Outcome α × Machine} {outcome : Outcome α}
    (came : result.1 = outcome) : result = (outcome, result.2) := by
  rw [← came]

end Run
end EntityMachine
