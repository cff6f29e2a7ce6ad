import EntityMachine.Proofs.Runs
import EntityMachine.Session

/-!
Runs side by side. A computation that starts from states which are alike comes to the same result and to
states which are alike, once each of its steps does. Sessions get by with few steps, so what agrees on
those agrees on calls, thinks and frames.
-/
namespace EntityMachine
open Machine Run

/-- From states that are alike the computation comes to the same, and leaves states that are alike unless
it came to a stop that does not count. -/
def Agrees (counts : Stop → Prop) (alike : σ → σ → Prop) (body : ExceptT Stop (StateM σ) α) : Prop :=
  ∀ s t, alike s t → (body t).1 = (body s).1 ∧
    ((∀ stop, (body s).1 = .error stop → counts stop) → alike (body s).2 (body t).2)

section Agrees
variable {counts : Stop → Prop} {alike : σ → σ → Prop}

theorem agrees_pure (a : α) : Agrees counts alike (pure a) := fun _ _ same => ⟨rfl, fun _ => same⟩

theorem agrees_throw (stop : Stop) : Agrees counts alike (throw stop : ExceptT Stop (StateM σ) α) :=
  fun _ _ same => ⟨rfl, fun _ => same⟩

theorem agrees_outcome (outcome : Outcome α) :
    Agrees counts alike (liftM outcome : ExceptT Stop (StateM σ) α) :=
  fun _ _ same => ⟨rfl, fun _ => same⟩

theorem agrees_modify {change : σ → σ} (kept : ∀ s t, alike s t → alike (change s) (change t)) :
    Agrees counts alike (modify change : ExceptT Stop (StateM σ) PUnit) :=
  fun s t same => ⟨rfl, fun _ => kept s t same⟩

theorem agrees_get {next : σ → ExceptT Stop (StateM σ) β}
    (reads : ∀ s t, alike s t → next t = next s) (rest : ∀ s, Agrees counts alike (next s)) :
    Agrees counts alike (get >>= next) := by
  intro s t same
  have both := rest s s t same
  have here : (get >>= next) t = next s t := congrFun (reads s t same) t
  rw [here]
  exact both

theorem agrees_bind {body : ExceptT Stop (StateM σ) α} {next : α → ExceptT Stop (StateM σ) β}
    (first : Agrees counts alike body) (rest : ∀ a, Agrees counts alike (next a)) :
    Agrees counts alike (body >>= next) := by
  intro s t same
  obtain ⟨result, after⟩ := first s t same
  rw [bind_apply, bind_apply]
  cases outcome : body s with
  | mk a left =>
      cases outcome' : body t with
      | mk b right =>
          rw [outcome, outcome'] at result after
          cases result
          cases a with
          | ok a => exact rest a left right (after nofun)
          | error stop =>
              refine ⟨rfl, fun quiet => after ?_⟩
              rintro _ ⟨⟩
              exact quiet stop rfl

theorem agrees_mapM {body : α → ExceptT Stop (StateM σ) β} (each : ∀ a, Agrees counts alike (body a))
    (items : List α) : Agrees counts alike (items.mapM body) := by
  induction items with
  | nil =>
      rw [List.mapM_nil]
      exact agrees_pure _
  | cons a rest ih =>
      rw [List.mapM_cons]
      exact agrees_bind (each a) fun b => agrees_bind ih fun more => agrees_pure _

theorem agrees_diagonal {inv : σ → Prop} {body : ExceptT Stop (StateM σ) α}
    (kept : ∀ s : σ, inv s → (∀ stop, (body s).1 = .error stop → counts stop) → inv (body s).2) :
    Agrees counts (fun s t => t = s ∧ inv s) body := by
  rintro s _ ⟨rfl, holds⟩
  exact ⟨rfl, fun quiet => ⟨rfl, kept _ holds quiet⟩⟩

/-- From states that are alike the computation comes to the same, and leaves states that are alike, unless
it came to a stop that does not count. After such a stop the other computation may go on. -/
def Follows (counts : Stop → Prop) (alike : σ → σ → Prop) (body : ExceptT Stop (StateM σ) α) : Prop :=
  ∀ s t, alike s t → (∀ stop, (body s).1 = .error stop → counts stop) →
    (body t).1 = (body s).1 ∧ alike (body s).2 (body t).2

theorem Agrees.follows {body : ExceptT Stop (StateM σ) α} (agrees : Agrees counts alike body) :
    Follows counts alike body := by
  intro s t same quiet
  obtain ⟨result, after⟩ := agrees s t same
  exact ⟨result, after quiet⟩

theorem Follows.agrees {body : ExceptT Stop (StateM σ) α} (follows : Follows (fun _ => True) alike body) :
    Agrees (fun _ => True) alike body := by
  intro s t same
  obtain ⟨result, after⟩ := follows s t same fun _ _ => trivial
  exact ⟨result, fun _ => after⟩

theorem follows_bind {body : ExceptT Stop (StateM σ) α} {next : α → ExceptT Stop (StateM σ) β}
    (first : Follows counts alike body) (rest : ∀ a, Follows counts alike (next a)) :
    Follows counts alike (body >>= next) := by
  intro s t same quiet
  have kept := first s t same
  rw [bind_apply] at quiet
  rw [bind_apply, bind_apply]
  cases outcome : body s with
  | mk a left =>
      cases outcome' : body t with
      | mk b right =>
          rw [outcome, outcome'] at kept
          rw [outcome] at quiet
          cases a with
          | ok a =>
              obtain ⟨result, after⟩ := kept nofun
              cases result
              exact rest a left right after quiet
          | error stop =>
              obtain ⟨result, after⟩ := kept fun _ stopped => quiet _ (by cases stopped; rfl)
              cases result
              exact ⟨rfl, after⟩

end Agrees

namespace Session

/-- The likeness covers all that a session reads for itself and outlasts each of its steps. -/
structure Likeness (counts : Stop → Prop) (alike : Session → Session → Prop) : Prop where
  natives : ∀ s t, alike s t → t.natives = s.natives
  time : ∀ s t, alike s t → t.time = s.time
  frame : ∀ s t, alike s t → t.frame = s.frame
  program : ∀ s t, alike s t → t.machine.program = s.machine.program
  entities : ∀ s t, alike s t → t.machine.entities = s.machine.entities
  timed : ∀ s t time, alike s t → alike { s with time } { t with time }
  counted : ∀ s t frame, alike s t → alike { s with frame } { t with frame }
  system : ∀ place value, Agrees counts alike (onMachine (writeSystem place value))
  fields : ∀ e field cells, Agrees counts alike (onMachine (writeFields e field cells))
  execution : ∀ id, Agrees counts alike (execute id)

theorem diagonal_likeness {counts : Stop → Prop} {inv : Session → Prop}
    (timed : ∀ s time, inv s → inv { s with time }) (counted : ∀ s frame, inv s → inv { s with frame })
    (system : ∀ place value s, inv s → inv (onMachine (writeSystem place value) s).2)
    (fields : ∀ e field cells s, inv s → inv (onMachine (writeFields e field cells) s).2)
    (execution : ∀ id s, inv s → (∀ stop, (execute id s).1 = .error stop → counts stop) →
      inv (execute id s).2) : Likeness counts fun s t => t = s ∧ inv s where
  natives := fun s t same => by rw [same.1]
  time := fun s t same => by rw [same.1]
  frame := fun s t same => by rw [same.1]
  program := fun s t same => by rw [same.1]
  entities := fun s t same => by rw [same.1]
  timed := fun s t time same => ⟨by rw [same.1], timed s time same.2⟩
  counted := fun s t frame same => ⟨by rw [same.1], counted s frame same.2⟩
  system := fun place value => agrees_diagonal fun s holds _ => system place value s holds
  fields := fun e field cells => agrees_diagonal fun s holds _ => fields e field cells s holds
  execution := fun id => agrees_diagonal (execution id)

theorem execute_apply (id : FunctionId) (s : Session) :
    execute id s = ((Machine.execute s.natives nestingBound id s.machine).1,
      { s with machine := (Machine.execute s.natives nestingBound id s.machine).2 }) := rfl

theorem executeNamed_apply (name : String) (s : Session) : executeNamed name s =
    match s.machine.program.image.findFunction? name with
    | some id => execute id s
    | none => (.error (.error { cause := .unknownFunction name }), s) := by
  unfold executeNamed
  change onMachine (byName (Machine.execute s.natives nestingBound) name) s = _
  unfold onMachine byName
  rw [Run.get_bind]
  cases s.machine.program.image.findFunction? name <;> rfl

section Likeness
variable {counts : Stop → Prop} {alike : Session → Session → Prop} (likeness : Likeness counts alike)
include likeness

theorem executeNamed_agrees (name : String) : Agrees counts alike (executeNamed name) := by
  intro s t same
  rw [executeNamed_apply, executeNamed_apply, likeness.program s t same]
  cases s.machine.program.image.findFunction? name with
  | some id => exact likeness.execution id s t same
  | none => exact ⟨rfl, fun _ => same⟩

theorem call_agrees (name : String) : Agrees counts alike (call name) := by
  refine agrees_get (fun s t same => ?_) fun s => ?_
  · rw [likeness.time s t same]
  · apply agrees_bind (likeness.system _ _)
    intro _
    apply agrees_bind (likeness.system _ _)
    intro _
    exact agrees_bind (likeness.system _ _) fun _ => executeNamed_agrees likeness name

theorem runThink_agrees (e : EntityIndex) : Agrees counts alike (runThink e) := by
  refine agrees_get (fun s t same => ?_) fun s => ?_
  · dsimp only
    rw [likeness.program s t same, likeness.entities s t same]
  · dsimp only
    split
    · split
      · exact agrees_pure _
      · refine agrees_bind (agrees_outcome _) fun scheduled => agrees_bind (agrees_outcome _) fun cell => ?_
        apply agrees_bind (likeness.fields _ _ _)
        intro _
        refine agrees_get (fun s t same => by rw [likeness.time s t same]) fun s => ?_
        refine agrees_bind (likeness.system _ _) fun _ => agrees_bind (likeness.system _ _) fun _ => ?_
        refine agrees_bind (likeness.system _ _) fun _ => agrees_bind (likeness.execution _) fun _ => ?_
        exact agrees_get (fun s t same => by rw [likeness.entities s t same]) fun s => agrees_pure _
    · exact agrees_pure _

theorem runThinks_agrees (nextthink : UInt16) (deadline : Single) (records : List EntityIndex)
    (count : Nat) : Agrees counts alike (runThinks nextthink deadline records count) := by
  induction records generalizing count with
  | nil => exact agrees_pure _
  | cons e rest ih =>
      refine agrees_get (fun s t same => by dsimp only; rw [likeness.entities s t same]) fun s => ?_
      dsimp only
      split
      · exact ih _
      · apply agrees_bind (agrees_outcome _)
        intro scheduled
        split
        · exact agrees_bind (runThink_agrees likeness e) fun _ => ih _
        · exact ih _

theorem setTime_agrees (time : Single) : Agrees counts alike (setTime time) := by
  apply agrees_bind (agrees_modify fun s t => likeness.timed s t time)
  exact fun _ => likeness.system _ _

theorem runFrame_agrees (frametime : Single) : Agrees counts alike (runFrame frametime) := by
  refine agrees_get (fun s t same => ?_) fun s => ?_
  · rw [likeness.time s t same, likeness.program s t same, likeness.entities s t same]
  -- The frame ends the same way whether or not anything thought in it.
  · have ends (count : Nat) : Agrees counts alike (do
        Room.checkCount ((← get).frame.toNat + 1)
        modify fun s => { s with frame := s.frame + 1 }
        setTime (s.time + frametime)
        return count) := by
      refine agrees_get (fun s t same => by rw [likeness.frame s t same]) fun s => ?_
      apply agrees_bind (agrees_outcome _)
      intro _
      refine agrees_bind (agrees_modify fun s t same => ?_) fun _ => ?_
      · rw [likeness.frame s t same]
        exact likeness.counted s t _ same
      · exact agrees_bind (setTime_agrees likeness _) fun _ => agrees_pure _
    dsimp only
    split
    · exact agrees_bind (runThinks_agrees likeness _ _ _ _) ends
    · exact agrees_bind (agrees_pure _) ends

end Likeness

/-! ## Plays in turn -/

/-- What some plays come to, one after the other. After an error the host goes on. -/
def inTurn : List (Play α) → Session → List (Outcome α) × Session
  | [], s => ([], s)
  | play :: rest, s =>
    let (result, s) := play s
    let (results, s) := inTurn rest s
    (result :: results, s)

theorem inTurn_cons (play : Play α) (rest : List (Play α)) (s : Session) :
    inTurn (play :: rest) s = ((play s).1 :: (inTurn rest (play s).2).1, (inTurn rest (play s).2).2) := rfl

theorem inTurn_agrees {counts : Stop → Prop} {alike : Session → Session → Prop} {plays : List (Play α)}
    (each : ∀ play ∈ plays, Agrees counts alike play) {s t : Session} (same : alike s t)
    (quiet : ∀ result ∈ (inTurn plays s).1, ∀ stop, result = .error stop → counts stop) :
    (inTurn plays t).1 = (inTurn plays s).1 ∧ alike (inTurn plays s).2 (inTurn plays t).2 := by
  induction plays generalizing s t with
  | nil => exact ⟨rfl, same⟩
  | cons play rest ih =>
      obtain ⟨now, later⟩ := List.forall_mem_cons.mp each
      obtain ⟨result, after⟩ := now s t same
      rw [inTurn_cons] at quiet
      obtain ⟨first, others⟩ := List.forall_mem_cons.mp quiet
      obtain ⟨results, last⟩ := ih later (after first) others
      rw [inTurn_cons, inTurn_cons, result, results]
      exact ⟨rfl, last⟩

end Session
end EntityMachine
