import EntityMachine.Proofs.Soundness

/-!
Invariants of what statements cannot change. Statements rewrite cells and move through calls; the program,
the sizes, the bookkeeping of records, the strings and the switches change in native functions alone. So
an invariant of those holds through whole executions once the native functions keep it.
-/
namespace EntityMachine
open Machine Run

/-- Everything in a machine that its own statements leave alone. -/
structure Durable where
  program : Program
  config : MachineConfig
  segment : Nat
  entities : Entities.Outline
  strings : StringPool
  profile : Nat
  output : Array String
  random : RandomStream
  active : Bool
  tracing : Bool
  unlinked : Array EntityIndex

def Machine.durable (m : Machine) : Durable where
  program := m.program
  config := m.config
  segment := m.globals.size
  entities := m.entities.outline
  strings := m.strings
  profile := m.profile.size
  output := m.output
  random := m.random
  active := m.active
  tracing := m.tracing
  unlinked := m.unlinked

/-- If the invariant holds before, it holds afterwards, unless the computation came to a stop that does
not count. -/
def Run.Preserves (counts : Stop → Prop) (inv : Machine → Prop) (body : Run α) : Prop :=
  ∀ m, inv m → (∀ stop, (body m).1 = .error stop → counts stop) → inv (body m).2

namespace Run

section Preserves
variable {counts : Stop → Prop} {inv : Machine → Prop}

theorem Leaves.preserves {part : Machine → σ} {body : Run α} (kept : body.Leaves part)
    (inv : σ → Prop) : body.Preserves counts fun m => inv (part m) := by
  intro m holds _
  rw [kept m]
  exact holds

theorem preserves_pure (a : α) : (pure a : Run α).Preserves counts inv := fun _ holds _ => holds

theorem preserves_throw (stop : Stop) : (throw stop : Run α).Preserves counts inv :=
  fun _ holds _ => holds

theorem preserves_outcome (outcome : Outcome α) : (liftM outcome : Run α).Preserves counts inv :=
  fun _ holds _ => holds

theorem preserves_modify {change : Machine → Machine} (kept : ∀ m, inv m → inv (change m)) :
    (modify change : Run PUnit).Preserves counts inv := fun m holds _ => kept m holds

theorem preserves_get {next : Machine → Run β} (rest : ∀ m, (next m).Preserves counts inv) :
    (get >>= next : Run β).Preserves counts inv := fun m => rest m m

theorem preserves_bind {body : Run α} {next : α → Run β} (first : body.Preserves counts inv)
    (rest : ∀ a, (next a).Preserves counts inv) : (body >>= next).Preserves counts inv := by
  intro m holds quiet
  have before := first m holds
  rw [bind_apply] at quiet ⊢
  cases outcome : body m with
  | mk result m' =>
      rw [outcome] at before quiet
      cases result with
      | ok a => exact rest a m' (before nofun) quiet
      | error stop =>
          refine before ?_
          rintro _ ⟨⟩
          exact quiet stop rfl

theorem preserves_mapM {body : α → Run β} (each : ∀ a, (body a).Preserves counts inv) (items : List α) :
    (items.mapM body).Preserves counts inv := by
  induction items with
  | nil =>
      rw [List.mapM_nil]
      exact preserves_pure _
  | cons a rest ih =>
      rw [List.mapM_cons]
      exact preserves_bind (each a) fun b => preserves_bind ih fun more => preserves_pure _

theorem preserves_attempt {body : Run α} (told : ∀ e, counts (.error e))
    (tried : body.Preserves counts inv) : (attempt body).Preserves counts inv := by
  intro m holds quiet
  have before := tried m holds
  rw [attempt_apply] at quiet ⊢
  cases outcome : body m with
  | mk result m' =>
      rw [outcome] at before quiet
      cases result with
      | ok a => exact before nofun
      | error stop =>
          cases stop with
          | error e =>
              refine before ?_
              rintro _ ⟨⟩
              exact told e
          | fault =>
              refine before ?_
              rintro _ ⟨⟩
              exact quiet .fault rfl
          | nestedTooDeep =>
              refine before ?_
              rintro _ ⟨⟩
              exact quiet .nestedTooDeep rfl

end Preserves
end Run

namespace Machine
variable (m : Machine)

theorem durable_of_sizes {m' : Machine} (globals : m'.globals.size = m.globals.size)
    (entities : m'.entities.outline = m.entities.outline) (profile : m'.profile.size = m.profile.size)
    (rest : m'.durable = { m.durable with
      segment := m'.globals.size, entities := m'.entities.outline, profile := m'.profile.size }) :
    m'.durable = m.durable := by
  rw [rest, globals, entities, profile]
  rfl

theorem durable_of_globals {globals : Segment} (same : globals.size = m.globals.size) :
    ({ m with globals } : Machine).durable = m.durable := m.durable_of_sizes same rfl rfl rfl

theorem durable_of_entities {entities : Entities} (same : entities.outline = m.entities.outline) :
    ({ m with entities } : Machine).durable = m.durable := m.durable_of_sizes rfl same rfl rfl

theorem entered_durable (id : FunctionId) (saved : Array Cell) (moves : List Move) :
    (m.entered id saved moves).durable = m.durable :=
  m.durable_of_sizes (Segment.moveAll_size _ _) rfl Array.size_modify rfl

theorem departed_durable (f : Function) (saved : Array Cell) (frame : Frame) :
    (m.departed f saved frame).durable = m.durable :=
  m.durable_of_sizes (Segment.overwrite_size _ _ _) rfl rfl rfl

theorem fetched_durable (s : Nat) (statement : Statement) :
    (m.fetched s statement).durable = m.durable := m.durable_of_sizes rfl rfl Array.size_modify rfl

theorem handed_durable (id : FunctionId) (number : Nat) (f : Native) :
    (m.handed id number f).durable = m.durable := m.durable_of_sizes rfl rfl Array.size_modify rfl

/-! ## Statements -/

theorem enter_durable (id : FunctionId) (f : Function) : (enter id f).Leaves durable := by
  intro m
  rw [enter_apply]
  cases m.admission id f with
  | error stop => rfl
  | ok found => exact m.entered_durable id found.1 found.2

theorem leave_durable : leave.Leaves durable := by
  intro m
  rw [leave_apply]
  cases m.departure with
  | error stop => rfl
  | ok found => exact m.departed_durable found.1 found.2.1 found.2.2

theorem fetch_durable (s : Nat) : (fetch s).Leaves durable := by
  intro m
  rw [fetch_apply]
  cases m.program.statement? s with
  | none => rfl
  | some statement =>
      simp only
      split
      · exact m.fetched_durable s statement
      · rfl

theorem leaveMany_durable (count : Nat) : (leaveMany count).Leaves durable := by
  induction count with
  | zero => exact leaves_pure ()
  | succ count ih =>
      rw [leaveMany]
      apply leaves_bind (leaves_attempt leave_durable)
      intro left
      cases left with
      | ok statement => exact ih
      | error e => exact leaves_pure ()

end Machine

/-! ## Executions -/

/-- The native functions keep a family of invariants, as long as the executions do that they start. -/
def Natives.Preserve {ι : Type} (natives : Natives) (counts : Stop → Prop) (inv : ι → Durable → Prop) :
    Prop :=
  ∀ number f (reenter : FunctionId → Run Unit), natives.lookup number = .ok f →
    (∀ i id, (reenter id).Preserves counts fun m => inv i m.durable) →
      ∀ i, (f.run reenter).Preserves counts fun m => inv i m.durable

namespace Machine
section Execute
variable {ι : Type} {counts : Stop → Prop} {inv : ι → Durable → Prop} {natives : Natives}
  {reenter : FunctionId → Run Unit}

theorem callNative_preserves (preserve : natives.Preserve counts inv)
    (deeper : ∀ i id, (reenter id).Preserves counts fun m => inv i m.durable) (id : FunctionId)
    (number : Nat) (i : ι) :
    (callNative natives reenter id number).Preserves counts fun m => inv i m.durable := by
  intro m holds quiet
  rw [callNative_apply] at quiet ⊢
  cases found : natives.lookup number with
  | error stop => exact holds
  | ok f =>
      rw [found] at quiet
      have handed : inv i (m.handed id number f).durable := by rwa [handed_durable]
      exact preserve number f reenter found deeper i _ handed quiet

-- Only calls of native functions are beyond the statements themselves.
theorem perform_preserves (preserve : natives.Preserve counts inv)
    (deeper : ∀ i id, (reenter id).Preserves counts fun m => inv i m.durable)
    (entryDepth s : Nat) (effect : Effect) (i : ι) :
    (perform natives reenter entryDepth s effect).Preserves counts fun m => inv i m.durable := by
  cases effect with
  | write offset cells =>
      apply preserves_bind ((write_leaves offset cells fun m _ => m.durable_of_globals).preserves (inv i))
      exact fun _ => preserves_pure _
  | writeField address cells =>
      apply preserves_bind
        ((writeFields_leaves _ _ cells fun m _ => m.durable_of_entities).preserves (inv i))
      exact fun _ => preserves_pure _
  | jump distance => exact preserves_pure _
  | call callee arguments =>
      refine preserves_bind (preserves_modify fun _ holds => holds) fun _ => preserves_get fun m => ?_
      refine preserves_bind (preserves_outcome _) fun f => ?_
      split
      · apply preserves_bind (callNative_preserves preserve deeper callee _ i)
        exact fun _ => preserves_pure _
      · apply preserves_bind ((enter_durable callee f).preserves (inv i))
        exact fun _ => preserves_pure _
  | finish offset =>
      apply preserves_bind
        ((giveResult_leaves offset fun m _ => m.durable_of_globals).preserves (inv i))
      intro _
      refine preserves_bind (leave_durable.preserves (inv i)) fun caller => preserves_get fun m => ?_
      split
      · exact preserves_pure _
      · exact preserves_pure _
  | schedule frame think =>
      apply preserves_bind
        ((schedule_leaves frame think fun m _ => m.durable_of_entities).preserves (inv i))
      exact fun _ => preserves_pure _

theorem step_preserves (preserve : natives.Preserve counts inv)
    (deeper : ∀ i id, (reenter id).Preserves counts fun m => inv i m.durable)
    (entryDepth s : Nat) (i : ι) :
    (step natives reenter entryDepth s).Preserves counts fun m => inv i m.durable := by
  apply preserves_bind ((fetch_durable s).preserves (inv i))
  intro statement
  split
  · exact preserves_throw _
  · refine preserves_get fun m => preserves_bind (preserves_outcome _) fun effect => ?_
    exact perform_preserves preserve deeper entryDepth s effect i

theorem loop_preserves (preserve : natives.Preserve counts inv)
    (deeper : ∀ i id, (reenter id).Preserves counts fun m => inv i m.durable)
    (entryDepth budget s : Nat) (i : ι) :
    Run.Preserves counts (fun m => inv i m.durable) (loop natives reenter entryDepth budget s) := by
  induction budget generalizing s with
  | zero => exact fun _ holds _ => holds
  | succ budget ih =>
      intro m holds quiet
      have kept := step_preserves preserve deeper entryDepth s i m holds
      rw [loop] at quiet ⊢
      cases outcome : step natives reenter entryDepth s m with
      | mk result m' =>
          rw [outcome] at kept quiet
          rcases result with stop | (_ | next)
          · refine kept ?_
            rintro _ ⟨⟩
            exact quiet stop rfl
          · exact kept nofun
          · exact ih next m' (kept nofun) quiet

theorem runFunction_preserves (preserve : natives.Preserve counts inv)
    (deeper : ∀ i id, (reenter id).Preserves counts fun m => inv i m.durable) (id : FunctionId) (i : ι) :
    (runFunction natives reenter id).Preserves counts fun m => inv i m.durable := by
  refine preserves_get fun _ => preserves_get fun m => ?_
  refine preserves_bind (preserves_outcome _) fun f =>
    preserves_bind (preserves_modify fun _ holds => holds) fun _ => ?_
  split
  · exact callNative_preserves preserve deeper id _ i
  · apply preserves_bind ((enter_durable id f).preserves (inv i))
    exact fun first m => loop_preserves preserve deeper _ _ first i m

theorem execute_preserves (told : ∀ e, counts (.error e)) (preserve : natives.Preserve counts inv)
    (nesting : Nat) (id : FunctionId) (i : ι) :
    (execute natives nesting id).Preserves counts fun m => inv i m.durable := by
  induction nesting generalizing id i with
  | zero => exact preserves_throw _
  | succ nesting ih =>
      have body := runFunction_preserves preserve (fun i id => ih id i) id i
      refine preserves_get fun m => preserves_bind (preserves_attempt told body) fun result => ?_
      cases result with
      | ok done => exact preserves_pure ()
      | error e =>
          refine preserves_get fun m => preserves_bind (preserves_outcome _) fun e => ?_
          refine preserves_bind (preserves_get fun m => ?_) fun _ => preserves_throw _
          exact (leaveMany_durable _).preserves (inv i)

end Execute
end Machine

/-! ## Soundness -/

def Durable.shape (d : Durable) : Shape := ⟨d.program, d.segment, d.entities, d.profile⟩

def Durable.Sound (d : Durable) : Prop := ∀ m : Machine, m.durable = d → m.Sound

theorem Machine.durable_sound (m : Machine) : m.durable.Sound ↔ m.Sound := by
  constructor
  · intro sound
    exact sound m rfl
  · intro sound m' same
    exact sound.of_shape (congrArg Durable.shape same)

/-- The native functions leave sound machines sound whenever they return, and do not replace the program, as
long as the executions do that they start. -/
def Natives.KeepSound (natives : Natives) : Prop :=
  natives.Preserve Stop.Reported fun (program : Program) d => d.Sound ∧ d.program = program

theorem Machine.execute_sound {natives : Natives} (keep : natives.KeepSound) (nesting : Nat)
    (id : FunctionId) {m : Machine} (sound : m.Sound)
    (returned : Returned (execute natives nesting id m).1) :
    (execute natives nesting id m).2.Sound ∧ (execute natives nesting id m).2.program = m.program := by
  have kept := execute_preserves (fun _ => trivial) keep nesting id m.program m
    ⟨m.durable_sound.mpr sound, rfl⟩ returned
  exact ⟨(durable_sound _).mp kept.1, kept.2⟩

end EntityMachine
