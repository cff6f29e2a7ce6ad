import EntityMachine.Proofs.Agreement
import EntityMachine.Proofs.ReferenceNatives

/-!
Machines that are alike. What an operation looks at is a small part of a machine, and what it does to the
machine is one of a few changes. Two machines which agree in that part, and still do after each of these
changes, come to the same with any operation that does not ask for its room.
-/
namespace EntityMachine
open Machine Run

namespace Machine

/-- The machine without its bounds, its pending arguments and what it keeps for its host. -/
def bare (m : Machine) : Machine :=
  { m with
    config := { m.config with runawayLimit := 0, maxCallDepth := 0, localsCells := 0 }
    calls := { m.calls with limit := 0 }
    locals := { m.locals with limit := 0 }
    argumentCount := 0, profile := #[], output := #[], tracing := false, tracer := none, unlinked := #[] }

/-- Machines that are alike agree in all that is read, and outlast all that is done. -/
structure Likeness (alike : Machine → Machine → Prop) : Prop where
  bare : ∀ m m', alike m m' → m'.bare = m.bare
  covers : ∀ m m' id, alike m m' → m'.profile.covers id = m.profile.covers id
  globals : ∀ m m' globals, alike m m' → alike { m with globals } { m' with globals }
  entities : ∀ m m' entities, alike m m' → alike { m with entities } { m' with entities }
  strings : ∀ m m' strings, alike m m' → alike { m with strings } { m' with strings }
  random : ∀ m m' random, alike m m' → alike { m with random } { m' with random }
  passed : ∀ m m' argumentCount, alike m m' → alike { m with argumentCount } { m' with argumentCount }
  tracing : ∀ m m' tracing, alike m m' → alike { m with tracing } { m' with tracing }
  printed : ∀ m m' text, alike m m' →
    alike { m with output := m.output.push text } { m' with output := m'.output.push text }
  dropped : ∀ m m' e entities, alike m m' → alike { m with unlinked := m.unlinked.push e, entities }
    { m' with unlinked := m'.unlinked.push e, entities }
  entered : ∀ m m' id saved moves, alike m m' → alike (m.entered id saved moves) (m'.entered id saved moves)
  departed : ∀ m m' f saved frame, alike m m' → alike (m.departed f saved frame) (m'.departed f saved frame)
  fetched : ∀ m m' s statement, alike m m' → alike (m.fetched s statement) (m'.fetched s statement)
  handed : ∀ m m' id number f, alike m m' → alike (m.handed id number f) (m'.handed id number f)

theorem callsFrom_bare (m : Machine) (frames : List Frame) (id : FunctionId) (statement : Nat) :
    m.bare.callsFrom frames id statement = m.callsFrom frames id statement := by
  induction frames generalizing id statement with
  | nil => rfl
  | cons frame rest ih =>
      rw [callsFrom, callsFrom, ih]
      rfl

theorem located_bare (m : Machine) (e : Error) : m.bare.located e = m.located e := by
  have stack : m.bare.stackTrace = m.stackTrace := callsFrom_bare _ _ _ _
  unfold located context
  rw [stack]
  rfl

theorem Likeness.reads {alike : Machine → Machine → Prop} (likeness : Likeness alike) {m m' : Machine}
    (same : alike m m') (part : Machine → σ) (blind : ∀ m, part m.bare = part m) : part m' = part m := by
  rw [← blind m', ← blind m, likeness.bare m m' same]

end Machine

/-- The computation comes to the same on machines that are alike, and leaves them alike. -/
def Run.Same (alike : Machine → Machine → Prop) (body : Run α) : Prop := Agrees (fun _ => True) alike body

theorem Run.Same.follows {counts : Stop → Prop} {alike : Machine → Machine → Prop} {body : Run α}
    (same : body.Same alike) : Follows counts alike body :=
  fun m m' beside _ => Agrees.follows same m m' beside fun _ _ => trivial

section Likeness
variable {alike : Machine → Machine → Prop} (likeness : Machine.Likeness alike)
include likeness

/-! ## Single operations -/

theorem same_ask {next : Machine → Run β} (blind : ∀ m, next m.bare = next m)
    (rest : ∀ m, (next m).Same alike) : (get >>= next : Run β).Same alike :=
  agrees_get (fun _ _ same => likeness.reads same next blind) rest

theorem same_write (offset : Nat) (cells : Array Cell) : (write offset cells).Same alike := by
  intro m m' same
  have globals := likeness.reads same Machine.globals fun _ => rfl
  rw [write_apply, write_apply, globals]
  split
  · exact ⟨rfl, fun _ => likeness.globals _ _ _ same⟩
  · exact ⟨rfl, fun _ => same⟩

theorem same_writeSystem (place : SystemGlobals → Option UInt16) (value : Cell) :
    (writeSystem place value).Same alike := by
  apply same_ask likeness fun _ => rfl
  intro m
  split
  · exact same_write likeness _ _
  · exact agrees_pure ()

theorem same_writeFields (e : EntityIndex) (field : UInt32) (cells : Array Cell) :
    (writeFields e field cells).Same alike := by
  apply same_ask likeness fun _ => rfl
  intro m
  apply agrees_bind (agrees_outcome _)
  intro position
  dsimp only
  split
  · exact agrees_throw _
  · apply agrees_modify
    intro m m' same
    have entities := likeness.reads same Machine.entities fun _ => rfl
    rw [entities]
    exact likeness.entities _ _ _ same

theorem same_leave : leave.Same alike := by
  intro m m' same
  have departure := likeness.reads same departure fun _ => rfl
  rw [leave_apply, leave_apply, departure]
  cases m.departure with
  | error stop => exact ⟨rfl, fun _ => same⟩
  | ok found => exact ⟨rfl, fun _ => likeness.departed _ _ _ _ _ same⟩

theorem same_fetch (s : Nat) : (fetch s).Same alike := by
  intro m m' same
  have program := likeness.reads same program fun _ => rfl
  have function := likeness.reads same function fun _ => rfl
  rw [fetch_apply, fetch_apply, program, function, likeness.covers m m' _ same]
  cases m.program.statement? s with
  | none => exact ⟨rfl, fun _ => same⟩
  | some statement =>
      dsimp only
      split
      · exact ⟨rfl, fun _ => likeness.fetched _ _ _ _ same⟩
      · exact ⟨rfl, fun _ => same⟩

theorem same_writeDeclared (e : EntityIndex) (cells : Array Cell) (field : Option UInt16) :
    (writeDeclared e cells field).Same alike := by
  cases field with
  | none => exact agrees_pure ()
  | some field => exact same_writeFields likeness e field.toUInt32 cells

theorem same_refreshFrame (e : EntityIndex) (frame : Single) (field : Option UInt16) :
    (refreshFrame e frame field).Same alike := by
  cases field with
  | none => exact agrees_pure ()
  | some field =>
      apply same_ask likeness fun _ => rfl
      intro m
      apply agrees_bind (agrees_outcome _)
      intro current
      split
      · exact agrees_pure ()
      · exact same_writeFields likeness e field.toUInt32 _

theorem same_schedule (frame : Single) (think : Cell) : (schedule frame think).Same alike := by
  apply same_ask likeness fun _ => rfl
  intro m
  refine agrees_bind (agrees_outcome _) fun e => agrees_bind (agrees_outcome _) fun now => ?_
  refine agrees_bind (same_writeDeclared likeness e _ _) fun _ => ?_
  exact agrees_bind (same_refreshFrame likeness e _ _) fun _ => same_writeDeclared likeness e _ _

theorem same_giveResult (offset : Nat) : (giveResult offset).Same alike := by
  apply same_ask likeness fun _ => rfl
  intro m
  exact agrees_bind (agrees_outcome _) fun cells => same_write likeness _ _

omit likeness in
theorem same_attempt {body : Run α} (tried : body.Same alike) : (attempt body).Same alike := by
  intro m m' same
  obtain ⟨result, after⟩ := tried m m' same
  have after := after fun _ _ => trivial
  rw [attempt_apply, attempt_apply]
  cases outcome : body m with
  | mk a left =>
      cases outcome' : body m' with
      | mk b right =>
          rw [outcome, outcome'] at result after
          cases result
          rcases a with stop | a
          · cases stop <;> exact ⟨rfl, fun _ => after⟩
          · exact ⟨rfl, fun _ => after⟩

theorem same_leaveMany (count : Nat) : (leaveMany count).Same alike := by
  induction count with
  | zero => exact agrees_pure ()
  | succ count ih =>
      apply agrees_bind (same_attempt (same_leave likeness))
      intro left
      cases left with
      | ok statement => exact ih
      | error e => exact agrees_pure ()

theorem same_unwind (depth : Nat) : (unwind depth).Same alike :=
  same_ask likeness (fun _ => rfl) fun _ => same_leaveMany likeness _

end Likeness

/-! ## Executions -/

def Natives.Follow (natives : Natives) (counts : Stop → Prop) (alike : Machine → Machine → Prop) : Prop :=
  ∀ number f reenter, natives.lookup number = .ok f → (∀ id, Follows counts alike (reenter id)) →
    Follows counts alike (f.run reenter)

/-- Machines alike that have the same room, or one of them more than the other while running out of room
does not count. -/
structure Machine.Course (counts : Stop → Prop) (alike : Machine → Machine → Prop) : Prop
    extends Machine.Likeness alike where
  admission : ∀ m m' id f, alike m m' → (∀ stop, m.admission id f = .error stop → counts stop) →
    m'.admission id f = m.admission id f
  budget : ∀ m m', alike m m' → m.config.runawayLimit ≤ m'.config.runawayLimit
  /-- More statements may be run only where a run that spends them all does not count. -/
  spent : ∀ m m' n, alike m m' → counts (.error { cause := .limitExceeded (.runaway n) }) →
    m'.config.runawayLimit = m.config.runawayLimit
  /-- An error counts where what is told of it does. -/
  told : ∀ e stop, counts stop → (∀ told, stop = .error told → told.cause = e.cause) → counts (.error e)

theorem unwind_stop {depth : Nat} {m : Machine} {stop : Stop} (stopped : (unwind depth m).1 = .error stop)
    (e : Error) : stop ≠ .error e := by
  have many (count : Nat) : ∀ m : Machine, (leaveMany count m).1 ≠ .error (.error e) := by
    induction count with
    | zero => rintro m ⟨⟩
    | succ count ih =>
        intro m
        rw [leaveMany, bind_apply, attempt_apply]
        rcases leave m with ⟨(_ | _ | failed) | left, after⟩
        · rintro ⟨⟩
        · rintro ⟨⟩
        · rintro ⟨⟩
        · exact ih after
  rintro rfl
  exact many _ m stopped

section Course
variable {counts : Stop → Prop} {inner outer : Machine → Machine → Prop} {natives : Natives}
  {reenter : FunctionId → Run Unit}

theorem follows_guarded (likeness : Machine.Likeness outer)
    (told : ∀ e stop, counts stop → (∀ told, stop = .error told → told.cause = e.cause) → counts (.error e))
    {body : Run Unit} (ran : Follows counts outer body) : Follows counts outer (guarded body) := by
  intro m m' same quiet
  have kept := ran m m' same
  have depth := likeness.reads same Machine.depth fun _ => rfl
  rw [guarded_apply] at quiet
  rw [guarded_apply, guarded_apply, depth]
  cases outcome : body m with
  | mk result left =>
      cases outcome' : body m' with
      | mk result' right =>
          rw [outcome, outcome'] at kept
          rw [outcome] at quiet
          rcases result with (_ | _ | e) | done
          · obtain ⟨rfl, after⟩ := kept (by rintro _ ⟨⟩; exact quiet _ rfl)
            exact ⟨rfl, after⟩
          · obtain ⟨rfl, after⟩ := kept (by rintro _ ⟨⟩; exact quiet _ rfl)
            exact ⟨rfl, after⟩
          -- What comes out in place of the error tells the same cause, or is no error at all.
          · have counted : counts (.error e) := by
              cases context : left.located e with
              | error stop =>
                  simp only [context] at quiet
                  refine told e stop (quiet stop rfl) fun _ again => ?_
                  rw [located_stop context] at again
                  cases again
              | ok found =>
                  simp only [context] at quiet
                  cases unwound : unwind m.depth left with
                  | mk unwinding last =>
                      rw [unwound] at quiet
                      cases unwinding with
                      | error stop =>
                          refine told e stop (quiet stop rfl) fun _ again => ?_
                          exact absurd again (unwind_stop (congrArg Prod.fst unwound) _)
                      | ok _ =>
                          refine told e _ (quiet _ rfl) ?_
                          rintro _ ⟨⟩
                          exact located_cause context
            obtain ⟨rfl, after⟩ := kept (by rintro _ ⟨⟩; exact counted)
            have context := likeness.reads after (·.located e) fun m => located_bare m e
            obtain ⟨unwinding, last⟩ := same_unwind likeness m.depth left right after
            simp only [context]
            cases left.located e with
            | error stop => exact ⟨rfl, after⟩
            | ok found =>
                cases unwound : unwind m.depth left with
                | mk result last' =>
                    cases unwound' : unwind m.depth right with
                    | mk result' last'' =>
                        rw [unwound, unwound'] at unwinding last
                        cases unwinding
                        cases result <;> exact ⟨rfl, last fun _ _ => trivial⟩
          · obtain ⟨rfl, after⟩ := kept nofun
            exact ⟨rfl, after⟩

theorem follows_ask (likeness : Machine.Likeness inner) {next : Machine → Run β}
    (blind : ∀ m, next m.bare = next m) (rest : ∀ m, Follows counts inner (next m)) :
    Follows counts inner (get >>= next : Run β) := by
  intro m m' same
  rw [Run.get_bind, Run.get_bind, likeness.reads same next blind]
  exact rest m m m' same

variable (course : Machine.Course counts inner) (follow : natives.Follow counts inner)
  (deeper : ∀ id, Follows counts inner (reenter id))
include course

theorem follows_enter (id : FunctionId) (f : Function) : Follows counts inner (enter id f) := by
  intro m m' same quiet
  rw [enter_apply] at quiet
  have admission := course.admission m m' id f same fun stop refused => quiet stop (by rw [refused])
  rw [enter_apply, enter_apply, admission]
  cases m.admission id f with
  | error stop => exact ⟨rfl, same⟩
  | ok found => exact ⟨rfl, course.entered _ _ _ _ _ same⟩

include follow deeper

theorem follows_callNative (id : FunctionId) (number : Nat) :
    Follows counts inner (callNative natives reenter id number) := by
  intro m m' same quiet
  rw [callNative_apply] at quiet
  rw [callNative_apply, callNative_apply]
  cases known : natives.lookup number with
  | error stop => exact ⟨rfl, same⟩
  | ok f =>
      rw [known] at quiet
      exact follow number f reenter known deeper _ _ (course.handed _ _ id number f same) quiet

theorem follows_perform (entryDepth s : Nat) (effect : Effect) :
    Follows counts inner (perform natives reenter entryDepth s effect) := by
  have likeness := course.toLikeness
  cases effect with
  | write offset cells =>
      exact follows_bind (same_write likeness _ _).follows fun _ => (agrees_pure _).follows
  | writeField address cells =>
      exact follows_bind (same_writeFields likeness _ _ _).follows fun _ => (agrees_pure _).follows
  | jump distance => exact (agrees_pure _).follows
  | call callee arguments =>
      apply follows_bind (agrees_modify fun m m' => course.passed m m' arguments).follows
      intro _
      apply follows_ask likeness fun _ => rfl
      intro m
      apply follows_bind (agrees_outcome _).follows
      intro f
      split
      · exact follows_bind (follows_callNative course follow deeper callee _) fun _ => (agrees_pure _).follows
      · exact follows_bind (follows_enter course callee f) fun _ => (agrees_pure _).follows
  | finish offset =>
      apply follows_bind (same_giveResult likeness offset).follows
      intro _
      apply follows_bind (same_leave likeness).follows
      intro caller
      apply follows_ask likeness fun _ => rfl
      intro m
      split
      · exact (agrees_pure _).follows
      · exact (agrees_pure _).follows
  | schedule frame think =>
      exact follows_bind (same_schedule likeness frame think).follows fun _ => (agrees_pure _).follows

theorem follows_step (entryDepth s : Nat) : Follows counts inner (step natives reenter entryDepth s) := by
  apply follows_bind (same_fetch course.toLikeness s).follows
  intro statement
  split
  · exact (agrees_throw _).follows
  · rename_i op _
    refine follows_ask course.toLikeness (fun m => by cases op <;> rfl) fun m => ?_
    apply follows_bind (agrees_outcome _).follows
    exact fun effect => follows_perform course follow deeper entryDepth s effect

theorem follows_loop {entryDepth budget budget' s : Nat} {m m' : Machine} (same : inner m m')
    (more : budget ≤ budget')
    (spent : ∀ n, counts (.error { cause := .limitExceeded (.runaway n) }) → budget' = budget)
    (quiet : ∀ stop, (loop natives reenter entryDepth budget s m).1 = .error stop → counts stop) :
    (loop natives reenter entryDepth budget' s m').1 = (loop natives reenter entryDepth budget s m).1 ∧
      inner (loop natives reenter entryDepth budget s m).2
        (loop natives reenter entryDepth budget' s m').2 := by
  induction budget generalizing budget' s m m' with
  | zero =>
      have counted := quiet _ rfl
      cases spent _ counted
      rw [loop, loop, course.spent m m' _ same counted]
      exact ⟨rfl, same⟩
  | succ budget ih =>
      obtain ⟨budget', rfl⟩ : ∃ rest, budget' = rest + 1 := ⟨budget' - 1, by omega⟩
      have kept := follows_step course follow deeper entryDepth s m m' same
      rw [loop] at quiet
      rw [loop, loop]
      cases outcome : step natives reenter entryDepth s m with
      | mk result left =>
          cases outcome' : step natives reenter entryDepth s m' with
          | mk result' right =>
              rw [outcome, outcome'] at kept
              rw [outcome] at quiet
              rcases result with stop | (_ | next)
              · obtain ⟨rfl, after⟩ := kept (by rintro _ ⟨⟩; exact quiet _ rfl)
                exact ⟨rfl, after⟩
              · obtain ⟨rfl, after⟩ := kept (by rintro _ ⟨⟩)
                exact ⟨rfl, after⟩
              · obtain ⟨rfl, after⟩ := kept (by rintro _ ⟨⟩)
                refine ih after (by omega) (fun n counted => ?_) quiet
                have same := spent n counted
                omega

theorem follows_runFunction (likeness : Machine.Likeness outer)
    (begins : ∀ m m' argumentCount, outer m m' → inner { m with argumentCount } { m' with argumentCount })
    (ends : ∀ m m', inner m m' → outer m m') (id : FunctionId) :
    Follows counts outer (runFunction natives reenter id) := by
  intro m m' same
  have program := likeness.reads same program fun _ => rfl
  have depth := likeness.reads same Machine.depth fun _ => rfl
  rw [runFunction, Run.get_bind, Run.get_bind, Run.get_bind, Run.get_bind, program, depth]
  cases m.program.function id with
  | error stop => exact fun _ => ⟨rfl, same⟩
  | ok f =>
      have ready := begins m m' f.numParms.toNat same
      rw [Run.ok_bind, Run.ok_bind, Run.modify_bind, Run.modify_bind]
      intro quiet
      cases native : f.nativeNumber? with
      | some number =>
          rw [native] at quiet
          obtain ⟨result, after⟩ := follows_callNative course follow deeper id number _ _ ready quiet
          exact ⟨result, ends _ _ after⟩
      | none =>
          rw [native] at quiet
          have body : Follows counts inner (enter id f >>= fun first m' =>
              loop natives reenter m.depth m'.config.runawayLimit first m') := by
            apply follows_bind (follows_enter course id f)
            intro first m₁ m₂ same
            have budget := course.budget m₁ m₂ same
            exact follows_loop course follow deeper same budget fun n => course.spent m₁ m₂ n same
          obtain ⟨result, after⟩ := body _ _ ready quiet
          exact ⟨result, ends _ _ after⟩

omit deeper in
theorem follows_execute (nesting : Nat) (id : FunctionId) :
    Follows counts inner (execute natives nesting id) := by
  induction nesting generalizing id with
  | zero => exact (agrees_throw _).follows
  | succ nesting ih =>
      refine follows_guarded course.toLikeness course.told ?_
      exact follows_runFunction course follow ih course.toLikeness (fun _ _ _ => course.passed _ _ _)
        (fun _ _ same => same) id

end Course

/-! ## The reference native functions -/

namespace Reference
section Likeness
variable {alike : Machine → Machine → Prop} (likeness : Machine.Likeness alike)

theorem same_print (likeness : Machine.Likeness alike) (text : String) : (print text).Same alike :=
  agrees_modify fun m m' => likeness.printed m m' text

include likeness

theorem same_giveText (text : String) : (giveText text).Same alike := by
  refine agrees_bind (fun m m' same => ?_) fun id => same_write likeness _ _
  have strings := likeness.reads same strings fun _ => rfl
  rw [temporary, changeStrings_apply, changeStrings_apply, strings]
  cases m.strings.temporary? text with
  | some changed => exact ⟨rfl, fun _ => likeness.strings _ _ _ same⟩
  | none => exact ⟨rfl, fun _ => likeness.strings _ _ _ same⟩

theorem same_allocateEntity : allocateEntity.Same alike := by
  intro m m' same
  have time := likeness.reads same time fun _ => rfl
  have entities := likeness.reads same Machine.entities fun _ => rfl
  rw [allocateEntity_apply, allocateEntity_apply, time, entities]
  generalize (m.time >>= m.entities.candidate : Outcome Nat) = chosen
  cases chosen with
  | error stop => exact ⟨rfl, fun _ => same⟩
  | ok i =>
      dsimp only
      split
      · exact ⟨rfl, fun _ => likeness.entities _ _ _ same⟩
      · exact ⟨rfl, fun _ => same⟩

theorem same_freeEntity (e : EntityIndex) : (freeEntity e).Same alike := by
  intro m m' same
  have time := likeness.reads same time fun _ => rfl
  have entities := likeness.reads same Machine.entities fun _ => rfl
  rw [freeEntity_apply, freeEntity_apply, time, entities]
  generalize (do let now ← m.time; m.entities.checkFreeable e; return now : Outcome Single) = checked
  cases checked with
  | error stop => exact ⟨rfl, fun _ => same⟩
  | ok now =>
      dsimp only
      split
      · exact ⟨rfl, fun _ => likeness.dropped _ _ _ _ same⟩
      · exact ⟨rfl, fun _ => same⟩

theorem same_drawUnit : drawUnit.Same alike := by
  intro m m' same
  have random := likeness.reads same Machine.random fun _ => rfl
  constructor
  · change Except.ok _ = Except.ok _
    rw [random]
  · intro _
    change alike { m with random := _ } { m' with random := _ }
    rw [random]
    exact likeness.random _ _ _ same

theorem same_dump (e : EntityIndex) : (dump e).Same alike := by
  apply same_ask likeness fun _ => rfl
  intro m
  cases Listing.entityText m.program.image m.strings m.entities e with
  | ok text => exact same_print likeness _
  | error stop =>
      cases stop with
      | error e => exact same_print likeness _
      | fault => exact agrees_throw _
      | nestedTooDeep => exact agrees_throw _

omit likeness in
theorem findFrom_bare (m : Machine) (field : UInt32) (text : String) (steps : Nat) (cursor : EntityIndex) :
    findFrom m.bare field text steps cursor = findFrom m field text steps cursor := by
  induction steps generalizing cursor with
  | zero => rfl
  | succ steps ih =>
      simp only [findFrom, ih]
      rfl

theorem same_find : find.Same alike := by
  refine same_ask likeness (fun m => by simp only [findFrom_bare]; rfl) fun m => ?_
  refine agrees_bind (agrees_outcome _) fun field => agrees_bind (agrees_outcome _) fun text => ?_
  refine agrees_bind (agrees_outcome _) fun start => agrees_bind (agrees_outcome _) fun e => ?_
  exact same_write likeness _ _

theorem same_read {read : Machine → Outcome α} {go : α → Run Unit} (blind : ∀ m, read m.bare = read m)
    (goes : ∀ a, (go a).Same alike) : (do go (← read (← get)) : Run Unit).Same alike :=
  same_ask likeness (fun m => by rw [blind]) fun m => agrees_bind (agrees_outcome _) goes

/-! Three functions ask how many arguments their call passed. -/

variable (arguments : ∀ m m', alike m m' → m'.argumentCount = m.argumentCount)
include arguments

theorem same_joinedArguments : joinedArguments.Same alike := by
  refine agrees_get (fun m m' same => ?_) fun m => ?_
  · have texts (n : Nat) : m'.textArgument n = m.textArgument n :=
      likeness.reads same (textArgument · n) fun _ => rfl
    simp only [arguments m m' same, texts]
  · exact agrees_bind (agrees_mapM (fun n => agrees_outcome _) _) fun texts => agrees_pure _

theorem same_complain (what : String) : (complain what).Same alike := by
  apply agrees_bind (same_joinedArguments likeness arguments)
  intro message
  apply same_ask likeness fun _ => rfl
  intro m
  refine agrees_bind (same_print likeness _) fun _ => agrees_bind (agrees_outcome _) fun e => ?_
  exact agrees_bind (same_dump likeness e) fun _ => agrees_pure _

theorem same_objectError : objectError.Same alike := by
  refine agrees_bind (same_complain likeness arguments _) fun (message, e) => ?_
  dsimp only
  split
  · exact agrees_bind (same_freeEntity likeness e) fun _ => agrees_throw _
  · exact agrees_throw _

theorem catalogue_same : ∀ row ∈ catalogue, row.2.2.Same alike := by
  have sets (tracing : Bool) : (setTracing tracing).Same alike :=
    agrees_modify fun m m' => likeness.tracing m m' tracing
  have cell (c : Cell) : (giveCell c).Same alike := same_write likeness _ _
  have single (f : Single → Single) : (ofSingle f).Same alike :=
    same_read likeness (fun _ => rfl) fun x => cell _
  have vector (f : Vec3 → Single) : (ofVector f).Same alike :=
    same_read likeness (fun _ => rfl) fun v => cell _
  have each : ∀ run ∈ catalogue.map (·.2.2), run.Same alike := by
    simp only [catalogue, List.map_cons, List.map_nil, List.forall_mem_cons]
    refine ⟨agrees_bind (same_drawUnit likeness) fun x => cell _,
      same_read likeness (fun _ => rfl) fun v => same_write likeness _ _,
      agrees_bind (same_complain likeness arguments _) fun _ => agrees_throw _,
      same_objectError likeness arguments, vector _, vector _,
      agrees_bind (same_allocateEntity likeness) fun e => cell _,
      same_read likeness (fun _ => rfl) fun c => same_freeEntity likeness c.entity, same_find likeness,
      agrees_bind (same_joinedArguments likeness arguments) fun _ => agrees_pure (),
      same_read likeness (fun _ => rfl) fun x => same_giveText likeness _,
      same_read likeness (fun _ => rfl) fun v => same_giveText likeness _,
      same_read likeness (fun _ => rfl) fun text => same_print likeness text, sets true, sets false,
      same_read likeness (fun _ => rfl) fun c => same_dump likeness c.entity,
      single _, single _, single _, single _,
      same_ask likeness (fun _ => rfl) fun m => agrees_bind (agrees_outcome _) fun c => cell _, by simp⟩
  intro row member
  exact each _ (List.mem_map_of_mem member)

end Likeness
end Reference

theorem Natives.reference_follow {counts : Stop → Prop} {alike : Machine → Machine → Prop}
    (likeness : Machine.Likeness alike)
    (arguments : ∀ m m', alike m m' → m'.argumentCount = m.argumentCount) :
    Natives.reference.Follow counts alike := by
  intro number f reenter known _ m m' same _
  obtain ⟨row, member, rfl⟩ := reference_known known
  obtain ⟨result, after⟩ := Reference.catalogue_same likeness arguments row member m m' same
  exact ⟨result, after fun _ _ => trivial⟩

/-! ## Sessions -/

namespace Session

/-- Sessions that differ in their machines alone, and those are alike. -/
structure Alike (alike : Machine → Machine → Prop) (natives : Natives) (s t : Session) : Prop where
  machine : alike s.machine t.machine
  first : s.natives = natives
  second : t.natives = natives
  time : t.time = s.time
  frame : t.frame = s.frame

theorem alike_likeness {alike : Machine → Machine → Prop} (likeness : Machine.Likeness alike)
    {natives : Natives} (executes : ∀ id, (Machine.execute natives nestingBound id).Same alike) :
    Likeness (fun _ => True) (Alike alike natives) := by
  have step {body : Run Unit} (same : body.Same alike) :
      Agrees (fun _ => True) (Alike alike natives) (onMachine body) := by
    intro s t both
    obtain ⟨result, after⟩ := same s.machine t.machine both.machine
    have after := after fun _ _ => trivial
    exact ⟨result, fun _ => ⟨after, both.first, both.second, both.time, both.frame⟩⟩
  exact {
    natives := fun s t both => both.second.trans both.first.symm
    time := fun s t both => both.time
    frame := fun s t both => both.frame
    program := fun s t both => likeness.reads both.machine program fun _ => rfl
    entities := fun s t both => likeness.reads both.machine Machine.entities fun _ => rfl
    timed := fun s t time both => ⟨both.machine, both.first, both.second, rfl, both.frame⟩
    counted := fun s t frame both => ⟨both.machine, both.first, both.second, both.time, rfl⟩
    system := fun place value => step (same_writeSystem likeness place value)
    fields := fun e field cells => step (same_writeFields likeness e field cells)
    execution := by
      intro id s t both
      obtain ⟨result, after⟩ := executes id s.machine t.machine both.machine
      rw [execute_apply, execute_apply, both.first, both.second]
      exact ⟨result, fun _ => ⟨after fun _ _ => trivial, rfl, rfl, both.time, both.frame⟩⟩ }

end Session
end EntityMachine
