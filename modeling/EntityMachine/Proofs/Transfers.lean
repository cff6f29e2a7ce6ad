import EntityMachine.Machine.Execution
import EntityMachine.Proofs.Records

/-!
What single operations of the machine do. An operation either stops and leaves the machine as it was,
or makes one change that can be written down; calls and returns are the only operations that touch the
stacks. Later modules use these equations and do not open the operations again.
-/
namespace EntityMachine.Machine
open Run

/-! ## Tracing -/

def tracerAfter (m : Machine) (kind : String) (event : Machine → TraceEvent) : Option Tracer :=
  match m.tracing, m.tracer with
  | true, some tracer => if tracer.wants kind then some (tracer.record (event m)) else m.tracer
  | _, _ => m.tracer

def traced (m : Machine) (kind : String) (event : Machine → TraceEvent) : Machine :=
  { m with tracer := m.tracerAfter kind event }

theorem trace_apply (kind : String) (event : Machine → TraceEvent) (m : Machine) :
    trace kind event m = (.ok (), m.traced kind event) := by
  rcases m with ⟨_, _, _, _, _, _, _, _, _, _, _, _, _, _, tracing, tracer, _⟩
  cases tracing with
  | false => rfl
  | true =>
      cases tracer with
      | none => rfl
      | some tracer =>
          change (Except.ok (), if tracer.wants kind = true then _ else _) = (Except.ok (), _)
          cases wanted : tracer.wants kind with
          | false => simp only [Bool.false_eq_true, ↓reduceIte, traced, tracerAfter, wanted]
          | true => simp only [↓reduceIte, traced, tracerAfter, wanted]

@[simp] theorem trace_bind (kind : String) (event : Machine → TraceEvent) (next : Unit → Run β)
    (m : Machine) : (trace kind event >>= next) m = next () (m.traced kind event) :=
  bind_of_ok next (trace_apply kind event m)

/-! ## Cells and fields -/

theorem write_apply (offset : Nat) (cells : Array Cell) (m : Machine) :
    write offset cells m = if offset + cells.size ≤ m.globals.size then
      (.ok (), { m with globals := m.globals.overwrite offset cells }) else (.error .fault, m) := by
  unfold write
  simp only [get_bind]
  split <;> rfl

theorem writeFields_apply (e : EntityIndex) (field : UInt32) (cells : Array Cell) (m : Machine) :
    writeFields e field cells m = match m.entities.locate e field cells.size with
      | .error stop => (.error stop, m)
      | .ok position =>
        if m.entities.holds position cells.size then
          (.ok (), { m with entities := m.entities.overwrite position cells })
        else (.error .fault, m) := by
  simp only [writeFields, get_bind]
  cases m.entities.locate e field cells.size with
  | error stop => rfl
  | ok position =>
      simp only [ok_bind]
      cases m.entities.holds position cells.size with
      | false => rfl
      | true => rfl

def systemWritten (m : Machine) (place : SystemGlobals → Option UInt16) (value : Cell) : Machine :=
  match place m.program.globals with
  | some offset => { m with globals := m.globals.overwrite offset.toNat #[value] }
  | none => m

theorem writeSystem_apply {place : SystemGlobals → Option UInt16} {m : Machine}
    (inside : ∀ offset, place m.program.globals = some offset → offset.toNat < m.globals.size)
    (value : Cell) : writeSystem place value m = (.ok (), m.systemWritten place value) := by
  unfold writeSystem systemWritten
  rw [get_bind]
  cases placed : place m.program.globals with
  | none => rfl
  | some offset =>
      simp only [write_apply]
      exact if_pos (inside offset placed)

theorem systemWritten_eq (m : Machine) (place : SystemGlobals → Option UInt16) (value : Cell) :
    m.systemWritten place value = { m with globals := (m.systemWritten place value).globals } := by
  unfold systemWritten
  split <;> rfl

@[simp] theorem systemWritten_program (m : Machine) (place : SystemGlobals → Option UInt16)
    (value : Cell) : (m.systemWritten place value).program = m.program := by
  rw [systemWritten_eq]

@[simp] theorem systemWritten_size (m : Machine) (place : SystemGlobals → Option UInt16) (value : Cell) :
    (m.systemWritten place value).globals.size = m.globals.size := by
  unfold systemWritten
  split
  · exact Segment.overwrite_size _ _ _
  · rfl

theorem systemWritten_get {m : Machine} {place : SystemGlobals → Option UInt16} {offset : UInt16}
    (placed : place m.program.globals = some offset) (inside : offset.toNat < m.globals.size)
    (value : Cell) : (m.systemWritten place value).globals.get? offset.toNat = some value := by
  simp only [systemWritten, placed, Segment.overwrite_get]
  rw [if_pos ⟨Nat.le_refl _, Nat.lt_succ_self _, inside⟩, Nat.sub_self]
  rfl

theorem systemWritten_other {m : Machine} {place : SystemGlobals → Option UInt16} {i : Nat}
    (apart : ∀ offset, place m.program.globals = some offset → offset.toNat ≠ i) (value : Cell) :
    (m.systemWritten place value).globals.get? i = m.globals.get? i := by
  unfold systemWritten
  cases placed : place m.program.globals with
  | none => rfl
  | some offset =>
      have elsewhere := apart offset placed
      simp only [Segment.overwrite_get]
      apply if_neg
      rintro ⟨low, high, -⟩
      exact elsewhere (Nat.le_antisymm low (Nat.le_of_lt_succ high))

theorem changeStrings_apply (change : StringPool → Option (α × StringPool)) (m : Machine) :
    changeStrings change m = match change m.strings with
      | some (a, strings) => (.ok a, { m with strings })
      | none => (.error .fault, { m with strings := .empty }) := rfl

section Leaves
variable {part : Machine → σ}

theorem write_leaves (offset : Nat) (cells : Array Cell)
    (blind : ∀ (m : Machine) globals, globals.size = m.globals.size → part { m with globals } = part m) :
    (write offset cells).Leaves part := by
  intro m
  rw [write_apply]
  split
  · exact blind m _ (Segment.overwrite_size _ _ _)
  · rfl

theorem writeSystem_leaves (place : SystemGlobals → Option UInt16) (value : Cell)
    (blind : ∀ (m : Machine) globals, globals.size = m.globals.size → part { m with globals } = part m) :
    (writeSystem place value).Leaves part := by
  apply leaves_bind leaves_get
  intro m
  split
  · exact write_leaves _ _ blind
  · exact leaves_pure ()

theorem writeFields_leaves (e : EntityIndex) (field : UInt32) (cells : Array Cell)
    (blind : ∀ (m : Machine) entities, entities.outline = m.entities.outline →
      part { m with entities } = part m) :
    (writeFields e field cells).Leaves part := by
  apply leaves_get_bind
  intro m
  cases m.entities.locate e field cells.size with
  | error stop => rfl
  | ok position =>
      simp only [ok_bind]
      split
      · rfl
      · exact blind m _ (m.entities.overwrite_outline _ _)

theorem giveResult_leaves (offset : Nat)
    (blind : ∀ (m : Machine) globals, globals.size = m.globals.size → part { m with globals } = part m) :
    (giveResult offset).Leaves part := by
  unfold giveResult
  refine leaves_bind leaves_get fun m => leaves_bind (leaves_outcome _) fun cells => ?_
  exact write_leaves _ _ blind

theorem writeDeclared_leaves (e : EntityIndex) (cells : Array Cell) (field : Option UInt16)
    (blind : ∀ (m : Machine) entities, entities.outline = m.entities.outline →
      part { m with entities } = part m) :
    (writeDeclared e cells field).Leaves part := by
  cases field with
  | none => exact leaves_pure ()
  | some field => exact writeFields_leaves e field.toUInt32 cells blind

theorem refreshFrame_leaves (e : EntityIndex) (frame : Single) (field : Option UInt16)
    (blind : ∀ (m : Machine) entities, entities.outline = m.entities.outline →
      part { m with entities } = part m) :
    (refreshFrame e frame field).Leaves part := by
  cases field with
  | none => exact leaves_pure ()
  | some field =>
      refine leaves_bind leaves_get fun m => leaves_bind (leaves_outcome _) fun current => ?_
      exact leaves_ite (leaves_pure ()) (writeFields_leaves e field.toUInt32 _ blind)

theorem schedule_leaves (frame : Single) (think : Cell)
    (blind : ∀ (m : Machine) entities, entities.outline = m.entities.outline →
      part { m with entities } = part m) :
    (schedule frame think).Leaves part := by
  refine leaves_bind leaves_get fun m => leaves_bind (leaves_outcome _) fun e => ?_
  apply leaves_bind (leaves_outcome _)
  intro now
  apply leaves_bind (writeDeclared_leaves e _ _ blind)
  intro _
  apply leaves_bind (refreshFrame_leaves e frame _ blind)
  intro _
  exact writeDeclared_leaves e _ _ blind

end Leaves

/-! ## Entering and leaving -/

/-- What entering a function saves and copies, or why it cannot be entered. -/
def admission (m : Machine) (id : FunctionId) (f : Function) : Outcome (Array Cell × List Move) := do
  m.calls.checkPush
  let saved ← m.slice f.localsStart f.localsEnd
  m.locals.checkSave saved.size
  let moves ← Outcome.ofOption (argumentMoves (passedWidths f m.argumentCount) 0 f.localsStart)
  if m.profile.covers id && moves.all m.globals.admits then return (saved, moves) else throw .fault

-- The later modules rely on this in both directions: what was checked, and what suffices.
theorem admission_iff (m : Machine) (id : FunctionId) (f : Function) (saved : Array Cell)
    (moves : List Move) :
    m.admission id f = .ok (saved, moves) ↔
      m.calls.depth < m.calls.limit ∧ m.globals.slice? f.localsStart f.localsEnd = some saved ∧
        m.locals.size + saved.size ≤ m.locals.limit ∧
        argumentMoves (passedWidths f m.argumentCount) 0 f.localsStart = some moves ∧
        m.profile.covers id = true ∧ moves.all m.globals.admits = true := by
  simp only [admission, slice, CallStack.checkPush, CallStack.isFull, LocalsStack.checkSave,
    LocalsStack.hasRoom, Outcome.fail]
  by_cases full : m.calls.limit ≤ m.calls.depth
  · simp [full, Nat.not_lt.mpr full]
  · cases m.globals.slice? f.localsStart f.localsEnd with
    | none => simp [full]
    | some cells =>
        by_cases room : m.locals.size + cells.size ≤ m.locals.limit
        · cases argumentMoves (passedWidths f m.argumentCount) 0 f.localsStart with
          | none => simp [full, room]
          | some found =>
              by_cases admitted : (m.profile.covers id && found.all m.globals.admits) = true
              · simp only [full, room, admitted, Nat.lt_of_not_le full, decide_false, decide_true,
                  Bool.false_eq_true, ↓reduceIte, Outcome.ofOption_some, Outcome.ok_bind,
                  Outcome.pure_eq, Except.ok.injEq, Prod.mk.injEq, Option.some.injEq]
                rw [Bool.and_eq_true] at admitted
                constructor
                · rintro ⟨rfl, rfl⟩
                  exact ⟨trivial, rfl, room, rfl, admitted.1, admitted.2⟩
                · rintro ⟨-, rfl, -, rfl, -⟩
                  exact ⟨rfl, rfl⟩
              · simp only [full, room, admitted, decide_false, decide_true, Bool.false_eq_true,
                  ↓reduceIte, Outcome.ofOption_some, Outcome.ok_bind, Outcome.throw_eq,
                  reduceCtorEq, false_iff]
                rintro ⟨-, -, -, same, covered, inside⟩
                cases same
                exact admitted (by rw [covered, inside]; rfl)
        · simp only [full, room, decide_false, Bool.false_eq_true, ↓reduceIte,
            Outcome.ofOption_some, Outcome.ok_bind, Outcome.error_bind, reduceCtorEq, false_iff]
          rintro ⟨-, same, fits, -⟩
          cases same
          exact room fits

def entered (m : Machine) (id : FunctionId) (saved : Array Cell) (moves : List Move) : Machine :=
  ({ m with
    globals := m.globals.moveAll moves
    locals := m.locals.add saved
    calls := m.calls.add { returnStatement := m.statement, function := m.function }
    function := id
    profile := m.profile.countCall id } : Machine).traced "enter" fun m =>
      .enter id (m.program.functionName id) m.depth

theorem enter_apply (id : FunctionId) (f : Function) (m : Machine) :
    enter id f m = match m.admission id f with
      | .ok (saved, moves) => (.ok f.first.toNat, m.entered id saved moves)
      | .error stop => (.error stop, m) := by
  simp only [enter, admission, get_bind]
  cases m.calls.checkPush with
  | error stop => rfl
  | ok room =>
      cases m.slice f.localsStart f.localsEnd with
      | error stop => rfl
      | ok saved =>
          simp only [ok_bind, Outcome.ok_bind]
          cases m.locals.checkSave saved.size with
          | error stop => rfl
          | ok fits =>
              cases argumentMoves (passedWidths f m.argumentCount) 0 f.localsStart with
              | none => rfl
              | some moves =>
                  simp only [ok_bind, Outcome.ok_bind, Outcome.ofOption_some]
                  cases m.profile.covers id && moves.all m.globals.admits with
                  | false => rfl
                  | true =>
                      simp only [Bool.not_true, Bool.false_eq_true, ↓reduceIte, modify_bind, trace_bind]
                      rfl

/-- The function that is left, its saved cells and the frame to go back to. -/
def departure (m : Machine) : Outcome (Function × Array Cell × Frame) := do
  if m.calls.isEmpty then Outcome.fail .callUnderflow else pure ()
  let f ← m.program.function m.function
  let saved ← m.locals.top f.locals.toNat
  if m.globals.size < f.localsStart + f.locals.toNat then throw .fault else pure ()
  return (f, saved, ← m.calls.top)

def departed (m : Machine) (f : Function) (saved : Array Cell) (frame : Frame) : Machine :=
  ({ m with
    globals := m.globals.overwrite f.localsStart saved
    locals := m.locals.dropTop f.locals.toNat
    calls := m.calls.dropTop
    function := frame.function
    statement := frame.returnStatement } : Machine).traced "leave" fun after =>
      .leave m.function (after.program.functionName m.function) after.depth

theorem leave_apply (m : Machine) :
    leave m = match m.departure with
      | .ok (f, saved, frame) => (.ok frame.returnStatement, m.departed f saved frame)
      | .error stop => (.error stop, m) := by
  simp only [leave, departure, get_bind]
  cases m.calls.isEmpty with
  | true => rfl
  | false =>
      cases m.program.function m.function with
      | error stop => rfl
      | ok f =>
          simp only [ok_bind, Outcome.ok_bind, Outcome.pure_eq, Bool.false_eq_true, ↓reduceIte]
          cases m.locals.top f.locals.toNat with
          | error stop => rfl
          | ok saved =>
              simp only [ok_bind, Outcome.ok_bind]
              by_cases outside : m.globals.size < f.localsStart + f.locals.toNat
              · simp only [outside, ↓reduceIte, throw_bind, Outcome.throw_eq, Outcome.error_bind]
              · simp only [outside, ↓reduceIte]
                cases m.calls.top with
                | error stop => rfl
                | ok frame =>
                    simp only [ok_bind, modify_bind, trace_bind]
                    rfl

/-! ## Fetching and calling out -/

def fetched (m : Machine) (s : Nat) (statement : Statement) : Machine :=
  ({ m with statement := s, profile := m.profile.countStatement m.function } : Machine).traced
    "statement" fun m =>
      let source := { image := m.program.image, strings := m.strings, globals := some m.globals }
      .statement s m.function m.depth (Listing.statementText source s statement)

theorem fetch_apply (s : Nat) (m : Machine) :
    fetch s m = match m.program.statement? s with
      | none => (.error (.error { cause := .invalidProgram s!"statement {s} out of range" }), m)
      | some statement =>
        if m.profile.covers m.function then (.ok statement, m.fetched s statement)
        else (.error .fault, m) := by
  simp only [fetch, get_bind]
  cases m.program.statement? s with
  | none => rfl
  | some statement =>
      cases m.profile.covers m.function with
      | false => rfl
      | true =>
          simp only [Bool.not_true, Bool.false_eq_true, ↓reduceIte, set_bind, trace_bind]
          rfl

def handed (m : Machine) (id : FunctionId) (number : Nat) (f : Native) : Machine :=
  ({ m with profile := m.profile.countCall id } : Machine).traced "builtin" fun _ =>
    .native number f.name

theorem callNative_apply (natives : Natives) (reenter : FunctionId → Run Unit) (id : FunctionId)
    (number : Nat) (m : Machine) :
    callNative natives reenter id number m = match natives.lookup number with
      | .ok f => f.run reenter (m.handed id number f)
      | .error stop => (.error stop, m) := by
  simp only [callNative]
  cases natives.lookup number with
  | error stop => rfl
  | ok f =>
      simp only [ok_bind, modify_bind, trace_bind]
      rfl

/-! ## Steps -/

theorem effect_fetched (m : Machine) (s : Nat) (statement : Statement) (op : Opcode)
    (asked : Statement) : (m.fetched s statement).effect op asked = m.effect op asked := by
  cases op <;> rfl

theorem step_apply (natives : Natives) (reenter : FunctionId → Run Unit) (entryDepth s : Nat)
    (m : Machine) :
    step natives reenter entryDepth s m = match m.program.statement? s with
      | none => (.error (.error { cause := .invalidProgram s!"statement {s} out of range" }), m)
      | some statement =>
        if m.profile.covers m.function then
          match statement.opcode? with
          | none => (.error (.error { cause := .badOpcode statement.op }), m.fetched s statement)
          | some op =>
            match m.effect op statement with
            | .ok effect => perform natives reenter entryDepth s effect (m.fetched s statement)
            | .error stop => (.error stop, m.fetched s statement)
        else (.error .fault, m) := by
  rw [step, bind_apply, fetch_apply]
  cases m.program.statement? s with
  | none => rfl
  | some statement =>
      cases m.profile.covers m.function with
      | false => rfl
      | true =>
          simp only [↓reduceIte]
          cases statement.opcode? with
          | none => rfl
          | some op =>
              -- The effect is worked out on the machine after fetching, which makes no difference to it.
              simp only [get_bind, effect_fetched]
              cases m.effect op statement with
              | error stop => rfl
              | ok effect => rfl

theorem perform_call (natives : Natives) (reenter : FunctionId → Run Unit) (entryDepth s : Nat)
    (callee : FunctionId) (arguments : Nat) (m : Machine) :
    perform natives reenter entryDepth s (.call callee arguments) m =
      let m := { m with argumentCount := arguments }
      match m.program.function callee with
      | .error stop => (.error stop, m)
      | .ok f =>
        match f.nativeNumber? with
        | some number =>
          match callNative natives reenter callee number m with
          | (.ok (), m) => (.ok (some (s + 1)), m)
          | (.error stop, m) => (.error stop, m)
        | none =>
          match m.admission callee f with
          | .ok (saved, moves) => (.ok (some f.first.toNat), m.entered callee saved moves)
          | .error stop => (.error stop, m) := by
  simp only [perform, modify_bind, get_bind]
  generalize { m with argumentCount := arguments } = ready
  cases m.program.function callee with
  | error stop => rfl
  | ok f =>
      simp only [ok_bind]
      cases f.nativeNumber? with
      | some number =>
          simp only [bind_apply]
          cases callNative natives reenter callee number ready with
          | mk result m' => cases result <;> rfl
      | none =>
          simp only [bind_apply, enter_apply]
          cases ready.admission callee f <;> rfl

theorem perform_finish (natives : Natives) (reenter : FunctionId → Run Unit) (entryDepth s : Nat)
    (offset : Nat) (m : Machine) :
    perform natives reenter entryDepth s (.finish offset) m =
      match giveResult offset m with
      | (.error stop, m) => (.error stop, m)
      | (.ok (), m) =>
        match m.departure with
        | .error stop => (.error stop, m)
        | .ok (f, saved, frame) =>
          let after := m.departed f saved frame
          (.ok (if after.depth = entryDepth then none else some (frame.returnStatement + 1)), after) := by
  simp only [perform, bind_apply]
  cases giveResult offset m with
  | mk result given =>
      cases result with
      | error stop => rfl
      | ok done =>
          simp only [leave_apply]
          cases given.departure with
          | error stop => rfl
          | ok found =>
              obtain ⟨f, saved, frame⟩ := found
              simp only [← bind_apply, get_bind]
              split <;> rfl

/-! ## Executions -/

theorem runFunction_apply (natives : Natives) (reenter : FunctionId → Run Unit) (id : FunctionId)
    (m : Machine) :
    runFunction natives reenter id m = match m.program.function id with
      | .error stop => (.error stop, m)
      | .ok f =>
        let ready := { m with argumentCount := f.numParms.toNat }
        match f.nativeNumber? with
        | some number => callNative natives reenter id number ready
        | none =>
          match ready.admission id f with
          | .ok (saved, moves) => loop natives reenter m.depth m.config.runawayLimit f.first.toNat
              (ready.entered id saved moves)
          | .error stop => (.error stop, ready) := by
  rw [runFunction, get_bind, get_bind]
  cases m.program.function id with
  | error stop => rfl
  | ok f =>
      rw [ok_bind, modify_bind]
      cases native : f.nativeNumber? with
      | some number => simp only [native]
      | none =>
          simp only [native]
          rw [bind_apply, enter_apply]
          generalize admission _ id f = admitted
          cases admitted with
          | error stop => rfl
          | ok entry => rfl

theorem guarded_apply (body : Run Unit) (m : Machine) :
    guarded body m = match body m with
      | (.ok (), m') => (.ok (), m')
      | (.error (.error e), m') =>
        match m'.located e with
        | .error stop => (.error stop, m')
        | .ok e =>
          match unwind m.depth m' with
          | (.ok (), m'') => (.error (.error e), m'')
          | (.error stop, m'') => (.error stop, m'')
      | (.error stop, m') => (.error stop, m') := by
  rw [guarded, get_bind, bind_apply, attempt_apply]
  cases body m with
  | mk result m' =>
      cases result with
      | ok done => rfl
      | error stop =>
          cases stop with
          | fault => rfl
          | nestedTooDeep => rfl
          | error e =>
              simp only [get_bind]
              cases m'.located e with
              | error stop => rfl
              | ok e =>
                  rw [ok_bind, bind_apply]
                  cases unwind m.depth m' with
                  | mk result m'' => cases result <;> rfl

theorem located_cause {m : Machine} {e found : Error} (told : m.located e = .ok found) :
    found.cause = e.cause := by
  unfold located at told
  split at told
  · cases told
    rfl
  · cases context : m.context with
    | error stop =>
        rw [context] at told
        cases told
    | ok c =>
        rw [context] at told
        cases told
        rfl

theorem located_stop {m : Machine} {e : Error} {stop : Stop} (silent : m.located e = .error stop) :
    stop = .fault := by
  unfold located at silent
  split at silent
  · cases silent
  -- Only the read of the program's own entity can stop, and it stops by a fault alone.
  · cases entity : m.selfEntity with
    | ok e => simp [context, entity] at silent
    | error reason =>
        have faulted : reason = .fault := by
          unfold selfEntity cell at entity
          split at entity
          · cases found : m.globals.get? _ with
            | none =>
                rw [found] at entity
                cases entity
                rfl
            | some cell =>
                rw [found] at entity
                cases entity
          · cases entity
        simp only [context, entity, Outcome.error_bind, Except.error.injEq] at silent
        rw [← silent, faulted]

end EntityMachine.Machine
