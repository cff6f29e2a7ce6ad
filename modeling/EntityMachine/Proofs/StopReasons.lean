import EntityMachine.Proofs.Transfers

/-!
Why a machine stops. What a statement does by itself never stops for the budget of statements or for the nesting of
executions: those are stops of the loop and of native functions. A failure that leaves an execution keeps its
cause.
-/
namespace EntityMachine
open Machine Run

/-! ## Stops of the machine's own -/

def Cause.isRunaway : Cause → Bool
  | .limitExceeded (.runaway _) => true
  | _ => false

def Stop.IsRunaway (stop : Stop) : Prop := ∃ e, stop = .error e ∧ e.cause.isRunaway = true

def Stop.Exhausted (stop : Stop) : Prop := ∃ limit, stop = .error { cause := .limitExceeded (.runaway limit) }

/-- A stop that the operations of the machine come to by themselves: neither for the budget nor for the
nesting of executions. -/
def Stop.Own : Stop → Prop
  | .error e => e.cause.isRunaway = false
  | .fault => True
  | .nestedTooDeep => False

/-- Such a stop where it arises: an error that comes with no place yet, or a fault. -/
def Stop.Raised : Stop → Prop
  | .error e => e.context = none ∧ e.cause.isRunaway = false
  | .fault => True
  | .nestedTooDeep => False

theorem Stop.Raised.own {stop : Stop} (raised : stop.Raised) : stop.Own := by
  cases stop with
  | error e => exact raised.2
  | fault => trivial
  | nestedTooDeep => exact raised

def Outcome.Own (outcome : Outcome α) : Prop := Stops Stop.Own outcome

def Run.Own (body : Run α) : Prop := ∀ m, Outcome.Own (body m).1

def Outcome.Raises (outcome : Outcome α) : Prop := Stops Stop.Raised outcome

def Run.Raises (body : Run α) : Prop := ∀ m, Outcome.Raises (body m).1

namespace Outcome

def isRunaway : Outcome α → Bool
  | .error (.error e) => e.cause.isRunaway
  | _ => false

theorem isRunaway_iff (outcome : Outcome α) :
    outcome.isRunaway = true ↔ ∃ stop, outcome = .error stop ∧ stop.IsRunaway := by
  constructor
  · intro told
    rcases outcome with (_ | _ | e) | a
    · cases told
    · cases told
    · exact ⟨_, rfl, e, rfl, told⟩
    · cases told
  · rintro ⟨_, rfl, e, rfl, told⟩
    exact told

theorem raises_ok (a : α) : Raises (.ok a) := trivial

theorem raises_fail {cause : Cause} (plain : cause.isRunaway = false) : Raises (fail cause : Outcome α) :=
  ⟨rfl, plain⟩

theorem raises_ofOption (found : Option α) : Raises (ofOption found) := by
  cases found <;> trivial

theorem raises_bind {outcome : Outcome α} {next : α → Outcome β} (first : Raises outcome)
    (rest : ∀ a, Raises (next a)) : Raises (outcome >>= next) := by
  cases outcome with
  | ok a => exact rest a
  | error stop => exact first

theorem raises_map {outcome : Outcome α} (own : Raises outcome) (f : α → β) : Raises (outcome.map f) :=
  Stops.map own f

end Outcome

namespace Run

theorem raises_pure (a : α) : (pure a : Run α).Raises := fun _ => trivial

theorem raises_read {outcome : Outcome α} (own : Outcome.Raises outcome) : (liftM outcome : Run α).Raises :=
  fun _ => own

theorem raises_get {next : Machine → Run β} (rest : ∀ m, (next m).Raises) : (get >>= next : Run β).Raises :=
  fun m => rest m m

theorem raises_modify (change : Machine → Machine) : (modify change : Run PUnit).Raises := fun _ => trivial

theorem raises_bind {body : Run α} {next : α → Run β} (first : body.Raises) (rest : ∀ a, (next a).Raises) :
    (body >>= next).Raises := by
  intro m
  have own := first m
  rw [bind_apply]
  cases outcome : body m with
  | mk result m' =>
      rw [outcome] at own
      cases result with
      | ok a => exact rest a m'
      | error stop => exact own

theorem Raises.own {body : Run α} (raises : body.Raises) : body.Own :=
  fun m => (raises m).mono (fun _ => Stop.Raised.own) fun _ _ => trivial

end Run

namespace Machine
open Outcome (raises_ok raises_fail raises_ofOption raises_map)
variable (m : Machine)

theorem locate_raises (t : Entities) (e : EntityIndex) (field : UInt32) (width : Nat) :
    Outcome.Raises (t.locate e field width) := by
  unfold Entities.locate
  split
  · exact raises_fail rfl
  · split
    · exact raises_fail rfl
    · exact raises_ok _

theorem loadField_raises (kind : Kind) (e : EntityIndex) (field : UInt32) :
    Outcome.Raises (m.loadField kind e field) := by
  unfold loadField
  split
  · refine Outcome.raises_bind (locate_raises _ _ _ _) fun position => ?_
    exact Outcome.raises_bind (raises_ofOption _) fun x => Outcome.raises_bind (raises_ofOption _) fun y =>
      Outcome.raises_bind (raises_ofOption _) fun z => raises_ok _
  · refine Outcome.raises_bind (Outcome.raises_bind (locate_raises _ _ _ _) fun position => ?_) fun x => raises_ok _
    exact raises_ofOption _

theorem fieldAddress_raises (e : EntityIndex) (field : UInt32) : Outcome.Raises (m.fieldAddress e field) := by
  unfold fieldAddress
  repeat' split
  all_goals first
    | exact raises_fail rfl
    | exact raises_ok _

theorem function_raises (id : FunctionId) : Outcome.Raises (m.program.function id) := by
  unfold Program.function
  repeat' split
  all_goals first
    | exact raises_fail rfl
    | exact raises_ok _

theorem selfEntity_raises : Outcome.Raises m.selfEntity := by
  unfold selfEntity
  split
  · exact raises_map (raises_ofOption _) _
  · exact raises_ok _

theorem time_raises : Outcome.Raises m.time := by
  unfold time
  split
  · exact raises_ofOption _
  · exact raises_ok _

theorem raises_reads {α β γ : Type} {first : Outcome α} {second : Outcome β} (one : Outcome.Raises first)
    (two : Outcome.Raises second) (f : α → β → γ) :
    Outcome.Raises (first >>= fun a => second >>= fun b => .ok (f a b)) :=
  Outcome.raises_bind one fun _ => Outcome.raises_bind two fun _ => raises_ok _

theorem areEqual_raises (kind : Comparand) (a b : Nat) : Outcome.Raises (m.areEqual kind a b) := by
  cases kind <;> exact raises_reads (raises_ofOption _) (raises_ofOption _) _

theorem isNothing_raises (kind : Comparand) (a : Nat) : Outcome.Raises (m.isNothing kind a) := by
  cases kind <;> exact Outcome.raises_bind (raises_ofOption _) fun _ => raises_ok _

theorem effect_raises (op : Opcode) (s : Statement) : Outcome.Raises (m.effect op s) := by
  cases op with
  | mulF | divF | addF | subF | bitAnd | bitOr | addV | subV | le | ge | lt | gt | and | or | mulV | mulFV
  | mulVF | state | storeThrough kind => exact raises_reads (raises_ofOption _) (raises_ofOption _) _
  | equal kind | notEqual kind => exact Outcome.raises_bind (m.areEqual_raises _ _ _) fun _ => raises_ok _
  | not kind => exact Outcome.raises_bind (m.isNothing_raises _ _) fun _ => raises_ok _
  | store kind | branchIf | branchUnless | call arguments =>
      exact Outcome.raises_bind (raises_ofOption _) fun _ => raises_ok _
  | load kind =>
      exact Outcome.raises_bind (raises_ofOption _) fun _ => Outcome.raises_bind (raises_ofOption _) fun _ =>
        Outcome.raises_bind (m.loadField_raises _ _ _) fun _ => raises_ok _
  | address =>
      exact Outcome.raises_bind (raises_ofOption _) fun _ => Outcome.raises_bind (raises_ofOption _) fun _ =>
        Outcome.raises_bind (m.fieldAddress_raises _ _) fun _ => raises_ok _
  | goto | done | ret => exact raises_ok _

omit m in
theorem write_raises (offset : Nat) (cells : Array Cell) : (write offset cells).Raises := by
  intro m
  rw [write_apply]
  split
  · exact raises_ok _
  · trivial

omit m in
theorem write_own (offset : Nat) (cells : Array Cell) : (write offset cells).Own :=
  (write_raises offset cells).own

omit m in
theorem writeFields_raises (e : EntityIndex) (field : UInt32) (cells : Array Cell) :
    (writeFields e field cells).Raises := by
  refine raises_get fun m => Run.raises_bind (raises_read (locate_raises _ _ _ _)) fun position => ?_
  split
  · exact fun _ => trivial
  · exact raises_modify _

omit m in
theorem schedule_raises (frame : Single) (think : Cell) : (schedule frame think).Raises := by
  have declared (e : EntityIndex) (cells : Array Cell) (field : Option UInt16) :
      (writeDeclared e cells field).Raises := by
    cases field with
    | none => exact raises_pure ()
    | some field => exact writeFields_raises _ _ _
  have refreshed (e : EntityIndex) (field : Option UInt16) : (refreshFrame e frame field).Raises := by
    cases field with
    | none => exact raises_pure ()
    | some field =>
        refine raises_get fun m => Run.raises_bind (raises_read (raises_map ?_ _)) fun current => ?_
        · exact Outcome.raises_bind (locate_raises _ _ _ _) fun _ => raises_ofOption _
        · split
          · exact raises_pure ()
          · exact writeFields_raises _ _ _
  refine raises_get fun m => Run.raises_bind (raises_read m.selfEntity_raises) fun e => ?_
  refine Run.raises_bind (raises_read m.time_raises) fun now => Run.raises_bind (declared _ _ _) fun _ => ?_
  exact Run.raises_bind (refreshed _ _) fun _ => declared _ _ _

omit m in
theorem giveResult_raises (offset : Nat) : (giveResult offset).Raises :=
  raises_get fun _ => Run.raises_bind (raises_read (raises_ofOption _)) fun _ => write_raises _ _

theorem admission_raises (id : FunctionId) (f : Function) : Outcome.Raises (m.admission id f) := by
  refine Outcome.raises_bind ?_ fun _ => Outcome.raises_bind (raises_ofOption _) fun saved =>
    Outcome.raises_bind ?_ fun _ => Outcome.raises_bind (raises_ofOption _) fun moves => ?_
  · unfold CallStack.checkPush
    split
    · exact raises_fail rfl
    · exact raises_ok _
  · unfold LocalsStack.checkSave
    split
    · exact raises_ok _
    · exact raises_fail rfl
  · split
    · exact raises_ok _
    · trivial

theorem departure_raises : Outcome.Raises m.departure := by
  have frame : Outcome.Raises m.calls.top := by
    unfold CallStack.top
    split
    · exact raises_ok _
    · exact raises_fail rfl
  have saved (count : Nat) : Outcome.Raises (m.locals.top count) := by
    unfold LocalsStack.top
    split
    · exact raises_ok _
    · exact raises_fail rfl
  unfold departure
  split
  · exact raises_fail rfl
  · refine Outcome.raises_bind (m.function_raises _) fun f => Outcome.raises_bind (saved _) fun cells => ?_
    split
    · trivial
    · exact Outcome.raises_bind frame fun _ => raises_ok _

omit m in
theorem leave_raises : leave.Raises := by
  intro m
  have own := m.departure_raises
  rw [leave_apply]
  cases departs : m.departure with
  | error stop =>
      rw [departs] at own
      exact own
  | ok found => exact raises_ok _

/-! ## Statements -/

/-- A statement hands this machine to a native function. -/
def HandsAt (natives : Natives) (m : Machine) (s : Nat) (g : Native) (handed : Machine) : Prop :=
  ∃ statement op callee arguments f number, m.program.statement? s = some statement ∧
    statement.opcode? = some op ∧ m.effect op statement = .ok (.call callee arguments) ∧
      m.program.function callee = .ok f ∧ f.nativeNumber? = some number ∧
        natives.lookup number = .ok g ∧
          handed = { m.fetched s statement with argumentCount := arguments }.handed callee number g

theorem callNative_stop {natives : Natives} {reenter : FunctionId → Run Unit} {id : FunctionId} {number : Nat}
    {stop : Stop} (stopped : (callNative natives reenter id number m).1 = .error stop) :
    stop.Raised ∨
      ∃ g, natives.lookup number = .ok g ∧ (g.run reenter (m.handed id number g)).1 = .error stop := by
  rw [callNative_apply] at stopped
  cases listed : natives.lookup number with
  | ok g =>
      rw [listed] at stopped
      exact .inr ⟨g, rfl, stopped⟩
  | error reason =>
      have unlisted : reason.Raised := by
        unfold Natives.lookup at listed
        split at listed <;> cases listed
        exact ⟨rfl, rfl⟩
      rw [listed] at stopped
      cases stopped
      exact .inl unlisted

theorem call_stop {natives : Natives} {reenter : FunctionId → Run Unit} {entryDepth s : Nat}
    {callee : FunctionId} {arguments : Nat} {stop : Stop}
    (stopped : (perform natives reenter entryDepth s (.call callee arguments) m).1 = .error stop) :
    stop.Raised ∨ ∃ f number g, m.program.function callee = .ok f ∧ f.nativeNumber? = some number ∧
      natives.lookup number = .ok g ∧
        (g.run reenter ({ m with argumentCount := arguments }.handed callee number g)).1 = .error stop := by
  let ready := { m with argumentCount := arguments }
  have target : Outcome.Raises (m.program.function callee) := m.function_raises callee
  rw [perform_call] at stopped
  cases found : m.program.function callee with
  | error reason =>
      rw [found] at target
      simp only [found] at stopped
      cases stopped
      exact .inl target
  | ok f =>
      simp only [found] at stopped
      cases native : f.nativeNumber? with
      | none =>
          have admits := ready.admission_raises callee f
          simp only [native] at stopped
          cases admitted : ready.admission callee f with
          | error reason =>
              rw [admitted] at admits
              rw [show admission _ callee f = _ from admitted] at stopped
              cases stopped
              exact .inl admits
          | ok entry =>
              rw [show admission _ callee f = _ from admitted] at stopped
              cases stopped
      | some number =>
          simp only [native] at stopped
          have raised : (callNative natives reenter callee number ready).1 = .error stop := by
            cases called : callNative natives reenter callee number ready with
            | mk result after =>
                rw [show callNative natives reenter callee number _ = _ from called] at stopped
                cases result with
                | ok done => cases stopped
                | error reason =>
                    cases stopped
                    rfl
          rcases ready.callNative_stop raised with own | ⟨g, listed, ran⟩
          · exact .inl own
          · exact .inr ⟨f, number, g, rfl, native, listed, ran⟩

theorem perform_stop {natives : Natives} {reenter : FunctionId → Run Unit} {entryDepth s : Nat}
    {effect : Effect} {stop : Stop} (stopped : (perform natives reenter entryDepth s effect m).1 = .error stop) :
    stop.Raised ∨ ∃ callee arguments f number g, effect = .call callee arguments ∧
      m.program.function callee = .ok f ∧ f.nativeNumber? = some number ∧ natives.lookup number = .ok g ∧
        (g.run reenter ({ m with argumentCount := arguments }.handed callee number g)).1 = .error stop := by
  have own {body : Run (Option Nat)} (owns : body.Raises) (came : (body m).1 = .error stop) : stop.Raised := by
    have here := owns m
    rw [came] at here
    exact here
  cases effect with
  | write offset cells =>
      exact .inl (own (Run.raises_bind (write_raises offset cells) fun _ => raises_pure _) stopped)
  | writeField address cells =>
      exact .inl (own (Run.raises_bind (writeFields_raises _ _ cells) fun _ => raises_pure _) stopped)
  | jump distance => cases stopped
  | schedule frame think =>
      exact .inl (own (Run.raises_bind (schedule_raises frame think) fun _ => raises_pure _) stopped)
  | finish offset =>
      refine .inl (own (Run.raises_bind (giveResult_raises offset) fun _ =>
        Run.raises_bind leave_raises fun caller => raises_get fun m => ?_) stopped)
      split
      · exact raises_pure _
      · exact raises_pure _
  | call callee arguments =>
      rcases m.call_stop stopped with own | ⟨f, number, g, found, native, listed, ran⟩
      · exact .inl own
      · exact .inr ⟨callee, arguments, f, number, g, rfl, found, native, listed, ran⟩

theorem step_stop {natives : Natives} {reenter : FunctionId → Run Unit} {entryDepth s : Nat} {stop : Stop}
    (stopped : (step natives reenter entryDepth s m).1 = .error stop) :
    stop.Raised ∨ ∃ g handed, m.HandsAt natives s g handed ∧ (g.run reenter handed).1 = .error stop := by
  rw [step_apply] at stopped
  cases found : m.program.statement? s with
  | none =>
      simp only [found] at stopped
      cases stopped
      exact .inl ⟨rfl, rfl⟩
  | some statement =>
      simp only [found] at stopped
      split at stopped
      · cases known : statement.opcode? with
        | none =>
            simp only [known] at stopped
            cases stopped
            exact .inl ⟨rfl, rfl⟩
        | some op =>
            have own := m.effect_raises op statement
            simp only [known] at stopped
            cases asked : m.effect op statement with
            | error reason =>
                rw [asked] at own
                simp only [asked] at stopped
                cases stopped
                exact .inl own
            | ok effect =>
                simp only [asked] at stopped
                rcases perform_stop _ stopped with
                  own | ⟨callee, arguments, f, number, g, rfl, target, native, listed, ran⟩
                · exact .inl own
                · exact .inr ⟨g, _, ⟨statement, op, callee, arguments, f, number, found, known, asked, target,
                    native, listed, rfl⟩, ran⟩
      · cases stopped
        exact .inl trivial

/-! ## Failures -/

theorem unwind_fault {depth : Nat} {m : Machine} {stop : Stop} (stopped : (unwind depth m).1 = .error stop) :
    stop = .fault := by
  have many (count : Nat) : ∀ m : Machine, (leaveMany count m).1 = .error stop → stop = .fault := by
    induction count with
    | zero => exact fun m => nofun
    | succ count ih =>
        intro m
        have own := leave_raises m
        rw [leaveMany, bind_apply, attempt_apply]
        revert own
        rcases leave m with ⟨(_ | _ | failed) | left, after⟩ <;> intro own
        · rintro ⟨⟩
          rfl
        · exact False.elim own
        · nofun
        · exact ih after
  exact many _ m stopped

theorem guarded_result (body : Run Unit) (m : Machine) : match (body m).1 with
    | .error (.error e) => (guarded body m).1 = .error .fault ∨
        ∃ told, (guarded body m).1 = .error (.error told) ∧ told.cause = e.cause
    | result => (guarded body m).1 = result := by
  rw [guarded_apply]
  cases body m with
  | mk result m' =>
      rcases result with (_ | _ | e) | done
      · rfl
      · rfl
      · simp only
        cases told : m'.located e with
        | error stop => exact .inl (congrArg Except.error (located_stop told))
        | ok e' =>
            cases unwound : unwind m.depth m' with
            | mk result m'' =>
                simp only
                cases result with
                | ok done => exact .inr ⟨e', rfl, located_cause told⟩
                | error stop =>
                    exact .inl (congrArg Except.error (unwind_fault (congrArg Prod.fst unwound)))
      · rfl

end Machine
end EntityMachine
