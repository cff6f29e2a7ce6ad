import EntityMachine.Proofs.StopReasons
import EntityMachine.Proofs.TraceNesting

/-!
The budget of statements. Every turn of the loop fetches a statement, takes one from the budget and counts one for
the function that runs, whatever calls and returns lie in between. So an execution ends, it counts as many
statements as it fetched, and it runs away exactly when it has spent all of its budget and would go on.
-/
namespace EntityMachine
open Machine Run

/-! ## Counters -/

namespace Profile

def statementSum (rows : List Counters) : Nat := (rows.map fun c => c.statements.toNat).sum

theorem totalStatements_eq (p : Profile) : p.totalStatements = statementSum p.toList := by
  have shifted (rows : List Counters) (start : Nat) :
      rows.foldl (fun sum c => sum + c.statements.toNat) start = start + statementSum rows := by
    induction rows generalizing start with
    | nil => rfl
    | cons c rest ih =>
        rw [List.foldl_cons, ih]
        simp only [statementSum, List.map_cons, List.sum_cons, Nat.add_assoc]
  rw [totalStatements, ← Array.foldl_toList, shifted, Nat.zero_add]

theorem statementSum_modify {rows : List Counters} {i : Nat} {c : Counters} (found : rows[i]? = some c)
    (change : Counters → Counters) :
    statementSum (rows.modify i change) + c.statements.toNat =
      statementSum rows + (change c).statements.toNat := by
  induction rows generalizing i with
  | nil => cases found
  | cons first rest ih =>
      cases i with
      | zero =>
          cases found
          simp only [statementSum, List.modify_zero_cons, List.map_cons, List.sum_cons]
          omega
      | succ i =>
          have later := ih (i := i) found
          simp only [statementSum, List.modify_succ_cons, List.map_cons, List.sum_cons] at later ⊢
          omega

theorem countCall_total (p : Profile) (f : FunctionId) :
    (p.countCall f).totalStatements = p.totalStatements := by
  rw [totalStatements_eq, totalStatements_eq, countCall, Array.toList_modify]
  cases found : p.toList[f.toNat]? with
  | none => rw [List.modify_eq_self (List.getElem?_eq_none_iff.mp found)]
  | some c => exact Nat.add_right_cancel (statementSum_modify found _)

theorem wrap_around {limit total after counted : Nat} (word : counted < limit)
    (changed : after + counted = total + (counted + 1) % limit) :
    ∃ wraps, after + wraps * limit = total + 1 := by
  by_cases fits : counted + 1 < limit
  · rw [Nat.mod_eq_of_lt fits] at changed
    exact ⟨0, by rw [Nat.zero_mul]; omega⟩
  · have full : counted + 1 = limit := by omega
    rw [full, Nat.mod_self] at changed
    exact ⟨1, by rw [Nat.one_mul]; omega⟩

theorem countStatement_total {p : Profile} {f : FunctionId} (covered : p.covers f = true) :
    ∃ wraps, (p.countStatement f).totalStatements + wraps * Room.countLimit = p.totalStatements + 1 := by
  have inside : f.toNat < p.size := of_decide_eq_true covered
  have found : p.toList[f.toNat]? = some p[f.toNat] := by
    rw [Array.getElem?_toList, Array.getElem?_eq_getElem inside]
  have changed : (p.countStatement f).totalStatements + p[f.toNat].statements.toNat =
      p.totalStatements + (p[f.toNat].statements + 1).toNat := by
    rw [totalStatements_eq, totalStatements_eq, countStatement, Array.toList_modify]
    exact statementSum_modify found _
  rw [UInt64.toNat_add, UInt64.toNat_one] at changed
  exact wrap_around p[f.toNat].statements.toNat_lt changed

end Profile

/-! ## Native functions that run by themselves -/

/-- The native functions start no executions, so the way to do so makes no difference to them. -/
def Natives.Alone (natives : Natives) : Prop :=
  ∀ number g (reenter other : FunctionId → Run Unit) m, natives.lookup number = .ok g →
    g.run other m = g.run reenter m ∧ (g.run reenter m).1 ≠ .error .nestedTooDeep

def Machine.counted (m : Machine) : Nat := m.profile.totalStatements

/-- The native functions leave the counted statements alone. -/
def Natives.LeaveCounts (natives : Natives) : Prop :=
  ∀ number g (reenter : FunctionId → Run Unit), natives.lookup number = .ok g → (g.run reenter).Leaves counted

namespace Machine

section Alone
variable {natives : Natives} (alone : natives.Alone) (reenter other : FunctionId → Run Unit)
include alone

theorem callNative_alone : callNative natives other = callNative natives reenter := by
  funext id number m
  rw [callNative_apply, callNative_apply]
  cases listed : natives.lookup number with
  | error stop => rfl
  | ok g => exact (alone number g reenter other _ listed).1

theorem step_alone : step natives other = step natives reenter := by
  have performs : perform natives other = perform natives reenter := by
    funext entryDepth s effect
    cases effect <;> simp only [perform, callNative_alone alone reenter other]
  funext entryDepth s
  simp only [step, performs]

theorem runFunction_alone : runFunction natives other = runFunction natives reenter := by
  have loops (entryDepth budget : Nat) : loop natives other entryDepth budget =
      loop natives reenter entryDepth budget := by
    induction budget with
    | zero => rfl
    | succ budget ih =>
        funext s m
        simp only [loop, step_alone alone reenter other, ih]
  funext id
  simp only [runFunction, callNative_alone alone reenter other, loops]

end Alone

/-! ## Statements fetched by a loop -/

/-- How many statements a loop fetches. It stops where the loop does. -/
def fetches (natives : Natives) (reenter : FunctionId → Run Unit) (entryDepth : Nat) :
    (budget s : Nat) → Machine → Nat
  | 0, _, _ => 0
  | budget + 1, s, m =>
    let here := if (fetch s m).1.isOk then 1 else 0
    match step natives reenter entryDepth s m with
    | (.ok (some next), m) => here + fetches natives reenter entryDepth budget next m
    | _ => here

section Loop
variable {natives : Natives} {reenter : FunctionId → Run Unit} {entryDepth : Nat}

theorem fetches_le (budget s : Nat) (m : Machine) :
    fetches natives reenter entryDepth budget s m ≤ budget := by
  induction budget generalizing s m with
  | zero => exact Nat.le_refl 0
  | succ budget ih =>
      have one : (if (fetch s m).1.isOk = true then 1 else 0) ≤ 1 := by
        split <;> decide
      simp only [fetches]
      split
      · rename_i next m' stepped
        have later := ih next m'
        omega
      · omega

theorem fetch_of_step {s next : Nat} {m m' : Machine}
    (stepped : step natives reenter entryDepth s m = (.ok (some next), m')) : (fetch s m).1.isOk = true := by
  rw [step, bind_apply] at stepped
  cases fetched : fetch s m with
  | mk result after =>
      rw [fetched] at stepped
      cases result with
      | ok statement => rfl
      | error stop => cases stepped

theorem fetches_along {along : Machine → Prop} {p q : Point}
    (travels : Travels natives reenter entryDepth along p q) :
    fetches natives reenter entryDepth p.budget p.statement p.machine + q.budget =
      p.budget + fetches natives reenter entryDepth q.budget q.statement q.machine := by
  induction travels with
  | stay p => exact Nat.add_comm _ _
  | @go budget s next m m' q _ stepped _ ih =>
      have later : fetches natives reenter entryDepth budget next m' + q.budget =
        budget + fetches natives reenter entryDepth q.budget q.statement q.machine := ih
      simp only [fetches, stepped, fetch_of_step stepped, if_true]
      omega

theorem loop_along {along : Machine → Prop} {p q : Point}
    (travels : Travels natives reenter entryDepth along p q) :
    loop natives reenter entryDepth p.budget p.statement p.machine =
      loop natives reenter entryDepth q.budget q.statement q.machine := by
  induction travels with
  | stay p => rfl
  | go _ stepped _ ih => simp only [loop, stepped, ih]

/-! ## Statements counted by a loop -/

theorem leave_counted : leave.Leaves counted := by
  intro m
  rw [leave_apply]
  cases m.departure <;> rfl

theorem enter_counted (id : FunctionId) (f : Function) : (enter id f).Leaves counted := by
  intro m
  rw [enter_apply]
  cases m.admission id f with
  | error stop => rfl
  | ok entry => exact m.profile.countCall_total id

theorem callNative_counted (leaves : natives.LeaveCounts) (reenter : FunctionId → Run Unit)
    (id : FunctionId) (number : Nat) : (callNative natives reenter id number).Leaves counted := by
  intro m
  rw [callNative_apply]
  cases listed : natives.lookup number with
  | error stop => rfl
  | ok g => exact (leaves number g reenter listed _).trans (m.profile.countCall_total id)

-- Only fetching counts a statement; what the statement asks for counts none.
theorem perform_counted (leaves : natives.LeaveCounts) (reenter : FunctionId → Run Unit)
    (entryDepth s : Nat) (effect : Effect) :
    (perform natives reenter entryDepth s effect).Leaves counted := by
  cases effect with
  | write offset cells =>
      exact leaves_bind (write_leaves offset cells fun _ _ _ => rfl) fun _ => leaves_pure _
  | writeField address cells =>
      exact leaves_bind (writeFields_leaves _ _ cells fun _ _ _ => rfl) fun _ => leaves_pure _
  | jump distance => exact leaves_pure _
  | schedule frame think =>
      exact leaves_bind (schedule_leaves frame think fun _ _ _ => rfl) fun _ => leaves_pure _
  | finish offset =>
      refine leaves_bind (giveResult_leaves offset fun _ _ _ => rfl) fun _ =>
        leaves_bind leave_counted fun caller => leaves_get_bind fun m => ?_
      split <;> rfl
  | call callee arguments =>
      refine leaves_bind (leaves_modify fun _ => rfl) fun _ => leaves_bind leaves_get fun m =>
        leaves_bind (leaves_outcome _) fun f => ?_
      split
      · exact leaves_bind (callNative_counted leaves reenter _ _) fun _ => leaves_pure _
      · exact leaves_bind (enter_counted _ _) fun _ => leaves_pure _

theorem step_counted (leaves : natives.LeaveCounts) (reenter : FunctionId → Run Unit) (entryDepth s : Nat)
    (m : Machine) :
    ∃ wraps, (step natives reenter entryDepth s m).2.counted + wraps * Room.countLimit =
      m.counted + if (fetch s m).1.isOk then 1 else 0 := by
  rw [step_apply, fetch_apply]
  cases m.program.statement? s with
  | none => exact ⟨0, by rw [Nat.zero_mul]; rfl⟩
  | some statement =>
      cases covered : m.profile.covers m.function with
      | false => exact ⟨0, by rw [Nat.zero_mul]; rfl⟩
      | true =>
          obtain ⟨wraps, one⟩ := Profile.countStatement_total covered
          refine ⟨wraps, Eq.trans ?_ one⟩
          congr 1
          simp only [↓reduceIte]
          cases statement.opcode? with
          | none => rfl
          | some op =>
              simp only
              cases m.effect op statement with
              | error stop => rfl
              | ok effect => exact perform_counted leaves reenter _ _ effect (m.fetched s statement)

theorem loop_counted (leaves : natives.LeaveCounts) (budget s : Nat) (m : Machine) :
    ∃ wraps, (loop natives reenter entryDepth budget s m).2.counted + wraps * Room.countLimit =
      m.counted + fetches natives reenter entryDepth budget s m := by
  induction budget generalizing s m with
  | zero => exact ⟨0, by rw [Nat.zero_mul]; rfl⟩
  | succ budget ih =>
      obtain ⟨wraps, counted⟩ := step_counted leaves reenter entryDepth s m
      simp only [loop, fetches]
      cases outcome : step natives reenter entryDepth s m with
      | mk result m' =>
          rw [outcome] at counted
          rcases result with stop | (_ | next)
          · exact ⟨wraps, counted⟩
          · exact ⟨wraps, counted⟩
          · obtain ⟨more, later⟩ := ih next m'
            refine ⟨wraps + more, ?_⟩
            simp only at counted ⊢
            rw [Nat.add_mul]
            omega

end Loop
end Machine

/-! ## Executions -/

namespace Execution

/-- How many statements the execution fetches, over its function and all that this calls. -/
def fetched (natives : Natives) (e : Execution) : Nat :=
  match e.start.program.function e.id with
  | .error _ => 0
  | .ok f =>
    match f.nativeNumber?, (e.ready f).admission e.id f with
    | none, .ok (saved, moves) => fetches natives (e.reenter natives) e.start.depth
        e.start.config.runawayLimit f.first.toNat ((e.ready f).entered e.id saved moves)
    | _, _ => 0

/-- The budget is spent, and the function has neither returned nor failed. -/
def Spends (natives : Natives) (e : Execution) : Prop := ∃ q, e.Reaches natives q ∧ q.budget = 0

/-- A native function that the execution calls stops with this. -/
def NativeStops (natives : Natives) (e : Execution) (stop : Stop) : Prop :=
  ∃ g m, e.CallsOut natives g m ∧ (g.run (e.reenter natives) m).1 = .error stop

variable {natives : Natives} {e : Execution}

theorem fetched_le : e.fetched natives ≤ e.start.config.runawayLimit := by
  unfold fetched
  repeat' split
  all_goals first
    | exact fetches_le _ _ _
    | exact Nat.zero_le _

variable (natives) in
theorem begins_fetched {p : Point} (begins : e.Begins p) : p.budget = e.start.config.runawayLimit ∧
    e.fetched natives =
      fetches natives (e.reenter natives) e.start.depth p.budget p.statement p.machine ∧
    e.performance natives =
      loop natives (e.reenter natives) e.start.depth p.budget p.statement p.machine := by
  cases begins with
  | @entered f saved moves found ours admitted =>
      refine ⟨rfl, ?_, ?_⟩
      · simp only [fetched, found, ours, admitted]
      · rw [performance_apply]
        simp only [found, ours, admitted]

theorem Spends.exhausts (spends : e.Spends natives) : e.fetched natives = e.start.config.runawayLimit ∧
    ∃ stop, (e.performance natives).1 = .error stop ∧ stop.IsRunaway := by
  obtain ⟨q, ⟨p, begins, travels⟩, spent⟩ := spends
  obtain ⟨full, fetched, performed⟩ := begins_fetched natives begins
  have turns := fetches_along travels
  have last := loop_along travels
  rw [spent] at turns last
  have ran : (e.performance natives).1 =
      .error (.error { cause := .limitExceeded (.runaway q.machine.config.runawayLimit) }) := by
    rw [performed, last]
    rfl
  refine ⟨?_, _, ran, _, rfl, rfl⟩
  rw [fetched, ← full]
  exact turns

theorem reached_raises {p : Point} (reached : e.Reaches natives p) {stop : Stop}
    (stopped : (loop natives (e.reenter natives) e.start.depth p.budget p.statement p.machine).1 = .error stop) :
    stop.Raised ∨ (e.Spends natives ∧ stop.Exhausted) ∨ e.NativeStops natives stop := by
  obtain ⟨budget, s, m⟩ := p
  -- Over the budget, with a point on the way that the execution does reach.
  induction budget generalizing s m with
  | zero =>
      cases stopped
      exact .inr (.inl ⟨⟨_, reached, rfl⟩, _, rfl⟩)
  | succ budget ih =>
      simp only [loop] at stopped
      cases outcome : step natives (e.reenter natives) e.start.depth s m with
      | mk result m' =>
          rw [outcome] at stopped
          rcases result with reason | (_ | next)
          · cases stopped
            rcases m.step_stop (congrArg Prod.fst outcome) with own |
              ⟨g, _, ⟨statement, op, callee, arguments, f, number, found, known, asked, target, native, listed,
                rfl⟩, ran⟩
            · exact .inl own
            · exact .inr (.inr ⟨g, _, .within reached (Nat.succ_pos _) found known asked target native listed,
                ran⟩)
          · cases stopped
          · exact ih _ _ (reached.next outcome) stopped

theorem performance_raises {stop : Stop} (stopped : (e.performance natives).1 = .error stop) :
    stop.Raised ∨ (e.Spends natives ∧ stop.Exhausted) ∨ e.NativeStops natives stop := by
  have target : Outcome.Raises (e.start.program.function e.id) := e.start.function_raises e.id
  have performed := stopped
  rw [performance_apply] at stopped
  cases found : e.start.program.function e.id with
  | error reason =>
      rw [found] at target
      simp only [found] at stopped
      cases stopped
      exact .inl target
  | ok f =>
      simp only [found] at stopped
      cases native : f.nativeNumber? with
      | some number =>
          simp only [native] at stopped
          rcases (e.ready f).callNative_stop stopped with own | ⟨g, listed, ran⟩
          · exact .inl own
          · exact .inr (.inr ⟨g, _, .directly found native listed, ran⟩)
      | none =>
          simp only [native] at stopped
          have admits := (e.ready f).admission_raises e.id f
          cases admitted : (e.ready f).admission e.id f with
          | error reason =>
              rw [admitted] at admits
              simp only [admitted] at stopped
              cases stopped
              exact .inl admits
          | ok entry =>
              obtain ⟨saved, moves⟩ := entry
              have begins : e.Begins _ := .entered found native admitted
              rw [(begins_fetched natives begins).2.2] at performed
              exact reached_raises ⟨_, begins, .stay _⟩ performed

theorem performance_stop {stop : Stop} (stopped : (e.performance natives).1 = .error stop) :
    stop.Own ∨ (e.Spends natives ∧ stop.IsRunaway) ∨ e.NativeStops natives stop := by
  rcases performance_raises stopped with raised | ⟨spends, limit, rfl⟩ | stops
  · exact .inl raised.own
  · exact .inr (.inl ⟨spends, _, rfl, rfl⟩)
  · exact .inr (.inr stops)

end Execution

namespace Machine

theorem guarded_counted (body : Run Unit) (m : Machine) :
    (guarded body m).2.counted = (body m).2.counted := by
  have many (count : Nat) : (leaveMany count).Leaves counted := by
    induction count with
    | zero => exact leaves_pure ()
    | succ count ih =>
        refine leaves_bind (leaves_attempt leave_counted) fun result => ?_
        cases result with
        | ok statement => exact ih
        | error e => exact leaves_pure ()
  rw [guarded_apply]
  cases body m with
  | mk result m' =>
      rcases result with (_ | _ | e) | done
      · rfl
      · rfl
      · simp only
        cases m'.located e with
        | error stop => rfl
        | ok e' =>
            have unwound : (unwind m.depth m').2.counted = m'.counted := many _ m'
            cases outcome : unwind m.depth m' with
            | mk result m'' =>
                rw [outcome] at unwound
                cases result <;> exact unwound
      · rfl

end Machine

namespace Execution
variable {natives : Natives} {e : Execution}

theorem performance_counted (leaves : natives.LeaveCounts) :
    ∃ wraps, (e.performance natives).2.counted + wraps * Room.countLimit =
      e.start.counted + e.fetched natives := by
  rw [performance_apply]
  unfold fetched
  cases e.start.program.function e.id with
  | error stop => exact ⟨0, by rw [Nat.zero_mul]⟩
  | ok f =>
      simp only
      cases f.nativeNumber? with
      | some number =>
          exact ⟨0, by rw [Nat.zero_mul]; exact callNative_counted leaves _ e.id number (e.ready f)⟩
      | none =>
          simp only
          cases (e.ready f).admission e.id f with
          | error stop => exact ⟨0, by rw [Nat.zero_mul]; rfl⟩
          | ok entry =>
              obtain ⟨saved, moves⟩ := entry
              have entered : ((e.ready f).entered e.id saved moves).counted = e.start.counted :=
                e.start.profile.countCall_total e.id
              rw [← entered]
              exact loop_counted leaves _ _ _

theorem outcome_eq : e.outcome natives = guarded (runFunction natives (e.reenter natives) e.id) e.start := rfl

/-- Where native functions start no executions, every execution ends. It fetches no more statements than the
limit allows and counts each of them, and it fails as a runaway exactly when it has fetched so many and neither
returned nor failed, unless a native function says so of itself. The start may be any machine, so what ran before
costs nothing. -/
theorem budget_is_exact (alone : natives.Alone) (e : Execution) :
    (∀ nesting, execute natives (nesting + 1) e.id e.start = e.outcome natives) ∧
      (e.outcome natives).1 ≠ .error .nestedTooDeep ∧
      (natives.Restore .noFault → e.start.Sound → Returned (e.outcome natives).1) ∧
      e.fetched natives ≤ e.start.config.runawayLimit ∧
      (natives.LeaveCounts → ∃ wraps,
        (e.outcome natives).2.counted + wraps * Room.countLimit = e.start.counted + e.fetched natives ∧
          (e.start.counted + e.fetched natives < Room.countLimit → wraps = 0)) ∧
      (e.Spends natives → e.fetched natives = e.start.config.runawayLimit) ∧
      (Returned (e.outcome natives).1 → (∀ stop, e.NativeStops natives stop → ¬ stop.IsRunaway) →
        ((∃ stop, (e.outcome natives).1 = .error stop ∧ stop.IsRunaway) ↔ e.Spends natives)) := by
  have guarded := guarded_result (runFunction natives (e.reenter natives) e.id) e.start
  rw [← outcome_eq, show runFunction natives (e.reenter natives) e.id e.start = e.performance natives from rfl]
    at guarded
  have shallow : (e.outcome natives).1 ≠ .error .nestedTooDeep := by
    intro deep
    rcases performed : (e.performance natives).1 with (_ | _ | failed) | done
    · simp [performed, deep] at guarded
    · rcases performance_stop performed with own | ⟨-, _, same, -⟩ | ⟨g, m, called, ran⟩
      · exact own
      · cases same
      · obtain ⟨number, listed⟩ := called.known
        exact (alone number g (e.reenter natives) (e.reenter natives) m listed).2 ran
    · simp [performed, deep] at guarded
    · simp [performed, deep] at guarded
  refine ⟨fun nesting => ?_, shallow, fun restore sound => ?_, fetched_le, fun leaves => ?_,
    fun spends => spends.exhausts.1, fun returned discreet => ⟨?_, ?_⟩⟩
  · exact congrArg (Machine.guarded · e.start) (congrFun (runFunction_alone alone _ _) e.id)
  · have stops := (execute_back restore nofun (e.nesting + 1) e.id e.start sound).1
    rintro stop stopped
    rw [show execute natives (e.nesting + 1) e.id e.start = e.outcome natives from rfl, stopped] at stops
    cases stop with
    | error error => trivial
    | fault => exact absurd rfl stops
    | nestedTooDeep => exact shallow stopped
  · obtain ⟨wraps, counted⟩ := performance_counted (e := e) leaves
    refine ⟨wraps, ?_, fun fits => ?_⟩
    · rw [outcome_eq, guarded_counted]
      exact counted
    · have words : wraps * Room.countLimit < 1 * Room.countLimit := by omega
      exact Nat.lt_one_iff.mp (Nat.lt_of_mul_lt_mul_right words)
  -- The failure that comes out has the cause that the function itself failed with.
  · rintro ⟨_, failed, told, rfl, runaway⟩
    rcases performed : (e.performance natives).1 with (_ | _ | error) | done
    · simp [performed, failed] at guarded
    · simp [performed, failed] at guarded
    · have cause : told.cause = error.cause := by
        simpa [performed, failed] using guarded
      rw [cause] at runaway
      rcases performance_stop performed with own | ⟨spends, -⟩ | stops
      · exact absurd runaway (Bool.eq_false_iff.mp own)
      · exact spends
      · exact absurd ⟨error, rfl, runaway⟩ (discreet _ stops)
    · simp [performed, failed] at guarded
  · intro spends
    obtain ⟨_, performed, error, rfl, runaway⟩ := spends.exhausts.2
    simp only [performed] at guarded
    rcases guarded with faulted | ⟨told, failed, cause⟩
    · rw [faulted] at returned
      exact absurd returned (not_returned Stop.fault_silent)
    · exact ⟨_, failed, told, rfl, cause ▸ runaway⟩

def turning : Program where
  image := {
    statements := #[⟨0, 0, 0, 0⟩, ⟨51, 29, 0, 0⟩, ⟨51, 28, 0, 0⟩, ⟨0, 0, 0, 0⟩, ⟨0, 0, 0, 0⟩]
    functions := #[{}, { first := 1, parmStart := 30 }, { first := 4, parmStart := 30 }, { first := -1 }]
    globals := Array.replicate 28 ⟨0⟩ ++ #[⟨2⟩, ⟨3⟩] }
  globals := {}
  fields := {}
  sound := by decide +kernel
  globals_eq := show _ = Image.systemGlobals _ from rfl
  fields_eq := show _ = Image.systemFields _ from rfl

/-- Four statements suffice for it to return, and with three it runs away. -/
theorem budget_is_exact_turning :
    let natives := Natives.empty.register 1 ⟨"seven", Samples.plain Samples.giveSeven⟩
    let enough : Execution := ⟨0, ⟨1⟩, .create turning { runawayLimit := 4 }⟩
    let short : Execution := ⟨0, ⟨1⟩, .create turning { runawayLimit := 3 }⟩
    natives.Alone ∧ natives.LeaveCounts ∧ natives.Restore .noFault ∧
      (enough.outcome natives).1.isOk = true ∧ enough.fetched natives = 4 ∧
      (∃ wraps, (enough.outcome natives).2.counted + wraps * Room.countLimit =
        enough.start.counted + enough.fetched natives) ∧
      Returned (short.outcome natives).1 ∧ short.Spends natives ∧ short.fetched natives = 3 := by
  intro natives enough short
  have only (number : Nat) (g : Native) (listed : natives.lookup number = .ok g) :
      g = ⟨"seven", Samples.plain Samples.giveSeven⟩ := by
    rw [Natives.lookup_register] at listed
    split at listed
    · cases listed
      rfl
    · cases listed
  have gives : (Samples.giveSeven).Own := write_own _ _
  have alone : natives.Alone := by
    intro number g reenter other m listed
    rw [only number g listed]
    refine ⟨rfl, fun deep => ?_⟩
    have own := gives m
    rw [show (Samples.giveSeven m).1 = _ from deep] at own
    exact own
  have leaves : natives.LeaveCounts := by
    intro number g reenter listed
    rw [only number g listed]
    exact write_leaves _ _ fun _ _ _ => rfl
  have restore : natives.Restore .noFault :=
    (Natives.register_respect (Natives.empty_respect _)
      (Samples.plain_respects fun c => giveCell_matches _) 1).restore
  obtain ⟨-, -, returns, -, -, exhausts, runaway⟩ := budget_is_exact alone short
  have returned := returns restore (create_sound _ _)
  have fails : (short.outcome natives).1.isRunaway = true := by decide +kernel
  have spends : short.Spends natives := by
    refine (runaway returned fun stop stops => ?_).mp ?_
    · obtain ⟨g, m, called, ran⟩ := stops
      obtain ⟨number, listed⟩ := called.known
      rw [only number g listed] at ran
      have own := gives m
      rw [show (Samples.giveSeven m).1 = _ from ran] at own
      rintro ⟨e, rfl, runs⟩
      exact absurd runs (Bool.eq_false_iff.mp own)
    · exact (Outcome.isRunaway_iff _).mp fails
  obtain ⟨wraps, counted, -⟩ := (budget_is_exact alone enough).2.2.2.2.1 leaves
  exact ⟨alone, leaves, restore, by decide +kernel, by decide +kernel, ⟨wraps, counted⟩, returned, spends,
    exhausts spends⟩

end Execution
end EntityMachine
