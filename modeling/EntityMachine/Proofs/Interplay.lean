import EntityMachine.Proofs.Executions
import EntityMachine.Proofs.ReferenceNatives

/-!
How native functions and executions play together. A native function is put together from operations of its
own and from executions that it starts. What the operations leave alone only those executions can change,
and each of them is one that the outcome depends on.
-/
namespace EntityMachine
open Machine Run

/-- A computation put together from operations that leave a part of the machine alone and from executions
of functions. -/
inductive Interacts (part : Machine → σ) : {α : Type} → ((FunctionId → Run Unit) → Run α) → Prop
  | quiet {α : Type} {body : Run α} : body.Leaves part → Interacts part fun _ => body
  | nested (id : FunctionId) : Interacts part fun reenter => reenter id
  | bind {α β : Type} {first : (FunctionId → Run Unit) → Run α} {rest : α → (FunctionId → Run Unit) → Run β} :
      Interacts part first → (∀ a, Interacts part (rest a)) →
      Interacts part fun reenter => first reenter >>= fun a => rest a reenter
  | attempt {α : Type} {tried : (FunctionId → Run Unit) → Run α} :
      Interacts part tried → Interacts part fun reenter => Run.attempt (tried reenter)

/-- Only the executions that the native functions start can change the part. -/
def Natives.Interact (natives : Natives) (part : Machine → σ) : Prop :=
  ∀ number f, natives.lookup number = .ok f → Interacts part f.run

open Classical in
/-- Running one function on one machine fails; everything else goes as before. -/
noncomputable def interrupted (reenter : FunctionId → Run Unit) (id : FunctionId) (m m' : Machine) :
    FunctionId → Run Unit :=
  fun id₁ m₁ => if id₁ = id ∧ m₁ = m then (.error .fault, m') else reenter id₁ m₁

/-- The computation comes to run a function on a machine: were that to fail, it would fail there. -/
def Asks (body : (FunctionId → Run Unit) → Run α) (reenter : FunctionId → Run Unit) (m : Machine)
    (id : FunctionId) (m' : Machine) : Prop :=
  ∀ last, body (interrupted reenter id m' last) m = (.error .fault, last)

/-! ## What is asked for -/

section Asks
variable {reenter : FunctionId → Run Unit} {m m' : Machine} {id : FunctionId}

theorem interrupted_other {last : Machine} (id₁ : FunctionId) (m₁ : Machine) (other : ¬ (id₁ = id ∧ m₁ = m')) :
    interrupted reenter id m' last id₁ m₁ = reenter id₁ m₁ := if_neg other

theorem not_asks {body : (FunctionId → Run Unit) → Run α}
    (same : ∀ last, body (interrupted reenter id m' last) m = body reenter m) :
    ¬ Asks body reenter m id m' := by
  intro asked
  -- The run might fail on a machine that the computation does not come to.
  let elsewhere : Machine := { (body reenter m).2 with
    argumentCount := (body reenter m).2.argumentCount + 1 }
  have told := (same elsewhere).symm.trans (asked elsewhere)
  exact Nat.succ_ne_self _ (congrArg (fun outcome => outcome.2.argumentCount) told).symm

theorem Asks.first {first : (FunctionId → Run Unit) → Run α} (asked : Asks first reenter m id m')
    (rest : α → (FunctionId → Run Unit) → Run β) :
    Asks (fun reenter => first reenter >>= fun a => rest a reenter) reenter m id m' := by
  intro last
  beta_reduce
  rw [bind_apply, asked last]

theorem Asks.attempt {tried : (FunctionId → Run Unit) → Run α} (asked : Asks tried reenter m id m') :
    Asks (fun reenter => Run.attempt (tried reenter)) reenter m id m' := by
  intro last
  beta_reduce
  rw [attempt_apply, asked last]

end Asks

namespace Interacts
variable {part : Machine → σ} {reenter : FunctionId → Run Unit}

/-- A run that is not asked for makes no difference, whatever it were to come to. -/
theorem asks_or {body : (FunctionId → Run Unit) → Run α} (interacts : Interacts part body) (m : Machine)
    (id : FunctionId) (m' : Machine) :
    Asks body reenter m id m' ∨
      ∀ other : FunctionId → Run Unit, (∀ id₁ m₁, ¬ (id₁ = id ∧ m₁ = m') → other id₁ m₁ = reenter id₁ m₁) →
        body other m = body reenter m := by
  induction interacts generalizing m with
  | quiet leaves => exact .inr fun _ _ => rfl
  | nested id₁ =>
      by_cases here : id₁ = id ∧ m = m'
      · exact .inl fun last => if_pos here
      · exact .inr fun other agree => agree id₁ m here
  | @bind α β first rest _ _ ih later =>
      rcases ih m with asked | spared
      · exact .inl (asked.first rest)
      · cases outcome : first reenter m with
        | mk result m₁ =>
            cases result with
            | error stop =>
                refine .inr fun other agree => ?_
                beta_reduce
                rw [bind_apply, bind_apply, spared other agree, outcome]
            | ok a =>
                rcases later a m₁ with asked | spared'
                · refine .inl fun last => ?_
                  beta_reduce
                  rw [bind_apply, spared _ interrupted_other, outcome]
                  exact asked last
                · refine .inr fun other agree => ?_
                  beta_reduce
                  rw [bind_apply, bind_apply, spared other agree, outcome]
                  exact spared' other agree
  | @attempt α tried _ ih =>
      rcases ih m with asked | spared
      · exact .inl asked.attempt
      · refine .inr fun other agree => ?_
        beta_reduce
        rw [attempt_apply, attempt_apply, spared other agree]

theorem asks_rest {first : (FunctionId → Run Unit) → Run α} {rest : α → (FunctionId → Run Unit) → Run β}
    (interacts : Interacts part first) {m m₁ : Machine} {a : α} (outcome : first reenter m = (.ok a, m₁))
    {id : FunctionId} {m' : Machine} (asked : Asks (rest a) reenter m₁ id m') :
    Asks (fun reenter => first reenter >>= fun a => rest a reenter) reenter m id m' := by
  rcases interacts.asks_or m id m' with before | spared
  · exact before.first rest
  · intro last
    beta_reduce
    rw [bind_apply, spared _ interrupted_other, outcome]
    exact asked last

theorem relates {body : (FunctionId → Run Unit) → Run α} (interacts : Interacts part body)
    {related : Machine → Machine → Prop} (same : ∀ m m', part m' = part m → related m m')
    (trans : ∀ {m m₁ m₂}, related m m₁ → related m₁ m₂ → related m m₂) (m : Machine)
    (nested : ∀ id m', Asks body reenter m id m' → Returned (reenter id m').1 →
      related m' (reenter id m').2)
    (returned : Returned (body reenter m).1) : related m (body reenter m).2 := by
  induction interacts generalizing m with
  | quiet leaves => exact same _ _ (leaves m)
  | nested id => exact nested id m (fun last => if_pos ⟨rfl, rfl⟩) returned
  | @bind α β first rest begins _ ih later =>
      beta_reduce at returned ⊢
      have before := ih m fun id m' asked => nested id m' (asked.first rest)
      rw [bind_apply] at returned ⊢
      cases outcome : first reenter m with
      | mk result m₁ =>
          rw [outcome] at before returned
          cases result with
          | error stop => exact before returned.passed
          | ok a =>
              refine trans (before (returned_ok a)) (later a m₁ (fun id m' asked => ?_) returned)
              exact nested id m' (begins.asks_rest outcome asked)
  | @attempt α tried _ ih =>
      beta_reduce at returned ⊢
      have before := ih m fun id m' asked => nested id m' asked.attempt
      rw [attempt_apply] at returned ⊢
      cases outcome : tried reenter m with
      | mk result m₁ =>
          rw [outcome] at before returned
          cases result with
          | ok a => exact before (returned_ok a)
          | error stop =>
              cases stop with
              | error e => exact before (returned_error e)
              | fault => exact absurd returned (not_returned Stop.fault_silent)
              | nestedTooDeep => exact absurd returned (not_returned Stop.nesting_silent)

theorem asked_related {body : (FunctionId → Run Unit) → Run α} (interacts : Interacts part body)
    {related : Machine → Machine → Prop} (same : ∀ m m', part m' = part m → related m m')
    (trans : ∀ {m m₁ m₂}, related m m₁ → related m₁ m₂ → related m m₂)
    (runs : ∀ id m, Returned (reenter id m).1 → related m (reenter id m).2) {m : Machine}
    {id : FunctionId} {m' : Machine} (asked : Asks body reenter m id m') : related m m' := by
  induction interacts generalizing m with
  | quiet leaves => exact absurd asked (not_asks fun _ => rfl)
  | nested id₁ =>
      by_cases here : id₁ = id ∧ m = m'
      · exact same _ _ (congrArg part here.2.symm)
      · exact absurd asked (not_asks fun _ => if_neg here)
  | @bind α β first rest begins _ ih later =>
      rcases begins.asks_or m id m' with before | spared
      · exact ih before
      · cases outcome : first reenter m with
        | mk result m₁ =>
            cases result with
            | error stop =>
                refine absurd asked (not_asks fun last => ?_)
                rw [bind_apply, bind_apply, spared _ interrupted_other, outcome]
            | ok a =>
                have first_ : related m m₁ := by
                  have reached := begins.relates same trans m (fun id m' _ => runs id m')
                  rw [outcome] at reached
                  exact reached (returned_ok a)
                refine trans first_ (later a fun last => ?_)
                have told := asked last
                beta_reduce at told
                rwa [bind_apply, spared _ interrupted_other, outcome] at told
  | @attempt α tried begins ih =>
      rcases begins.asks_or m id m' with before | spared
      · exact ih before
      · refine absurd asked (not_asks fun last => ?_)
        rw [attempt_apply, attempt_apply, spared _ interrupted_other]

end Interacts

theorem asks_iff {part : Machine → σ} {f : Native} (interacts : Interacts part f.run)
    (reenter : FunctionId → Run Unit) (m : Machine) (id : FunctionId) (m' : Machine) :
    Asks f.run reenter m id m' ↔ f.Reenters reenter m id m' := by
  constructor
  · intro asked
    refine Classical.byContradiction fun indifferent => not_asks (fun last => ?_) asked
    refine Classical.byContradiction fun different => indifferent ?_
    exact ⟨interrupted reenter id m' last, fun id₁ m₁ => interrupted_other id₁ m₁, different⟩
  · rintro ⟨other, agree, different⟩
    rcases interacts.asks_or m id m' with asked | spared
    · exact asked
    · exact absurd (spared other agree) different

namespace Interacts
variable {part : Machine → σ}

theorem mono {less : Machine → τ} (includes : ∀ m m', part m' = part m → less m' = less m)
    {body : (FunctionId → Run Unit) → Run α} (interacts : Interacts part body) : Interacts less body := by
  induction interacts with
  | quiet leaves => exact .quiet fun m => includes _ _ (leaves m)
  | nested id => exact .nested id
  | bind _ _ ih later => exact .bind ih later
  | attempt _ ih => exact .attempt ih

theorem preserves {body : (FunctionId → Run Unit) → Run α} (interacts : Interacts part body)
    {reenter : FunctionId → Run Unit} {inv : σ → Prop}
    (nested : ∀ id, (reenter id).Preserves (fun _ => True) fun m => inv (part m)) :
    (body reenter).Preserves (fun _ => True) fun m => inv (part m) := by
  induction interacts with
  | quiet leaves => exact leaves.preserves inv
  | nested id => exact nested id
  | bind _ _ ih later => exact preserves_bind ih later
  | attempt _ ih => exact preserves_attempt (fun _ => trivial) ih

theorem matches_ {body : (FunctionId → Run Unit) → Run α} (interacts : Interacts control body) {c : Control}
    {reenter other : FunctionId → Run Unit} (nested : ∀ id, (reenter id).Matches .any c (other id)) :
    (body reenter).Matches .any c (body other) := by
  induction interacts with
  | @quiet α body leaves =>
      intro m here _
      refine ⟨rfl, ?_, fun _ => ⟨(leaves m).trans here, trivial⟩⟩
      cases (body m).1 <;> trivial
  | nested id => exact nested id
  | bind _ _ ih later => exact matches_bind ih later
  | attempt _ ih => exact matches_attempt ih

end Interacts

theorem Natives.Interact.mono {natives : Natives} {part : Machine → σ} {less : Machine → τ}
    (interact : natives.Interact part) (includes : ∀ m m', part m' = part m → less m' = less m) :
    natives.Interact less :=
  fun number f known => (interact number f known).mono includes

theorem Natives.Interact.respect {natives : Natives} (interact : natives.Interact control) :
    natives.Respect .any :=
  fun number f known => Native.respects_of_matches fun _ _ _ nested =>
    (interact number f known).matches_ nested

theorem Natives.empty_interact (part : Machine → σ) : empty.Interact part :=
  fun _ _ known => nomatch known

theorem Natives.register_interact {part : Machine → σ} {natives : Natives} {f : Native}
    (interact : natives.Interact part) (interacts : Interacts part f.run) (number : Nat) :
    (natives.register number f).Interact part := by
  intro n g known
  rw [lookup_register] at known
  split at known
  · cases known
    exact interacts
  · exact interact n g known

/-! ## Functions that leave the trace alone -/

/-- What decides which events a machine reports, and who hears of them. -/
structure Voice where
  tracing : Bool
  tracer : Option Tracer
  control : Control

def Machine.voice (m : Machine) : Voice := ⟨m.tracing, m.tracer, m.control⟩

namespace Samples

theorem giveCell_leaves (c : Cell) : (giveCell c).Leaves voice := write_leaves _ _ fun _ _ _ => rfl

theorem runFirst_interacts : Interacts voice runFirst :=
  .bind (.quiet leaves_get) fun _ => .bind (.quiet (leaves_outcome _)) fun c => .nested c.function

theorem tryFirst_interacts : Interacts voice tryFirst := by
  refine .bind (.attempt runFirst_interacts) fun result => ?_
  cases result with
  | ok done => exact .quiet (giveCell_leaves _)
  | error e => exact .quiet (leaves_bind (leaves_modify fun _ => rfl) fun _ => giveCell_leaves _)

end Samples

/-- The reference functions start no executions. Two of them turn the switch. -/
theorem Natives.reference_interact :
    Natives.reference.Interact fun m => (m.tracer, m.control) := by
  intro number f known
  obtain ⟨row, member, rfl⟩ := reference_known known
  refine .quiet fun m => ?_
  have tolerates : Reference.Tolerates (fun _ => True) fun m' =>
      (m'.tracer, m'.control) = (m.tracer, m.control) :=
    { globals := fun _ _ _ same => same
      strings := fun _ _ _ _ _ same => same
      lost := fun _ _ same => same
      output := fun _ _ same => same
      random := fun _ _ same => same
      tracing := fun _ _ same => same
      taken := fun _ _ _ _ same => same
      retired := fun _ _ _ _ same => same }
  exact Reference.catalogue_preserves tolerates row member m rfl fun _ _ => trivial

/-! ## Tracing that stays on -/

section Tracing
variable {natives : Natives} (interact : natives.Interact voice)
include interact

theorem tracing_preserve :
    natives.Preserve (fun _ => True) fun (on : Bool) d => d.tracing = on := by
  intro number f reenter known nested on
  have interacts : Interacts tracing f.run :=
    (interact number f known).mono fun _ _ same => congrArg Voice.tracing same
  exact @Interacts.preserves _ _ _ _ interacts reenter (· = on) (nested on)

theorem execute_tracing (nesting : Nat) (id : FunctionId) (m : Machine) :
    (execute natives nesting id m).2.tracing = m.tracing :=
  execute_preserves (fun _ => trivial) (tracing_preserve interact) nesting id m.tracing m rfl
    fun _ _ => trivial

namespace Execution
variable {e inner : Execution}

theorem handed_tracing {f : Native} {m : Machine} (called : e.CallsOut natives f m) :
    m.tracing = e.start.tracing := by
  cases called with
  | directly => rfl
  | within reached => exact reached_preserves reached (tracing_preserve interact) rfl

theorem moment_tracing {m : Machine} (moment : e.Moment natives m) : m.tracing = e.start.tracing := by
  have nested (on : Bool) (id : FunctionId) :
      (e.reenter natives id).Preserves (fun _ => True) fun m => m.durable.tracing = on :=
    execute_preserves (fun _ => trivial) (tracing_preserve interact) e.nesting id on
  cases moment with
  | start => rfl
  | point reached => exact reached_preserves reached (tracing_preserve interact) rfl
  | handed called => exact handed_tracing interact called
  | @returned f m called _ =>
      obtain ⟨number, known⟩ := called.known
      exact tracing_preserve interact number f _ known nested _ m (handed_tracing interact called)
        fun _ _ => trivial
  | @unwinding error m count failed _ =>
      have kept := runFunction_preserves (tracing_preserve interact) nested e.id e.start.tracing e.start rfl
        fun _ _ => trivial
      rw [show runFunction natives (e.reenter natives) e.id e.start = _ from failed] at kept
      exact (congrArg Durable.tracing (leaveMany_durable count m)).trans kept
  | finished => exact execute_tracing interact (e.nesting + 1) e.id e.start

theorem starts_tracing (starts : e.Starts natives inner) : inner.start.tracing = e.start.tracing := by
  cases starts with
  | @reentered nesting id start f m id' m' called reenters =>
      obtain ⟨number, known⟩ := called.known
      have interacts := interact number f known
      refine Eq.trans ?_ (handed_tracing interact called)
      exact interacts.asked_related (fun _ _ same => congrArg Voice.tracing same)
        (fun first second => second.trans first) (fun id m _ => execute_tracing interact _ id m)
        ((asks_iff interacts _ m id' m').mpr reenters)

theorem inside_tracing (inside : e.Inside natives inner) {m : Machine} (moment : inner.Moment natives m) :
    m.tracing = e.start.tracing := by
  have start : inner.start.tracing = e.start.tracing := by
    clear moment
    induction inside with
    | refl => rfl
    | tail _ starts ih => exact (starts_tracing interact starts).trans ih
  exact (moment_tracing interact moment).trans start

end Execution
end Tracing
end EntityMachine
