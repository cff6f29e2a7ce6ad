import EntityMachine.Natives
import EntityMachine.Proofs.StackDiscipline

/-!
Native functions that keep the stack discipline. A native function can reach the stacks only through the
executions that it starts, so what it is put together from keeps them: operations on cells, records,
strings and output leave the stacks alone, and a nested execution gives them back.
-/
namespace EntityMachine
open Machine Run

/-- The function starts executions only on good machines whose stacks are as it found them: how they
would go on others makes no difference. -/
def Native.Local (policy : Policy) (f : Native) : Prop :=
  ∀ c (reenter other : FunctionId → Run Unit), (∀ id, (reenter id).RestoresFrom policy c) →
    (∀ id m, m.control = c → policy.good m → other id m = reenter id m) →
      ∀ m, m.control = c → policy.good m → f.run other m = f.run reenter m

def Natives.Respect (policy : Policy) (natives : Natives) : Prop :=
  ∀ number f, natives.lookup number = .ok f → f.Restores policy ∧ f.Local policy

theorem Natives.Respect.restore {policy : Policy} {natives : Natives}
    (respect : natives.Respect policy) : natives.Restore policy :=
  fun number f known => (respect number f known).1

/-- On this machine, if its stacks are these, the computation gives them back, keeps to the policy, and
comes to the same as another. -/
def Run.MatchesAt (policy : Policy) (c : Control) (m : Machine) (body other : Run α) : Prop :=
  m.control = c → policy.good m → other m = body m ∧ Outcome.Stops policy.allowed (body m).1 ∧
    (Returned (body m).1 → (body m).2.control = c ∧ policy.good (body m).2)

def Run.Matches (policy : Policy) (c : Control) (body other : Run α) : Prop :=
  ∀ m, MatchesAt policy c m body other

section Matches
variable {policy : Policy} {c : Control}

theorem matches_of_safe {body : Run α} (kept : body.Leaves control) (safe : ∀ m, SafeAt m body) :
    body.Matches policy c body := by
  intro m here good
  obtain ⟨stops, shape⟩ := safe m
  exact ⟨rfl, policy.allows_stops good stops, fun _ => ⟨(kept m).trans here, policy.shaped _ _ shape good⟩⟩

theorem matches_bind {body other : Run α} {next rest : α → Run β} (first : body.Matches policy c other)
    (second : ∀ a, (next a).Matches policy c (rest a)) :
    (body >>= next).Matches policy c (other >>= rest) := by
  intro m here good
  obtain ⟨same, raised, back⟩ := first m here good
  rw [bind_apply, bind_apply, same]
  cases outcome : body m with
  | mk result m' =>
      rw [outcome] at raised back
      cases result with
      | ok a =>
          obtain ⟨here, good⟩ := back (returned_ok _)
          exact second a m' here good
      | error stop =>
          -- The two results differ in type, so that one returned is restated for the other.
          exact ⟨rfl, raised, fun returned => back returned.passed⟩

theorem matches_attempt {body other : Run α} (tried : body.Matches policy c other) :
    (attempt body).Matches policy c (attempt other) := by
  intro m here good
  obtain ⟨same, raised, back⟩ := tried m here good
  rw [attempt_apply, attempt_apply, same]
  cases outcome : body m with
  | mk result m' =>
      rw [outcome] at raised back
      cases result with
      | ok a => exact ⟨rfl, trivial, fun _ => back (returned_ok a)⟩
      | error stop =>
          cases stop with
          | error e => exact ⟨rfl, trivial, fun _ => back (returned_error e)⟩
          | fault => exact ⟨rfl, raised, fun returned => absurd returned (not_returned Stop.fault_silent)⟩
          | nestedTooDeep =>
              exact ⟨rfl, raised, fun returned => absurd returned (not_returned Stop.nesting_silent)⟩

theorem matches_get {next rest : Machine → Run β}
    (second : ∀ m, MatchesAt policy c m (next m) (rest m)) :
    (get >>= next : Run β).Matches policy c (get >>= rest) := second

theorem matches_read {m : Machine} {outcome : Outcome α} {next rest : α → Run β}
    (meets : Outcome.Meets m.MayStop (fun a => MatchesAt policy c m (next a) (rest a)) outcome) :
    MatchesAt policy c m (liftM outcome >>= next) (liftM outcome >>= rest) := by
  intro here good
  cases outcome with
  | ok a => exact meets here good
  | error stop => exact ⟨rfl, policy.allows good meets, fun _ => ⟨here, good⟩⟩

end Matches

/-- A native function whose body comes to the same for nested executions that do. -/
theorem Native.respects_of_matches {policy : Policy} {f : Native}
    (body : ∀ c (reenter other : FunctionId → Run Unit),
      (∀ id, (reenter id).Matches policy c (other id)) →
        (f.run reenter).Matches policy c (f.run other)) : f.Restores policy ∧ f.Local policy := by
  constructor
  · intro c reenter keeps m here good
    have same := body c reenter reenter fun id m here good => ⟨rfl, keeps id m here good⟩
    exact (same m here good).2
  · intro c reenter other keeps agree m here good
    have same := body c reenter other fun id m here good =>
      ⟨agree id m here good, keeps id m here good⟩
    exact (same m here good).1

theorem Natives.lookup_register (natives : Natives) (number n : Nat) (f : Native) :
    (natives.register number f).lookup n = if n = number then .ok f else natives.lookup n := by
  unfold lookup register
  simp only [Array.getElem?_setIfInBounds, Array.size_append, Array.size_replicate]
  by_cases here : n = number
  · subst here
    rw [if_pos rfl, if_pos (by omega), if_pos rfl]
    rfl
  · rw [if_neg (Ne.symm here), if_neg here, Array.getElem?_append, Array.getElem?_replicate]
    by_cases inside : n < natives.slots.size
    · rw [if_pos inside]
    -- Numbers between the last slot and a new one stay without a function.
    · have blank (grows : Prop) [Decidable grows] :
          (if grows then some (none : Option Native) else none).join = none := by
        split <;> rfl
      rw [if_neg inside, Array.getElem?_eq_none (Nat.le_of_not_lt inside), blank]
      rfl

theorem Natives.empty_respect (policy : Policy) : empty.Respect policy :=
  fun _ _ known => nomatch known

theorem Natives.register_respect {policy : Policy} {natives : Natives} {f : Native}
    (respect : natives.Respect policy) (respects : f.Restores policy ∧ f.Local policy) (number : Nat) :
    (natives.register number f).Respect policy := by
  intro n g known
  rw [lookup_register] at known
  split at known
  · cases known
    exact respects
  · exact respect n g known

/-! ## Arguments and results -/

theorem parameter_fits {m : Machine} {n : Nat} (few : n < Slot.maxParameters) (sound : m.Sound) :
    Slot.firstParameter + n * Slot.width + Slot.width ≤ m.globals.size := by
  have room : 28 ≤ m.globals.size := sound.segment ▸ m.program.valid.segment
  have slot : n < 8 := few
  change 4 + n * 3 + 3 ≤ m.globals.size
  omega

section Operations
variable {policy : Policy} {c : Control}

theorem argument_meets (m : Machine) {n : Nat} {fine : Cell → Prop} (few : n < Slot.maxParameters)
    (any : ∀ cell, fine cell) : Outcome.Meets m.MayStop fine (m.argument n) := by
  simp only [argument, Slot.parameter?, if_pos few, Outcome.ofOption_some, Outcome.ok_bind]
  refine m.cell_meets (fun sound => ?_) any
  exact Nat.le_trans (Nat.add_le_add_left (by decide) _) (parameter_fits few sound)

theorem vectorArgument_meets (m : Machine) {n : Nat} {fine : Vec3 → Prop}
    (few : n < Slot.maxParameters) (any : ∀ v, fine v) :
    Outcome.Meets m.MayStop fine (m.vectorArgument n) := by
  simp only [vectorArgument, Slot.parameter?, if_pos few, Outcome.ofOption_some, Outcome.ok_bind]
  exact m.vector_meets (fun sound => parameter_fits few sound) any

theorem textArgument_meets (m : Machine) {n : Nat} {fine : String → Prop}
    (few : n < Slot.maxParameters) (any : ∀ text, fine text) :
    Outcome.Meets m.MayStop fine (m.textArgument n) := by
  simp only [textArgument, Outcome.meets_bind]
  exact argument_meets m few fun cell => any _

theorem writeSlot_matches (offset : Nat) (cells : Array Cell)
    (low : offset + cells.size ≤ Slot.reserved) :
    (write offset cells).Matches policy c (write offset cells) := by
  refine matches_of_safe (write_leaves _ _ fun _ _ _ => rfl) fun m => write_safe fun sound => ?_
  exact Nat.le_trans low (sound.segment ▸ m.program.valid.segment)

theorem giveCell_matches (cell : Cell) : (giveCell cell).Matches policy c (giveCell cell) :=
  writeSlot_matches _ _ (show 1 + 1 ≤ 28 by decide)

theorem print_matches (text : String) : (print text).Matches policy c (print text) :=
  matches_of_safe (fun _ => rfl) fun _ => ⟨trivial, rfl⟩

theorem fail_matches {cause : Cause} (plain : cause.isUnderflow = false) :
    (Run.fail cause : Run α).Matches policy c (Run.fail cause) :=
  matches_of_safe (leaves_fail cause) fun _ => ⟨plain, rfl⟩

end Operations

/-! ## The samples -/

namespace Samples
variable {policy : Policy}

theorem plain_respects {name : String} {body : Run Unit}
    (spared : ∀ c, body.Matches policy c body) :
    (Native.mk name (plain body)).Restores policy ∧ (Native.mk name (plain body)).Local policy :=
  Native.respects_of_matches fun c _ _ _ => spared c

section Nested
variable {c : Control} {reenter other : FunctionId → Run Unit}
  (nested : ∀ id, (reenter id).Matches policy c (other id))
include nested

theorem runFirst_matches : (runFirst reenter).Matches policy c (runFirst other) :=
  matches_get fun m => matches_read (argument_meets m (by decide) fun cell => nested cell.function m)

theorem tryFirst_matches : (tryFirst reenter).Matches policy c (tryFirst other) := by
  apply matches_bind (matches_attempt (runFirst_matches nested))
  intro result
  cases result with
  | ok done => exact giveCell_matches _
  | error e => exact matches_bind (print_matches _) fun _ => giveCell_matches _

end Nested

end Samples
end EntityMachine
