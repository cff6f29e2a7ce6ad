import EntityMachine.Proofs.Executions

/-!
Executions do not fault. On a sound machine every access that an instruction, a call or a definition
can reach was checked when the program was loaded. What remains is how deep native functions nest
executions: each nested execution of a program function uses up call depth, so with native functions
that do not start each other in circles every execution returns.
-/
namespace EntityMachine
open Machine Run

/-- A native function counts by its rank among them, any other function as nothing. -/
def Program.rank (p : Program) (rank : Nat → Nat) (id : FunctionId) : Nat :=
  match p.function id with
  | .ok f =>
    match f.nativeNumber? with
    | some number => rank number + 1
    | none => 0
  | .error _ => 0

theorem Program.rank_native {p : Program} {rank : Nat → Nat} {id : FunctionId} {f : Function}
    {number : Nat} (found : p.function id = .ok f) (native : f.nativeNumber? = some number) :
    p.rank rank id = rank number + 1 := by
  simp only [Program.rank, found, native]

/-- Native functions return, with success or with an error, as long as the executions do that they
start, and these run program functions or native functions of a lower rank. -/
def Natives.Settle (rank : Nat → Nat) (natives : Natives) : Prop :=
  ∀ number f c (reenter : FunctionId → Run Unit), natives.lookup number = .ok f →
    (∀ id, c.program.rank rank id ≤ rank number → (reenter id).RestoresFrom .onlyErrors c) →
      (f.run reenter).RestoresFrom .onlyErrors c

/-- Nested executions that a function of some rank may need when this many calls can still be made. -/
def nestingNeed (bound calls rank : Nat) : Nat := calls * (bound + 2) + rank

theorem nestingNeed_deeper {bound limit depth deeper lower : Nat} (rank : Nat) (room : depth < limit)
    (inside : depth < deeper) (low : lower ≤ bound) :
    nestingNeed bound (limit - deeper) lower < nestingNeed bound (limit - depth) rank := by
  have fewer : (limit - deeper + 1) * (bound + 2) ≤ (limit - depth) * (bound + 2) :=
    Nat.mul_le_mul_right _ (by omega)
  rw [Nat.succ_mul] at fewer
  unfold nestingNeed
  omega

theorem execute_settles {natives : Natives} {rank : Nat → Nat} {bound : Nat}
    (settle : natives.Settle rank) (ranked : ∀ number, rank number ≤ bound) (nesting : Nat)
    (id : FunctionId) (m : Machine) (sound : m.Sound)
    (enough : nestingNeed bound (m.calls.limit - m.depth) (m.program.rank rank id) < nesting) :
    Outcome.Stops Stop.Reported (execute natives nesting id m).1 ∧
      (Returned (execute natives nesting id m).1 → Back id m (execute natives nesting id m).2 ∧
        (execute natives nesting id m).2.Sound) := by
  induction nesting generalizing id m with
  | zero => exact absurd enough (Nat.not_lt_zero _)
  | succ nesting ih =>
      have keeps (c : Control) (id : FunctionId)
          (enough : nestingNeed bound (c.calls.limit - c.calls.depth) (c.program.rank rank id) <
            nesting) :
          (execute natives nesting id).RestoresFrom .onlyErrors c := by
        rintro m' rfl good
        obtain ⟨stops, back⟩ := ih id m' good enough
        exact ⟨stops, fun returned => ⟨(back returned).1.control, (back returned).2⟩⟩
      refine @guarded_back .onlyErrors id m _ (runFunction_performs id m sound ?_ ?_)
      · intro number f g found native known
        refine settle number g m.control _ known fun id' lower => keeps m.control id' ?_
        -- At the entry only the rank goes down: the depth is still the same.
        rw [Program.rank_native found native] at enough
        have lower : m.program.rank rank id' ≤ rank number := lower
        unfold nestingNeed at enough ⊢
        change (m.calls.limit - m.depth) * (bound + 2) + m.program.rank rank id' < nesting
        omega
      · intro room number f c known deeper limit program
        refine settle number f c _ known fun id' lower => keeps c id' ?_
        -- Over the base a call was made in between, so any rank will do.
        rw [limit]
        have less := nestingNeed_deeper (m.program.rank rank id) room deeper
          (Nat.le_trans lower (ranked number))
        exact Nat.lt_of_lt_of_le less (Nat.le_of_lt_succ enough)

namespace Machine

/-- On a sound machine an execution comes back with success or with an error and leaves the machine sound,
unless native functions nest executions deeper than they may; and those that do not start each other in
circles never do so, given room. -/
theorem execute_never_faults {natives : Natives} (restore : natives.Restore .noFault) (m : Machine)
    (sound : m.Sound) (nesting : Nat) (id : FunctionId) :
    (Returned (execute natives nesting id m).1 ∧ (execute natives nesting id m).2.Sound ∨
      (execute natives nesting id m).1 = .error .nestedTooDeep) ∧
    ∀ rank bound, natives.Settle rank → (∀ number, rank number ≤ bound) →
      nestingNeed bound (m.calls.limit - m.depth) (m.program.rank rank id) < nesting →
        Returned (execute natives nesting id m).1 := by
  obtain ⟨stops, back⟩ := execute_back restore nofun nesting id m sound
  refine ⟨?_, fun rank bound settle ranked enough => ?_⟩
  · cases outcome : (execute natives nesting id m).1 with
    | ok done =>
        rw [outcome] at back
        exact .inl ⟨returned_ok _, (back (returned_ok _)).2⟩
    | error stop =>
        rw [outcome] at stops back
        cases stop with
        | error e => exact .inl ⟨returned_error _, (back (returned_error _)).2⟩
        | fault => exact absurd rfl stops
        | nestedTooDeep => exact .inr rfl
  · have settled := (execute_settles settle ranked nesting id m sound enough).1
    intro stop stopped
    rw [stopped] at settled
    exact settled

theorem execute_never_faults_retrying :
    let catching := Natives.empty.register 1 ⟨"try0", Samples.tryFirst⟩
    let plain := Natives.empty.register 1 ⟨"seven", Samples.plain Samples.giveSeven⟩
    let m := create Execution.retrying { maxCallDepth := 4 }
    catching.Restore .noFault ∧ m.Sound ∧ (execute catching 2 ⟨1⟩ m).2.Sound ∧
      plain.Settle (fun _ => 0) ∧ Returned (execute plain 9 ⟨1⟩ m).1 := by
  intro catching plain m
  have catches : catching.Restore .noFault :=
    (Natives.register_respect (Natives.empty_respect _)
      (Native.respects_of_matches fun c _ _ nested => Samples.tryFirst_matches nested) 1).restore
  have gives : plain.Restore .noFault :=
    (Natives.register_respect (Natives.empty_respect _)
      (Samples.plain_respects fun c => giveCell_matches _) 1).restore
  have settle : plain.Settle fun _ => 0 := by
    intro number f c reenter known _
    rw [Natives.lookup_register] at known
    split at known
    · cases known
      exact fun m here sound => (giveCell_matches (.ofSingle (.ofInt 7)) m here sound).2
    · cases known
  have sound : m.Sound := create_sound _ _
  have caught : (execute catching 2 ⟨1⟩ m).1.isOk = true := by decide +kernel
  refine ⟨catches, sound, ?_, settle, ?_⟩
  · rcases (execute_never_faults catches m sound 2 ⟨1⟩).1 with ⟨-, after⟩ | deep
    · exact after
    · rw [deep] at caught
      cases caught
  · exact (execute_never_faults gives m sound 9 ⟨1⟩).2 (fun _ => 0) 0 settle (fun _ => Nat.le_refl 0)
      (by decide +kernel)

end Machine
end EntityMachine
