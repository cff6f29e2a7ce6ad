import EntityMachine.Proofs.Frames

/-!
What a frame counts. It counts the records whose think is due. Over a program that has think functions each of
them runs its function, so the count is of functions run. A program that only schedules thinks runs none, and its
frames count the records that are due all the same.
-/
namespace EntityMachine
open Machine Run

namespace Session

/-- A session becomes another by running the think functions of these records, one after the other, each from a
session that is made ready for it, and by nothing else. -/
inductive Ran : Session → List EntityIndex → Session → Prop
  | refl (s : Session) : Ran s [] s
  | think {s t u : Session} {think nextthink : UInt16} {e : EntityIndex} {scheduled : Single} {cell : Cell}
      {rest : List EntityIndex} :
      Thinks s.machine.program think nextthink →
      s.machine.entities.isFree e = false →
      s.machine.entities.single e nextthink.toUInt32 = .ok scheduled →
      s.machine.entities.get e think.toUInt32 = .ok cell →
      execute cell.function (s.readied nextthink e scheduled) = (.ok (), t) →
      Ran t rest u → Ran s (e :: rest) u

section Records
variable {program : Program} {natives : Natives} {think nextthink : UInt16} {deadline : Single}
  {s last : Session}

theorem due_iff {e : EntityIndex} {scheduled : Single} (used : s.machine.entities.isFree e = false)
    (read : s.machine.entities.single e nextthink.toUInt32 = .ok scheduled) :
    Due nextthink deadline e s ↔ isDue scheduled deadline = true := by
  constructor
  · rintro ⟨-, again, found, positive, soon⟩
    rw [read] at found
    cases found
    simp [isDue, positive, soon]
  · intro due
    exact ⟨used, scheduled, read, by simpa [isDue] using due⟩

instance (nextthink : UInt16) (deadline : Single) (e : EntityIndex) (s : Session) :
    Decidable (Due nextthink deadline e s) :=
  match used : s.machine.entities.isFree e, read : s.machine.entities.single e nextthink.toUInt32 with
  | false, .ok _ => decidable_of_iff _ (due_iff used read).symm
  | false, .error _ => isFalse fun ⟨_, _, found, _⟩ => nomatch read.symm.trans found
  | true, _ => isFalse fun ⟨inUse, _⟩ => nomatch used.symm.trans inUse

theorem runThinks_cons {e : EntityIndex} {rest : List EntityIndex} {count total : Nat}
    (returned : runThinks nextthink deadline (e :: rest) count s = (.ok total, last)) :
    (¬ Due nextthink deadline e s ∧ runThinks nextthink deadline rest count s = (.ok total, last)) ∨
      (Due nextthink deadline e s ∧ ∃ still t, runThink e s = (.ok still, t) ∧
        runThinks nextthink deadline rest (count + 1) t = (.ok total, last)) := by
  rw [runThinks, get_bind] at returned
  cases used : s.machine.entities.isFree e with
  | true =>
      simp only [used, ↓reduceIte] at returned
      refine .inl ⟨fun due => ?_, returned⟩
      obtain ⟨inUse, -⟩ := due
      cases used.symm.trans inUse
  | false =>
      simp only [used, Bool.false_eq_true, ↓reduceIte] at returned
      cases read : s.machine.entities.single e nextthink.toUInt32 with
      | error stop =>
          rw [read] at returned
          cases returned
      | ok scheduled =>
          rw [read, ok_bind] at returned
          rw [due_iff used read]
          cases due : isDue scheduled deadline with
          | false =>
              rw [due] at returned
              exact .inl ⟨Bool.false_ne_true, returned⟩
          | true =>
              rw [due, if_pos rfl, bind_apply] at returned
              cases thought : runThink e s with
              | mk result t =>
                  rw [thought] at returned
                  cases result with
                  | ok still => exact .inr ⟨rfl, still, t, rfl, returned⟩
                  | error stop => cases returned

theorem runThinks_ran (keep : natives.KeepSound) (thinks : Thinks program think nextthink)
    {records : List EntityIndex} {count total : Nat} {s : Session} (fit : s.Fit program natives)
    (returned : runThinks nextthink deadline records count s = (.ok total, last)) :
    last.Fit program natives ∧ ∃ ran : List EntityIndex,
      Ran s ran last ∧ ran.Sublist records ∧ total = count + ran.length := by
  induction records generalizing count s with
  | nil =>
      cases returned
      exact ⟨fit, [], .refl _, .refl [], rfl⟩
  | cons e rest ih =>
      rcases runThinks_cons returned with ⟨-, onward⟩ | ⟨⟨used, scheduled, read, -⟩, still, t, thought, onward⟩
      · obtain ⟨fit, ran, passed, among, counted⟩ := ih fit onward
        exact ⟨fit, ran, passed, among.cons e, counted⟩
      · obtain ⟨cell, function, runs⟩ := runThink_apply fit thinks used read
        obtain ⟨-, after⟩ := execute_fit keep (readied_fit fit scheduled) cell.function
        cases executed : execute cell.function (s.readied nextthink e scheduled) with
        | mk result t' =>
            rw [executed, thought] at runs
            rw [executed] at after
            cases result with
            | error stop => cases runs
            | ok _ =>
                cases runs
                obtain ⟨fit', ran, passed, among, counted⟩ := ih (after (returned_ok _)) onward
                refine ⟨fit', e :: ran, ?_, among.cons_cons e, ?_⟩
                · exact .think (fit.program.symm ▸ thinks) used read function executed passed
                · rw [counted, List.length_cons, Nat.add_assoc, Nat.add_comm 1]

theorem runThink_unrun {s : Session} (absent : s.machine.program.fields.think = none) (e : EntityIndex) :
    runThink e s = (.ok true, s) := by
  rw [runThink, get_bind, absent]
  rfl

theorem runThinks_unrun (absent : s.machine.program.fields.think = none)
    {records : List EntityIndex} {count total : Nat}
    (returned : runThinks nextthink deadline records count s = (.ok total, last)) :
    last = s ∧ total = count + records.countP fun e => decide (Due nextthink deadline e s) := by
  induction records generalizing count with
  | nil =>
      cases returned
      exact ⟨rfl, rfl⟩
  | cons e rest ih =>
      rcases runThinks_cons returned with ⟨waits, onward⟩ | ⟨due, still, t, thought, onward⟩
      · rw [List.countP_cons_of_neg (by simpa using waits)]
        exact ih onward
      · rw [runThink_unrun absent] at thought
        cases thought
        obtain ⟨same, counted⟩ := ih onward
        rw [List.countP_cons_of_pos (by simpa using due)]
        exact ⟨same, by rw [counted]; omega⟩

end Records

/-! ## The count -/

def thinking (s : Session) (deadline : Single) : Play Nat :=
  match s.machine.program.fields.nextthink with
  | some nextthink => runThinks nextthink deadline s.machine.entities.live 0
  | none => pure 0

def closing (deadline : Single) (count : Nat) : Play Nat := do
  Room.checkCount ((← get).frame.toNat + 1)
  modify fun s => { s with frame := s.frame + 1 }
  setTime deadline
  return count

theorem runFrame_eq (frametime : Single) (s : Session) :
    runFrame frametime s =
      (s.thinking (s.time + frametime) >>= closing (s.time + frametime)) s := by
  rw [runFrame, get_bind, thinking]
  cases s.machine.program.fields.nextthink <;> rfl

theorem closing_ok {program : Program} {natives : Natives} {last s' : Session} (fit : last.Fit program natives)
    {deadline : Single} {count total : Nat} (returned : closing deadline count last = (.ok total, s')) :
    total = count ∧ s' = last.advanced deadline := by
  have next : ({ last with frame := last.frame + 1 } : Session).Fit program natives :=
    ⟨fit.sound, fit.program, fit.natives⟩
  rw [closing, get_bind] at returned
  cases counts : Room.checkCount (last.frame.toNat + 1) with
  | error stop =>
      rw [counts] at returned
      cases returned
  | ok _ =>
      rw [counts, ok_bind] at returned
      have ends := (setTime_apply next deadline count).symm.trans returned
      cases ends
      exact ⟨rfl, rfl⟩

theorem Ran.unable {s t : Session} {records : List EntityIndex} (ran : Ran s records t)
    (absent : s.machine.program.fields.think = none) : records = [] ∧ t = s := by
  cases ran with
  | refl => exact ⟨rfl, rfl⟩
  | think thinks =>
      rw [thinks.think] at absent
      cases absent

/-- A frame that returns has run the think functions of some of the records that were in use, one after the other,
and moved the clock. Its count is of these records, unless the program schedules thinks and has no think
functions: then nothing was run, and the count is of the records that are due. -/
theorem runFrame_counts {s s' : Session} {frametime : Single} {count : Nat} (sound : s.machine.Sound)
    (keep : s.natives.KeepSound) (returned : runFrame frametime s = (.ok count, s')) :
    ∃ records last, Ran s records last ∧ records.Sublist s.machine.entities.live ∧
      s' = last.advanced (s.time + frametime) ∧
      ((s.machine.program.fields.nextthink.isSome → s.machine.program.fields.think.isSome) →
        count = records.length) ∧
      (∀ nextthink, s.machine.program.fields.nextthink = some nextthink →
        s.machine.program.fields.think = none → records = [] ∧
          count = s.machine.entities.live.countP fun e => decide (Due nextthink (s.time + frametime) e s)) := by
  have fit : s.Fit s.machine.program s.natives := ⟨sound, rfl, rfl⟩
  rw [runFrame_eq, bind_apply] at returned
  cases thought : s.thinking (s.time + frametime) s with
  | mk result last =>
      rw [thought] at returned
      cases result with
      | error stop => cases returned
      | ok total =>
          rw [thinking] at thought
          cases next : s.machine.program.fields.nextthink with
          | none =>
              rw [next] at thought
              cases thought
              obtain ⟨rfl, rfl⟩ := closing_ok fit returned
              exact ⟨[], s, .refl s, List.nil_sublist _, rfl, fun _ => rfl, nofun⟩
          | some nextthink =>
              rw [next] at thought
              simp only at thought
              cases first : s.machine.program.fields.think with
              | none =>
                  obtain ⟨rfl, counted⟩ := runThinks_unrun first thought
                  obtain ⟨rfl, rfl⟩ := closing_ok fit returned
                  refine ⟨[], _, .refl _, List.nil_sublist _, rfl, fun both => (nomatch both rfl), ?_⟩
                  rintro _ ⟨⟩ -
                  exact ⟨rfl, by rw [counted, Nat.zero_add]⟩
              | some think =>
                  obtain ⟨fit, records, ran, among, counted⟩ := runThinks_ran keep ⟨first, next⟩ fit thought
                  obtain ⟨rfl, rfl⟩ := closing_ok fit returned
                  refine ⟨records, last, ran, among, rfl, fun _ => ?_, nofun⟩
                  rw [counted, Nat.zero_add]

theorem runFrame_counts_haunted :
    hauntedStart.machine.Sound ∧ hauntedStart.natives.KeepSound ∧ ∃ s',
      runFrame ⟨0x3dcccccd⟩ hauntedStart = (.ok 2, s') ∧ ∃ records last,
        Ran hauntedStart records last ∧ records.length = 2 := by
  have keep : hauntedStart.natives.KeepSound := Natives.reference_keepSound
  have count : (runFrame ⟨0x3dcccccd⟩ hauntedStart).1.toOption = some 2 := by decide +kernel
  refine ⟨hauntedStart_sound, keep, (runFrame ⟨0x3dcccccd⟩ hauntedStart).2, ?_⟩
  cases outcome : runFrame ⟨0x3dcccccd⟩ hauntedStart with
  | mk result s' =>
      rw [outcome] at count
      cases result with
      | error stop => cases count
      | ok total =>
          cases count
          obtain ⟨records, last, ran, -, -, counted, -⟩ := runFrame_counts hauntedStart_sound keep outcome
          exact ⟨rfl, records, last, ran, (counted fun _ => rfl).symm⟩

/-- A program that schedules thinks and has no think functions. -/
def drowsyImage : Image where
  statements := #[⟨0, 0, 0, 0⟩]
  functions := #[{}]
  globals := Array.replicate 28 ⟨0⟩
  strings := { StringPool.empty with data := "\x00nextthink\x00" }
  fieldDefs := #[⟨.float, 0, ⟨1⟩, false⟩]
  entityFields := 1

theorem drowsyImage_fields : drowsyImage.systemFields = { nextthink := some 0 } := by
  have nextthink : drowsyImage.strings.resolve ⟨1⟩ = "nextthink" :=
    StringPool.resolve_stored "\x00" "" rfl rfl (by simp [StringPool.Plain])
  have defs : drowsyImage.fieldDefs = #[⟨.float, 0, ⟨1⟩, false⟩] := rfl
  simp [Image.systemFields, SystemFields.resolve, Image.findField?, Image.definitionName, defs, nextthink]

def drowsy : Program where
  image := drowsyImage
  globals := {}
  fields := { nextthink := some 0 }
  sound := by decide +kernel
  globals_eq := rfl
  fields_eq := drowsyImage_fields.symm

def drowsyStart : Session := stocked drowsy 2 [⟨0⟩, ⟨0x3d4ccccd⟩]

theorem drowsyStart_sound : drowsyStart.machine.Sound := by
  refine ⟨rfl, rfl, ?_, rfl⟩
  constructor <;> decide +kernel

/-- A frame counts a think, and no think function can have run. -/
theorem runFrame_counts_unrun :
    drowsyStart.machine.Sound ∧ (runFrame ⟨0x3dcccccd⟩ drowsyStart).1.toOption = some 1 ∧
      ∀ records last, Ran drowsyStart records last → records = [] :=
  ⟨drowsyStart_sound, by decide +kernel, fun _ _ ran => (ran.unable rfl).1⟩

end Session
end EntityMachine
