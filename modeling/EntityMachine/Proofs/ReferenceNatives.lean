import EntityMachine.Natives
import EntityMachine.Proofs.Invariants
import EntityMachine.Proofs.NativeDiscipline
import EntityMachine.Proofs.Ownership

/-!
The reference native functions. Each is put together from a few operations on the machine, so whatever
tolerates these operations holds across all of them; none runs program functions again.
-/
namespace EntityMachine
open Machine Run

/-! ## Operations on records -/

namespace Machine

theorem allocateEntity_apply (m : Machine) : allocateEntity m =
    match (do m.entities.candidate (← m.time) : Outcome Nat) with
    | .ok i => if m.entities.hasCells i then (.ok (.ofNat i), { m with entities := m.entities.take i })
      else (.error .fault, m)
    | .error stop => (.error stop, m) := by
  unfold allocateEntity
  rw [get_bind]
  cases m.time with
  | error stop => rfl
  | ok now =>
      rw [ok_bind, Outcome.ok_bind]
      cases m.entities.candidate now with
      | error stop => rfl
      | ok i =>
          simp only [ok_bind]
          cases m.entities.hasCells i <;> rfl

theorem freeEntity_apply (m : Machine) (e : EntityIndex) : freeEntity e m =
    match (do let now ← m.time; m.entities.checkFreeable e; return now : Outcome Single) with
    | .ok now => if m.entities.hasClearings e then
        (.ok (), { m with unlinked := m.unlinked.push e, entities := m.entities.retire e now })
      else (.error .fault, m)
    | .error stop => (.error stop, m) := by
  unfold freeEntity
  rw [get_bind]
  cases m.time with
  | error stop => rfl
  | ok now =>
      rw [ok_bind, Outcome.ok_bind]
      cases m.entities.checkFreeable e with
      | error stop => rfl
      | ok fine =>
          simp only [ok_bind]
          cases m.entities.hasClearings e <;> rfl

end Machine

/-! ## The table -/

theorem Natives.lookup_foldl (rows : List (Nat × String × Run Unit)) (natives : Natives) (n : Nat)
    (f : Native)
    (known : (rows.foldl (fun t (number, name, run) => t.register number { name, run := fun _ => run })
      natives).lookup n = .ok f) :
    natives.lookup n = .ok f ∨ ∃ row ∈ rows, f = { name := row.2.1, run := fun _ => row.2.2 } := by
  induction rows generalizing natives with
  | nil => exact .inl known
  | cons row rest ih =>
      rw [List.foldl_cons] at known
      rcases ih _ known with earlier | ⟨other, member, same⟩
      · rw [lookup_register] at earlier
        split at earlier
        · cases earlier
          exact .inr ⟨row, List.mem_cons_self, rfl⟩
        · exact .inl earlier
      · exact .inr ⟨other, List.mem_cons_of_mem row member, same⟩

theorem Natives.reference_known {n : Nat} {f : Native} (known : Natives.reference.lookup n = .ok f) :
    ∃ row ∈ Reference.catalogue, f = { name := row.2.1, run := fun _ => row.2.2 } := by
  rcases lookup_foldl Reference.catalogue .empty n f known with none | row
  · cases none
  · exact row

namespace Reference

/-- What native functions of the catalogue do to a machine leaves the invariant alone. -/
structure Tolerates (counts : Stop → Prop) (inv : Machine → Prop) : Prop where
  globals : ∀ m globals, globals.size = m.globals.size → inv m → inv { m with globals }
  strings : ∀ m text id strings, m.strings.temporary? text = some (id, strings) →
    inv m → inv { m with strings }
  lost : counts .fault → ∀ m, inv m → inv { m with strings := .empty }
  output : ∀ m output, inv m → inv { m with output }
  random : ∀ m random, inv m → inv { m with random }
  tracing : ∀ m tracing, inv m → inv { m with tracing }
  taken : ∀ m now i, m.entities.candidate now = .ok i → inv m →
    inv { m with entities := m.entities.take i }
  retired : ∀ m now e, m.entities.checkFreeable e = .ok () → inv m →
    inv { m with unlinked := m.unlinked.push e, entities := m.entities.retire e now }

section Tolerates
variable {counts : Stop → Prop} {inv : Machine → Prop} (tolerates : Tolerates counts inv)
include tolerates

theorem write_preserves (offset : Nat) (cells : Array Cell) :
    (write offset cells).Preserves counts inv := by
  intro m holds _
  rw [write_apply]
  split
  · exact tolerates.globals m _ (Segment.overwrite_size _ _ _) holds
  · exact holds

theorem giveText_preserves (text : String) : (giveText text).Preserves counts inv := by
  refine preserves_bind (fun m holds quiet => ?_) fun id => write_preserves tolerates _ _
  rw [temporary, changeStrings_apply] at quiet ⊢
  cases stored : m.strings.temporary? text with
  | some changed => exact tolerates.strings m text changed.1 changed.2 stored holds
  | none =>
      rw [stored] at quiet
      exact tolerates.lost (quiet .fault rfl) m holds

theorem allocateEntity_preserves : allocateEntity.Preserves counts inv := by
  intro m holds _
  rw [allocateEntity_apply]
  cases m.time with
  | error stop => exact holds
  | ok now =>
      rw [Outcome.ok_bind]
      cases chosen : m.entities.candidate now with
      | error stop => exact holds
      | ok i =>
          simp only
          split
          · exact tolerates.taken m now i chosen holds
          · exact holds

theorem freeEntity_preserves (e : EntityIndex) : (freeEntity e).Preserves counts inv := by
  intro m holds _
  rw [freeEntity_apply]
  cases m.time with
  | error stop => exact holds
  | ok now =>
      rw [Outcome.ok_bind]
      cases checked : m.entities.checkFreeable e with
      | error stop => exact holds
      | ok fine =>
          simp only [Outcome.ok_bind, Outcome.pure_eq]
          split
          · exact tolerates.retired m now e checked holds
          · exact holds

theorem print_preserves (text : String) : (print text).Preserves counts inv :=
  preserves_modify fun m holds => tolerates.output m _ holds

theorem dump_preserves (e : EntityIndex) : (dump e).Preserves counts inv := by
  refine preserves_get fun m => ?_
  cases Listing.entityText m.program.image m.strings m.entities e with
  | ok text => exact print_preserves tolerates _
  | error stop =>
      cases stop with
      | error e => exact print_preserves tolerates _
      | fault => exact preserves_throw _
      | nestedTooDeep => exact preserves_throw _

omit tolerates in
theorem joinedArguments_preserves : joinedArguments.Preserves counts inv := by
  refine preserves_get fun m => preserves_bind ?_ fun texts => preserves_pure _
  exact preserves_mapM (fun n => preserves_outcome _) _

theorem complain_preserves (what : String) : (complain what).Preserves counts inv := by
  refine preserves_bind joinedArguments_preserves fun message => preserves_get fun m => ?_
  refine preserves_bind (print_preserves tolerates _) fun _ => ?_
  refine preserves_bind (preserves_outcome _) fun e => ?_
  exact preserves_bind (dump_preserves tolerates e) fun _ => preserves_pure _

omit tolerates in
theorem gives_preserves {read : Machine → Outcome α} {give : α → Run Unit}
    (gives : ∀ a, (give a).Preserves counts inv) :
    (do give (← read (← get)) : Run Unit).Preserves counts inv :=
  preserves_get fun _ => preserves_bind (preserves_outcome _) gives

theorem objectError_preserves : objectError.Preserves counts inv := by
  refine preserves_bind (complain_preserves tolerates _) fun (message, e) => ?_
  dsimp only
  split
  · exact preserves_bind (freeEntity_preserves tolerates e) fun _ => preserves_throw _
  · exact preserves_throw _

theorem find_preserves : find.Preserves counts inv := by
  refine preserves_get fun m => preserves_bind (preserves_outcome _) fun field => ?_
  refine preserves_bind (preserves_outcome _) fun text => preserves_bind (preserves_outcome _) fun start => ?_
  exact preserves_bind (preserves_outcome _) fun e => write_preserves tolerates _ _

theorem catalogue_preserves : ∀ row ∈ catalogue, row.2.2.Preserves counts inv := by
  have drawn : drawUnit.Preserves counts inv := fun m holds _ => tolerates.random m _ holds
  have sets (tracing : Bool) : (setTracing tracing).Preserves counts inv :=
    preserves_modify fun m holds => tolerates.tracing m tracing holds
  have cell (c : Cell) : (giveCell c).Preserves counts inv := write_preserves tolerates _ _
  have single (f : Single → Single) : (ofSingle f).Preserves counts inv := gives_preserves fun x => cell _
  have vector (f : Vec3 → Single) : (ofVector f).Preserves counts inv := gives_preserves fun v => cell _
  have each : ∀ run ∈ catalogue.map (·.2.2), run.Preserves counts inv := by
    simp only [catalogue, List.map_cons, List.map_nil, List.forall_mem_cons]
    refine ⟨preserves_bind drawn fun x => cell _,
      gives_preserves fun v => write_preserves tolerates _ _,
      preserves_bind (complain_preserves tolerates _) fun _ => preserves_throw _,
      objectError_preserves tolerates, vector _, vector _,
      preserves_bind (allocateEntity_preserves tolerates) fun e => cell _,
      gives_preserves fun c => freeEntity_preserves tolerates c.entity, find_preserves tolerates,
      preserves_bind joinedArguments_preserves fun _ => preserves_pure (),
      gives_preserves fun x => giveText_preserves tolerates _,
      gives_preserves fun v => giveText_preserves tolerates _, ?_, sets true, sets false,
      gives_preserves fun c => dump_preserves tolerates c.entity, single _, single _, single _, single _,
      ?_, by simp⟩
    · refine preserves_get fun m => preserves_bind (preserves_outcome _) fun text => ?_
      exact print_preserves tolerates _
    · exact preserves_get fun m => preserves_bind (preserves_outcome _) fun e => cell _
  intro row member
  exact each _ (List.mem_map_of_mem member)

end Tolerates
end Reference

theorem Reference.sound_tolerates (counts : Stop → Prop) (program : Program) :
    Tolerates counts fun m => m.Sound ∧ m.program = program where
  globals := fun m _ same holds => ⟨holds.1.of_shape (m.shape_of_globals same), holds.2⟩
  strings := fun _ _ _ _ _ holds => ⟨holds.1.of_shape rfl, holds.2⟩
  lost := fun _ _ holds => ⟨holds.1.of_shape rfl, holds.2⟩
  output := fun _ _ holds => ⟨holds.1.of_shape rfl, holds.2⟩
  random := fun _ _ holds => ⟨holds.1.of_shape rfl, holds.2⟩
  tracing := fun _ _ holds => ⟨holds.1.of_shape rfl, holds.2⟩
  taken := by
    rintro m now i chosen ⟨sound, same⟩
    obtain ⟨-, -, inside, room⟩ := Entities.candidate_place sound.entities chosen
    exact ⟨⟨sound.segment, sound.layout, Entities.take_wellFormed sound.entities inside room,
      sound.profile⟩, same⟩
  retired := by
    rintro m now e - ⟨sound, same⟩
    have layout : (m.entities.retire e now).layout = m.entities.layout :=
      congrArg Entities.Outline.layout (m.entities.retire_outline e now)
    exact ⟨⟨sound.segment, layout.trans sound.layout, Entities.retire_wellFormed sound.entities e now,
      sound.profile⟩, same⟩

theorem Natives.reference_preserves {counts : Stop → Prop} {inv : Machine → Prop}
    (tolerates : Reference.Tolerates counts inv) {number : Nat} {f : Native}
    (known : Natives.reference.lookup number = .ok f) (reenter : FunctionId → Run Unit) :
    (f.run reenter).Preserves counts inv := by
  obtain ⟨row, member, rfl⟩ := reference_known known
  exact Reference.catalogue_preserves tolerates row member

theorem Natives.reference_keepSound : Natives.reference.KeepSound := by
  intro number f reenter known _ program m holds quiet
  have kept := reference_preserves (Reference.sound_tolerates Stop.Reported program) known reenter m
    ⟨m.durable_sound.mp holds.1, holds.2⟩ quiet
  exact ⟨(durable_sound _).mpr kept.1, kept.2⟩

end EntityMachine
