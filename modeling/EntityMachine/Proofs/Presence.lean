import EntityMachine.Proofs.AllocationPolicy
import EntityMachine.Proofs.Frames

/-!
Presence through a frame. Records change hands one at a time: one is given back, which is noted for the
spatial index, or one is handed out, which the policy chooses. So a record that was in use when a frame
started and was not noted since has been in use all the time, and one that was noted and thinks all the
same was chosen by the policy in between.
-/
namespace EntityMachine
open Machine Run

namespace Entities

/-- How a later table comes about from one, with the records that are given back on the way. -/
inductive Traffic (start : Entities) : Array EntityIndex → Entities → Prop where
  | refl : Traffic start #[] start
  | written {dropped : Array EntityIndex} {t t' : Entities} :
      Traffic start dropped t → t'.outline = t.outline → Traffic start dropped t'
  | handed {dropped : Array EntityIndex} {t : Entities} {now : Single} {i : Nat} :
      Traffic start dropped t → t.candidate now = .ok i → Traffic start dropped (t.take i)
  | returned {dropped : Array EntityIndex} {t : Entities} {now : Single} {e : EntityIndex} :
      Traffic start dropped t → t.checkFreeable e = .ok () →
        Traffic start (dropped.push e) (t.retire e now)

/-- A record that is given back, chosen by the policy later, and not given back again. -/
inductive Reissued (start : Entities) (e : EntityIndex) : Array EntityIndex → Entities → Prop where
  | intro {past rest : Array EntityIndex} {t last : Entities} {now : Single} :
      start.Traffic past t → e ∈ past → t.Chosen now e.toNat →
        (t.take e.toNat).Traffic rest last → e ∉ rest → Reissued start e (past ++ rest) last

theorem freeable_inside {t : Entities} {e : EntityIndex} (fine : t.checkFreeable e = .ok ()) :
    e.toNat < t.size := by
  unfold checkFreeable at fine
  split at fine
  · cases fine
  · split at fine
    · cases fine
    · rename_i known
      exact Nat.lt_of_not_le known

theorem candidate_inside {t : Entities} {now : Single} {i : Nat} (chosen : t.candidate now = .ok i) :
    i ≤ t.size := by
  rcases candidate_some chosen with ⟨-, free⟩ | ⟨last, -⟩
  · exact Nat.le_of_lt free.inside
  · exact Nat.le_of_eq last

namespace Traffic
variable {start t t' : Entities} {dropped later : Array EntityIndex} {e : EntityIndex}

theorem trans (first : start.Traffic dropped t) (second : t.Traffic later t') :
    start.Traffic (dropped ++ later) t' := by
  induction second with
  | refl => rwa [Array.append_empty]
  | written _ same ih => exact ih.written same
  | handed _ chosen ih => exact ih.handed chosen
  | returned _ fine ih =>
      rw [Array.append_push]
      exact ih.returned fine

theorem wellFormed (traffic : start.Traffic dropped t) (well : start.WellFormed) : t.WellFormed := by
  induction traffic with
  | refl => exact well
  | written _ same ih => exact ih.of_outline same
  | handed _ chosen ih =>
      obtain ⟨-, -, inside, room⟩ := candidate_place ih chosen
      exact take_wellFormed ih inside room
  | returned _ _ ih => exact retire_wellFormed ih _ _

theorem present (traffic : start.Traffic dropped t) (used : start.InUse e.toNat) (kept : e ∉ dropped) :
    t.InUse e.toNat := by
  induction traffic with
  | refl => exact used
  | written _ same ih => exact (inUse_of_outline same _).mpr (ih kept)
  | handed _ chosen ih => exact (take_inUse (candidate_inside chosen) _).mpr (.inr (ih kept))
  | returned _ fine ih =>
      rw [Array.mem_push, not_or] at kept
      refine (retire_inUse _ (freeable_inside fine) _).mpr ⟨fun same => ?_, ih kept.1⟩
      exact kept.2 (congrArg EntityIndex.mk (UInt32.toNat_inj.mp same))

/-- A record that was given back and is in use was chosen by the policy after that. -/
theorem reissued (traffic : start.Traffic dropped t) (well : start.WellFormed) (given : e ∈ dropped)
    (used : t.InUse e.toNat) : start.Reissued e dropped t := by
  induction traffic with
  | refl => cases Array.not_mem_empty e given
  | written _ same ih =>
      obtain ⟨first, back, chosen, onward, kept⟩ := ih given ((inUse_of_outline same _).mp used)
      exact .intro first back chosen (onward.written same) kept
  | @handed dropped t now i before chosen ih =>
      rcases (take_inUse (candidate_inside chosen) _).mp used with rfl | used
      · rcases candidate_chosen (before.wellFormed well) now with ⟨i, again, policy⟩ | ⟨refused, -⟩
        · cases chosen.symm.trans again
          have whole : start.Reissued e (dropped ++ #[]) (t.take e.toNat) :=
            .intro before given policy .refl (Array.not_mem_empty e)
          rwa [Array.append_empty] at whole
        · cases chosen.symm.trans refused
      · obtain ⟨first, back, policy, onward, kept⟩ := ih given used
        exact .intro first back policy (onward.handed chosen) kept
  | @returned dropped t now e' before fine ih =>
      obtain ⟨other, used⟩ := (retire_inUse now (freeable_inside fine) _).mp used
      have apart : e ≠ e' := fun same => other (congrArg EntityIndex.toNat same)
      have earlier : e ∈ dropped := (Array.mem_push.mp given).resolve_right apart
      obtain ⟨first, back, policy, onward, kept⟩ := ih earlier used
      rw [← Array.append_push]
      refine .intro first back policy (onward.returned fine) fun member => ?_
      exact (Array.mem_push.mp member).elim kept apart

end Traffic
end Entities

/-- Since then these records were given back, in this order. -/
structure Machine.Since (start : Machine) (dropped : Array EntityIndex) (m : Machine) : Prop where
  noted : m.unlinked = start.unlinked ++ dropped
  traffic : start.entities.Traffic dropped m.entities

namespace Machine
variable {start m m' : Machine} {dropped : Array EntityIndex}

theorem since_refl (m : Machine) : m.Since #[] m := ⟨Array.append_empty.symm, .refl⟩

theorem Since.trans {later : Array EntityIndex} (first : start.Since dropped m)
    (second : m.Since later m') : start.Since (dropped ++ later) m' := by
  refine ⟨?_, first.traffic.trans second.traffic⟩
  rw [second.noted, first.noted, Array.append_assoc]

theorem Since.of_durable (since : start.Since dropped m) (same : m'.durable = m.durable) :
    start.Since dropped m' := by
  refine ⟨?_, since.traffic.written (congrArg Durable.entities same)⟩
  rw [← since.noted]
  exact congrArg Durable.unlinked same

theorem Since.retire (since : start.Since dropped m) {e : EntityIndex} (now : Single)
    (fine : m.entities.checkFreeable e = .ok ()) :
    start.Since (dropped.push e)
      { m with unlinked := m.unlinked.push e, entities := m.entities.retire e now } := by
  refine ⟨?_, since.traffic.returned fine⟩
  rw [Array.append_push, since.noted]

end Machine

theorem Reference.since_tolerates (start : Machine) :
    Tolerates (fun _ => True) fun m => ∃ dropped, start.Since dropped m where
  globals := fun m _ same ⟨dropped, since⟩ => ⟨dropped, since.of_durable (m.durable_of_globals same)⟩
  strings := fun _ _ _ _ _ ⟨dropped, since⟩ => ⟨dropped, since.noted, since.traffic⟩
  lost := fun _ _ ⟨dropped, since⟩ => ⟨dropped, since.noted, since.traffic⟩
  output := fun _ _ ⟨dropped, since⟩ => ⟨dropped, since.noted, since.traffic⟩
  random := fun _ _ ⟨dropped, since⟩ => ⟨dropped, since.noted, since.traffic⟩
  tracing := fun _ _ ⟨dropped, since⟩ => ⟨dropped, since.noted, since.traffic⟩
  taken := fun _ _ _ chosen ⟨dropped, since⟩ => ⟨dropped, since.noted, since.traffic.handed chosen⟩
  retired := fun _ now _ fine ⟨_, since⟩ => ⟨_, since.retire now fine⟩

namespace Machine

theorem execute_since (nesting : Nat) (id : FunctionId) (m : Machine) :
    ∃ dropped, m.Since dropped (execute .reference nesting id m).2 := by
  have preserve : Natives.reference.Preserve (fun _ => True) fun (start : Machine) d =>
      ∀ m : Machine, m.durable = d → ∃ dropped, start.Since dropped m := by
    intro number f reenter known _ start m holds quiet m' same
    obtain ⟨dropped, since⟩ := Natives.reference_preserves (Reference.since_tolerates start) known reenter m
      (holds m rfl) quiet
    exact ⟨dropped, since.of_durable same⟩
  refine execute_preserves (fun _ => trivial) preserve nesting id m m ?_ (fun _ _ => trivial) _ rfl
  intro m' same
  exact ⟨#[], m.since_refl.of_durable same⟩

end Machine

namespace Session
variable {think nextthink : UInt16} {deadline : Single}

theorem Turn.Fair.since {turn : Turn} (fair : turn.Fair think nextthink deadline)
    (natives : turn.before.natives = .reference) :
    turn.after.natives = .reference ∧ ∃ dropped, turn.before.machine.Since dropped turn.after.machine := by
  cases thinks : turn.thinks with
  | false =>
      rw [(fair.rests thinks).1]
      exact ⟨natives, #[], since_refl _⟩
  | true =>
      obtain ⟨cell, ready, -, found, ran⟩ := fair.runs thinks
      have after : turn.after = (execute cell.function ready).2 := (congrArg Prod.snd ran).symm
      have same : ready.natives = .reference := found.natives.trans natives
      rw [after, execute_apply, same]
      obtain ⟨dropped, since⟩ := execute_since nestingBound cell.function ready.machine
      have start : turn.before.machine.Since #[] ready.machine := (since_refl _).of_durable found.durable
      exact ⟨rfl, _, start.trans since⟩

theorem Chained.since {s last : Session} {turns : List Turn} (chained : Chained s turns last)
    (fair : ∀ turn ∈ turns, turn.Fair think nextthink deadline) (natives : s.natives = .reference) :
    ∀ earlier turn later, turns = earlier ++ turn :: later →
      ∃ dropped, s.machine.Since dropped turn.before.machine ∧
        ∀ e, s.machine.entities.InUse e.toNat → e ∉ dropped → ∀ t ∈ earlier,
          t.before.machine.entities.InUse e.toNat ∧ t.after.machine.entities.InUse e.toNat := by
  induction turns generalizing s with
  | nil => simp
  | cons first rest ih =>
      obtain ⟨rfl, onward⟩ := chained
      obtain ⟨first_fair, fair⟩ := List.forall_mem_cons.mp fair
      obtain ⟨natives, dropped, since⟩ := first_fair.since natives
      intro earlier turn later split
      cases earlier with
      | nil =>
          cases split
          exact ⟨#[], since_refl _, by simp⟩
      | cons t earlier =>
          cases split
          obtain ⟨more, until_turn, kept⟩ := ih onward fair natives earlier turn later rfl
          refine ⟨dropped ++ more, since.trans until_turn, fun e used spared => ?_⟩
          rw [Array.mem_append, not_or] at spared
          have after := since.traffic.present used spared.1
          exact List.forall_mem_cons.mpr ⟨⟨used, after⟩, kept e after spared.2⟩

theorem Due.inUse {e : EntityIndex} {s : Session} (due : Due nextthink deadline e s) :
    s.machine.entities.InUse e.toNat := by
  obtain ⟨used, scheduled, read, -⟩ := due
  have found := Array.getElem?_eq_getElem (single_known read)
  refine ⟨_, found, ?_⟩
  rw [Entities.isFree, Entities.state?, found] at used
  exact used

/-- A frame wakes only records that were in use when it started. One that was not given back since has been
in use before and after every turn; one that was given back was handed out again where the policy chose it. -/
theorem runFrame_wakes_present {s : Session} (sound : s.machine.Sound) (natives : s.natives = .reference)
    (thinks : Thinks s.machine.program think nextthink) (frametime : Single) :
    ∃ turns last, Framed think nextthink frametime s turns last ∧
      ∀ earlier turn later, turns = earlier ++ turn :: later → turn.thinks = true →
        s.machine.entities.InUse turn.entity.toNat ∧
          ∃ dropped, turn.before.machine.unlinked = s.machine.unlinked ++ dropped ∧
            (turn.entity ∉ dropped → ∀ t ∈ earlier, t.before.machine.entities.InUse turn.entity.toNat ∧
              t.after.machine.entities.InUse turn.entity.toNat) ∧
            (turn.entity ∈ dropped →
              s.machine.entities.Reissued turn.entity dropped turn.before.machine.entities) := by
  have keep : s.natives.KeepSound := natives ▸ Natives.reference_keepSound
  obtain ⟨turns, last, result, schedule, paused, closes, fit, runs⟩ :=
    live_turns sound keep thinks (s.time + frametime)
  have framed := framed_of_turns sound thinks.nextthink schedule paused closes fit runs
  refine ⟨turns, last, framed, fun earlier turn later split woken => ?_⟩
  have member : turn ∈ turns := by rw [split]; simp
  have used : s.machine.entities.InUse turn.entity.toNat := schedule.started turn member
  have present := ((schedule.fair turn member).decided.mp woken).inUse
  obtain ⟨dropped, since, kept⟩ :=
    schedule.chained.since schedule.fair natives earlier turn later split
  exact ⟨used, dropped, since.noted, kept turn.entity used,
    fun given => since.traffic.reissued sound.entities given present⟩

theorem runFrame_wakes_present_haunted :
    let s := hauntedStart
    s.machine.Sound ∧ s.natives = .reference ∧ Thinks s.machine.program 0 1 ∧
      ∃ turns last, Framed 0 1 ⟨0x3dcccccd⟩ s turns last ∧
        ∀ earlier turn later, turns = earlier ++ turn :: later → turn.thinks = true →
          s.machine.entities.InUse turn.entity.toNat ∧
            ∃ dropped, turn.before.machine.unlinked = s.machine.unlinked ++ dropped ∧
              (turn.entity ∉ dropped → ∀ t ∈ earlier, t.before.machine.entities.InUse turn.entity.toNat ∧
                t.after.machine.entities.InUse turn.entity.toNat) ∧
              (turn.entity ∈ dropped →
                s.machine.entities.Reissued turn.entity dropped turn.before.machine.entities) := by
  have thinks : Thinks hauntedStart.machine.program 0 1 := ⟨rfl, rfl⟩
  exact ⟨hauntedStart_sound, rfl, thinks, runFrame_wakes_present hauntedStart_sound rfl thinks ⟨0x3dcccccd⟩⟩

/-- The turn before that of record 2 gave it back and was handed it again, and it thinks in the same frame. -/
theorem runFrame_wakes_reborn :
    let deadline := hauntedStart.time + ⟨0x3dcccccd⟩
    let later := (runThinks 1 deadline [⟨0⟩, ⟨1⟩] 0 hauntedStart).2
    hauntedStart.machine.entities.live = [⟨0⟩, ⟨1⟩, ⟨2⟩] ∧ hauntedStart.machine.unlinked = #[] ∧
      later.machine.unlinked = #[⟨2⟩] ∧ later.machine.entities.isFree ⟨2⟩ = false ∧
        (runThinks 1 deadline [⟨2⟩] 0 later).1.toOption = some 1 ∧
          (runFrame ⟨0x3dcccccd⟩ hauntedStart).1.toOption = some 2 := by
  decide +kernel

end Session
end EntityMachine
