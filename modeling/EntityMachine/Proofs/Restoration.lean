import EntityMachine.Proofs.Executions
import EntityMachine.Proofs.PoolIndex
import EntityMachine.Proofs.Sessions
import EntityMachine.Proofs.SnapshotBytes

/-!
Snapshots restored from bytes. A snapshot comes back from its bytes bit for bit, the index of its
strings included, and a session of a program with the same segment and records takes it back. The
session that it was taken from is one of these, whatever it did since.
-/
namespace EntityMachine

/-- Equal bit for bit; two indexes are equal if they hold the same entries. -/
structure Snapshot.Same (s other : Snapshot) : Prop where
  time : s.time = other.time
  frame : s.frame = other.frame
  globals : s.globals = other.globals
  entities : s.entities = other.entities
  data : s.strings.data = other.strings.data
  ringBase : s.strings.ringBase = other.strings.ringBase
  cursor : s.strings.cursor = other.strings.cursor
  index : s.strings.index.Equiv other.strings.index

theorem StringPool.Rows.sized {p : StringPool} {before after : List String} {ring : String}
    (rows : Rows p before ring after) (text : p.size < 2 ^ 32) : p.Sized where
  text := text
  ringBase := by
    intro base given
    have there := rows.ringAt
    rw [Option.mem_def.mp given] at there
    exact there.2.1
  cursor := Nat.lt_trans rows.cursor (by decide)

namespace Session
open Machine

def setBack (snapshot : Snapshot) (session : Session) : Session :=
  { session with
    machine := { session.machine with
      globals := snapshot.globals, entities := snapshot.entities, strings := snapshot.strings }
    time := snapshot.time
    frame := snapshot.frame }

theorem restore_setBack (snapshot : Snapshot) (session : Session)
    (segment : session.machine.program.image.globals.size = snapshot.globals.size)
    (layout : session.machine.program.layout = snapshot.entities.layout) :
    restore snapshot session = (.ok (), setBack snapshot session) := by
  -- The only two things that can refuse a snapshot are the two that the session agrees on.
  have fits := (checkState_iff session.machine.program snapshot.globals snapshot.entities).mpr
    ⟨segment.symm, layout.symm⟩
  have replaced := replaceState_apply snapshot.globals snapshot.entities snapshot.strings session.machine
  rw [fits] at replaced
  rw [restore, Run.bind_apply, onMachine, replaced]
  rfl

theorem restore_apply (snapshot : Snapshot) (session : Session)
    (segment : session.machine.program.image.globals.size = snapshot.globals.size)
    (layout : session.machine.program.layout = snapshot.entities.layout) :
    ∃ after, restore snapshot session = (.ok (), after) ∧ after.snapshot = snapshot :=
  ⟨_, restore_setBack snapshot session segment layout, rfl⟩

/-- Restoring the one snapshot succeeds, and the session's own is then the same as the other. -/
def Resumes (session : Session) (restored s : Snapshot) : Prop :=
  ∃ after, restore restored session = (.ok (), after) ∧ after.snapshot.Same s

end Session

/-- A snapshot whose strings were stored one by one comes back from its bytes the same. Every session
whose program has its segment length and its records can be set back to it; so can a session that it
was taken from, after whatever that session did. -/
theorem Snapshot.restores_exactly (s : Snapshot) (reachable : s.strings.Reachable)
    (globals : s.globals.size < 2 ^ 32) (entities : s.entities.Sized) (text : s.strings.size < 2 ^ 32) :
    ∃ restored, decode s.encode = .ok restored ∧ restored.Same s ∧
      (∀ session : Session, session.machine.program.image.globals.size = s.globals.size →
        session.machine.program.layout = s.entities.layout → session.Resumes restored s) ∧
      ∀ (program : Program) (natives : Natives) (config : MachineConfig) (created origin later : Session),
        natives.KeepForm → Session.create program natives config = .ok created →
          Session.History created origin → origin.snapshot = s → Session.History origin later →
            later.Resumes restored s := by
  obtain ⟨before, ring, after, rows⟩ := StringPool.reachable_rows reachable
  have same : Snapshot.Same { s with strings := s.strings.reindex } s :=
    ⟨rfl, rfl, rfl, rfl, rfl, rfl, rfl, rows.reindexed⟩
  have resumes (session : Session)
      (segment : session.machine.program.image.globals.size = s.globals.size)
      (layout : session.machine.program.layout = s.entities.layout) :
      session.Resumes { s with strings := s.strings.reindex } s := by
    obtain ⟨resumed, restored, taken⟩ :=
      session.restore_apply { s with strings := s.strings.reindex } segment layout
    refine ⟨resumed, restored, ?_⟩
    rw [taken]
    exact same
  refine ⟨_, decode_encode globals entities (rows.sized text), same, resumes, ?_⟩
  -- Both sessions run the program they were created with, so their forms are equal.
  rintro program natives config created origin later keep make first rfl second
  have origin_runs := first.runs keep (Session.create_runs make)
  have later_runs := second.runs keep origin_runs
  have later_program : later.machine.program = program := congrArg Form.program later_runs.form
  refine resumes later ?_ ?_
  · rw [later_program]
    exact (congrArg Form.segment origin_runs.form).symm
  · rw [later_program]
    exact (congrArg Form.layout origin_runs.form).symm

namespace Snapshot

def ringed : StringPool :=
  { StringPool.empty with
    data := "\x00" ++ StringPool.slotText "ok" ++
      StringPool.nuls (StringPool.ringBytes - StringPool.slotBytes)
    ringBase := some 1
    cursor := 1 }

def unusual : Snapshot where
  time := ⟨0x7fc00001⟩
  frame := 0xffffffffffffffff
  globals := ⟨Array.replicate 32 ⟨0xffffffff⟩⟩
  entities := .create Execution.retrying.layout { capacity := 2, hysteresis := ⟨0xff800001⟩ }
  strings := ringed

theorem restores_exactly_ringed :
    let session := Session.ofMachine (.create Execution.retrying {}) .empty
    unusual.strings.Reachable ∧ unusual.globals.size < 2 ^ 32 ∧ unusual.entities.Sized ∧
      unusual.strings.size < 2 ^ 32 ∧
      ∃ restored, decode unusual.encode = .ok restored ∧ restored.Same unusual ∧
        session.Resumes restored unusual := by
  intro session
  have stored : StringPool.empty.temporary? "ok" = some (⟨1⟩, ringed) :=
    StringPool.temporary?_first rfl rfl (by decide) (by simp [StringPool.Plain]) (by decide)
  have reachable : unusual.strings.Reachable := .temporary .empty stored
  have entities : unusual.entities.Sized := by constructor <;> decide +kernel
  have text : unusual.strings.size < 2 ^ 32 := by
    have whole : unusual.strings.size = 1 + StringPool.slotBytes +
        (StringPool.ringBytes - StringPool.slotBytes) := by
      simp only [StringPool.size, unusual, ringed, String.utf8ByteSize_append, StringPool.slotText_size,
        StringPool.nuls_size]
      rfl
    rw [whole]
    decide
  obtain ⟨restored, decoded, same, resumes, -⟩ :=
    restores_exactly unusual reachable (by decide +kernel) entities text
  exact ⟨reachable, by decide +kernel, entities, text, restored, decoded, same, resumes session rfl rfl⟩

end Snapshot
end EntityMachine
