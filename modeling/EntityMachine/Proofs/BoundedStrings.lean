import EntityMachine.Proofs.PoolHistories
import EntityMachine.Proofs.RestoredState
import EntityMachine.Proofs.Watching

/-!
The strings of a long session. The reference functions store short-lived texts and no others, so the pool
of a session grows once at most, by the ring, and the texts of its program stay where they are.
-/
namespace EntityMachine
open Machine Run

namespace StringPool

/-- What becomes of a pool as short-lived texts are stored. -/
inductive Lends (p : StringPool) : StringPool → Prop
  | refl : Lends p p
  | temporary {q q' : StringPool} {text : String} {id : StringId} :
      Lends p q → q.temporary? text = some (id, q') → Lends p q'

theorem Lends.grows {p q : StringPool} (lent : p.Lends q) : p.Grows q := by
  induction lent with
  | refl => exact .refl
  | temporary _ stored ih => exact .temporary ih stored

theorem Lends.rows {p q : StringPool} {before slots after : List String}
    (rows : Rows p before (slotRow slots) after) (lent : p.Lends q) :
    ∃ before' slots' after', Rows q before' (slotRow slots') after' ∧
      before' ++ after' = before ++ after := by
  induction lent with
  | refl => exact ⟨before, slots, after, rows, rfl⟩
  | temporary _ stored ih =>
      obtain ⟨front, held, back, rows, same⟩ := ih
      obtain ⟨-, front', held', back', rows', placed⟩ := temporary_rows rows stored
      refine ⟨front', held', back', rows', ?_⟩
      rcases placed with ⟨rfl, rfl, -⟩ | ⟨absent, rfl, rfl⟩
      · exact same
      -- A ring that is made now comes behind all the texts that there are.
      · obtain ⟨rfl, -, -⟩ := rows.unringed absent
        rw [← same, List.append_nil, List.nil_append]

theorem Rows.ring_le {p : StringPool} {before after : List String} {ring : String}
    (rows : Rows p before ring after) : ring.utf8ByteSize ≤ ringBytes := by
  have there := rows.ringAt
  cases based : p.ringBase with
  | none =>
      rw [based] at there
      rw [there.2]
      exact Nat.zero_le _
  | some base =>
      rw [based] at there
      exact Nat.le_of_eq there.2.2

/-- However many short-lived texts are stored, they cost no more than the ring. -/
theorem Lends.size_le {p q : StringPool} {before slots after : List String}
    (rows : Rows p before (slotRow slots) after) (lent : p.Lends q) : q.size ≤ p.size + ringBytes := by
  obtain ⟨front, held, back, rows', same⟩ := lent.rows rows
  have texts := congrArg (fun texts => (laidOut texts).utf8ByteSize) same
  simp only [laidOut_append, String.utf8ByteSize_append] at texts
  have ring := rows'.ring_le
  rw [rows.size_eq, rows'.size_eq]
  omega

theorem Lends.get?_eq {p q : StringPool} {before slots after : List String}
    (settled : Settled p before slots after) (unringed : p.ringBase = none) (lent : p.Lends q)
    {id : StringId} (inside : id.toNat < p.size) : q.get? id = p.get? id := by
  obtain ⟨extends_, -⟩ := lent.grows.settled settled
  refine extends_.texts id inside fun base based => ?_
  rw [unringed] at based
  cases based

end StringPool

/-! ## Sessions -/

theorem Reference.lends_tolerates (pool : StringPool) :
    Tolerates Stop.Reported fun m => pool.Lends m.strings where
  globals := fun _ _ _ lent => lent
  strings := fun _ _ _ _ stored lent => .temporary lent stored
  lost := False.elim
  output := fun _ _ lent => lent
  random := fun _ _ lent => lent
  tracing := fun _ _ lent => lent
  taken := fun _ _ _ _ lent => lent
  retired := fun _ _ _ _ lent => lent

theorem Natives.reference_lends : Natives.reference.Preserve Stop.Reported
    fun (pool : StringPool) d => pool.Lends d.strings := by
  intro number f reenter known _ pool
  exact reference_preserves (Reference.lends_tolerates pool) known reenter

namespace Session

/-- The session has the reference functions, and added none but short-lived texts to a pool. -/
structure Borrows (pool : StringPool) (s : Session) : Prop where
  strings : pool.Lends s.machine.strings
  natives : s.natives = .reference

theorem borrows_likeness (pool : StringPool) :
    Likeness Stop.Reported fun s t => t = s ∧ s.Borrows pool := by
  refine diagonal_likeness (fun s time borrows => ⟨borrows.strings, borrows.natives⟩)
    (fun s frame borrows => ⟨borrows.strings, borrows.natives⟩) (fun place value s borrows => ?_)
    (fun e field cells s borrows => ?_) fun id s borrows returned => ?_
  · have leaves : (writeSystem place value).Leaves Machine.strings :=
      writeSystem_leaves place value fun _ _ _ => rfl
    exact ⟨(leaves s.machine).symm ▸ borrows.strings, borrows.natives⟩
  · have leaves : (writeFields e field cells).Leaves Machine.strings :=
      writeFields_leaves e field cells fun _ _ _ => rfl
    exact ⟨(leaves s.machine).symm ▸ borrows.strings, borrows.natives⟩
  · rw [execute_apply, borrows.natives] at returned ⊢
    exact ⟨execute_preserves (fun _ => trivial) Natives.reference_lends nestingBound id pool s.machine
      borrows.strings returned, rfl⟩

theorem replies_borrow {pool : StringPool} {s : Session} (borrows : s.Borrows pool)
    (actions : List Action) (returned : ∀ reply ∈ (replies actions s).1, Returned reply) :
    (replies actions s).2.Borrows pool := by
  have each : ∀ play ∈ actions.map Action.reply, Agrees Stop.Reported _ play :=
    List.forall_mem_map.mpr fun action _ => reply_agrees (borrows_likeness pool) action
  exact (inTurn_agrees each ⟨rfl, borrows⟩ returned).2.2

theorem create_borrows {program : Program} {config : MachineConfig} {s : Session}
    (created : create program .reference config = .ok s) : s.Borrows program.image.strings := by
  unfold create at created
  cases reserved : Machine.reserve program config with
  | error stop =>
      rw [reserved] at created
      cases created
  | ok machine =>
      rw [reserved] at created
      cases created
      rw [reserve_eq reserved]
      exact ⟨.refl, rfl⟩

/-- A session over a program whose pool has no ring yet may call functions and run thinks and frames for as
long as it likes: its pool is never longer than the program's by more than the ring, and each offset into
the program's pool reads as it does there, or fails to as it does there. -/
theorem strings_stay_bounded {program : Program} {blank : StringPool} (fresh : StringPool.Fresh blank)
    (grown : blank.Grows program.image.strings) (unringed : program.image.strings.ringBase = none)
    {config : MachineConfig} {start : Session} (created : create program .reference config = .ok start)
    (actions : List Action) (returned : ∀ reply ∈ (replies actions start).1, Returned reply) :
    let strings := (replies actions start).2.machine.strings
    strings.size ≤ program.image.strings.size + 2048 ∧
      ∀ id : StringId, id.toNat < program.image.strings.size →
        strings.get? id = program.image.strings.get? id ∧
          strings.resolve id = program.image.strings.resolve id := by
  intro strings
  obtain ⟨_, _, _, begun⟩ := StringPool.fresh_settled fresh
  obtain ⟨-, before, slots, after, settled⟩ := grown.settled begun
  have lent := (replies_borrow (create_borrows created) actions returned).strings
  refine ⟨lent.size_le settled.rows, fun id inside => ?_⟩
  have same := lent.get?_eq settled unringed inside
  exact ⟨same, congrArg (Option.getD · "") same⟩

def speaking : Program where
  image := {
    statements := #[⟨0, 0, 0, 0⟩, ⟨52, 28, 0, 0⟩, ⟨0, 1, 0, 0⟩]
    functions := #[{}, { first := 1 }, { first := -26 }]
    globals := Array.replicate 28 ⟨0⟩ ++ #[⟨2⟩] }
  globals := {}
  fields := {}
  sound := by decide +kernel
  globals_eq := show _ = Image.systemGlobals _ from rfl
  fields_eq := show _ = Image.systemFields _ from rfl

def speakingStart : Session := ofMachine (.create speaking {}) .reference

theorem strings_stay_bounded_speaking :
    let actions := [Action.call "", .runThink ⟨1⟩, .call "missing", .call ""]
    let strings := (replies actions speakingStart).2.machine.strings
    StringPool.Fresh .empty ∧ StringPool.empty.Grows speaking.image.strings ∧
      speaking.image.strings.ringBase = none ∧ create speaking .reference {} = .ok speakingStart ∧
      (∀ reply ∈ (replies actions speakingStart).1, Returned reply) ∧ strings.size ≤ 1 + 2048 ∧
        ∀ id : StringId, id.toNat < 1 → strings.get? id = speaking.image.strings.get? id ∧
          strings.resolve id = speaking.image.strings.resolve id := by
  intro actions strings
  have created : create speaking .reference {} = .ok speakingStart := rfl
  have ordered : speakingStart.Ordered := by
    refine ⟨create_inOrder _ _ StringPool.empty_inOrder, ?_, rfl⟩
    unfold Entities.HoldsClearings
    decide +kernel
  have sure : ∀ play ∈ actions.map Action.reply, Sure Ordered play := by
    have calls (name : String) : Sure Ordered (Action.call name).reply :=
      sure_bind (call_sure name) fun _ => sure_pure _
    have thinks : Sure Ordered (Action.runThink ⟨1⟩).reply := sure_bind (runThink_sure ⟨1⟩) fun _ => sure_pure _
    simpa [actions] using ⟨calls "", thinks, calls "missing", calls ""⟩
  have returned : ∀ reply ∈ (replies actions speakingStart).1, Returned reply := by
    intro reply there stop stopped
    have answered := (inTurn_sure sure ordered).1 reply there
    rw [stopped] at answered
    exact answered
  have laws := strings_stay_bounded .empty .refl rfl created actions returned
  exact ⟨.empty, .refl, rfl, created, returned, laws⟩

end Session
end EntityMachine
