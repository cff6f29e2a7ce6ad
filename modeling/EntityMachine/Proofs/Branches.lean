import EntityMachine.Assembler
import EntityMachine.Proofs.Soundness

/-!
Branches that are pointed at a statement. A distance is kept in sixteen bits, and the two statement numbers
are cut to sixteen bits before it is taken; running the branch adds it to a number of sixty-four bits. So a
branch goes where it was pointed whenever the distance itself fits its word, however far into the code.
-/
namespace EntityMachine
open Machine

theorem Opcode.number_of_known {number : UInt16} {op : Opcode} (known : ofNumber? number = some op) :
    number.toNat = op.number := by
  have listed : ∀ n < all.size, (all[n]?).map Opcode.number = some n := by decide +kernel
  obtain ⟨inside, -⟩ := Array.getElem?_eq_some_iff.mp known
  have same := listed number.toNat inside
  rw [show all[number.toNat]? = some op from known] at same
  exact (Option.some.inj same).symm

/-- A branch with this opcode that the machine would take. -/
def Machine.Takes (m : Machine) (op : Opcode) (s : Statement) : Prop :=
  match op with
  | .goto => True
  | .branchIf => ∃ c, m.cell s.a.toNat = .ok c ∧ c.isZero = false
  | .branchUnless => ∃ c, m.cell s.a.toNat = .ok c ∧ c.isZero = true
  | _ => False

/-- The distance that a branch keeps: an unconditional one in its first operand, behind a condition in the
second. -/
def Statement.distance (op : Opcode) (s : Statement) : UInt16 := if op = .goto then s.a else s.b

theorem Machine.Takes.effect {m : Machine} {op : Opcode} {s : Statement} (takes : m.Takes op s) :
    m.effect op s = .ok (.jump (Statement.signed (s.distance op))) := by
  cases op with
  | goto => rfl
  | branchIf | branchUnless =>
      obtain ⟨c, read, test⟩ := takes
      simp [Machine.effect, Statement.distance, read, test]
  | _ => exact takes.elim

theorem Machine.step_takes (natives : Natives) (reenter : FunctionId → Run Unit) (entryDepth : Nat)
    {place : Nat} {m : Machine} {op : Opcode} {s : Statement} (found : m.program.statement? place = some s)
    (covered : m.profile.covers m.function = true) (known : s.opcode? = some op) (takes : m.Takes op s) :
    step natives reenter entryDepth place m =
      (.ok (some (branchTarget place (Statement.signed (s.distance op)))), m.fetched place s) := by
  rw [step_apply, found]
  simp only [covered, ↓reduceIte, known, takes.effect]
  rfl

namespace Assembler

/-- Both numbers are cut before one is taken from the other; that costs whole turns of the word, and the
difference of the two has none to spare. -/
theorem signed_distance {place target : Nat} (low : -32768 ≤ (target : Int) - place)
    (high : (target : Int) - place ≤ 32767) :
    Statement.signed (distance place target) = target - place := by
  have words : (distance place target).toBitVec = BitVec.ofNat 16 target - BitVec.ofNat 16 place := by
    rw [distance, UInt16.toBitVec_sub, UInt16.toBitVec_ofNat', UInt16.toBitVec_ofNat']
  calc Statement.signed (distance place target)
      = (distance place target).toBitVec.toInt := rfl
    _ = ((target : Int).bmod (2 ^ 16) - (place : Int).bmod (2 ^ 16)).bmod (2 ^ 16) := by
        rw [words, BitVec.toInt_sub, BitVec.toInt_ofNat', BitVec.toInt_ofNat']
    _ = ((target : Int) - place).bmod (2 ^ 16) := by rw [Int.bmod_sub_bmod, Int.sub_bmod_bmod]
    _ = target - place := Int.bmod_eq_of_le (by omega) (by omega)

theorem branchTarget_distance {place target : Nat} (word : target < 0x10000000000000000)
    (low : -32768 ≤ (target : Int) - place) (high : (target : Int) - place ≤ 32767) :
    branchTarget place (Statement.signed (distance place target)) = target := by
  rw [signed_distance low high, branchTarget]
  omega

theorem redirect_opcode (s : Statement) (d : UInt16) : (redirect s d).opcode? = s.opcode? := by
  unfold redirect
  split <;> rfl

theorem redirect_distance {s : Statement} {op : Opcode} (known : s.opcode? = some op) (d : UInt16) :
    (redirect s d).distance op = d := by
  have number := Opcode.number_of_known known
  unfold redirect Statement.distance
  by_cases far : op = .goto
  · rw [if_pos far, number, if_pos (by rw [far])]
  · have other : op.number ≠ Opcode.goto.number := by
      have distinct : ∀ o ∈ Opcode.all, o.number = Opcode.goto.number → o = .goto := by decide +kernel
      exact fun same => far (distinct op (Array.mem_of_getElem? known) same)
    rw [if_neg far, number, if_neg other]

theorem patch_apply {s : Assembler} {place : Nat} {statement : Statement} (target : Nat)
    (there : s.image.statements[place]? = some statement) :
    (patch place target).run s = some ((), { s with image := { s.image with
      statements := s.image.statements.setIfInBounds place (redirect statement (distance place target)) } }) := by
  simp [patch, modifyImage, there]

/-- A branch is pointed at a statement that a distance of sixteen bits reaches, however far into the code the
two lie. The image changes by the distance in that branch and by nothing else, so a condition stays where it was
read; and a machine that runs the branch and takes it goes on at just that statement. -/
theorem patched_branch_lands {s : Assembler} {place : Nat} {statement : Statement} {op : Opcode} (target : Nat)
    (there : s.image.statements[place]? = some statement) (known : statement.opcode? = some op)
    (branch : op = .goto ∨ op = .branchIf ∨ op = .branchUnless) (word : target < 0x10000000000000000)
    (low : -32768 ≤ (target : Int) - place) (high : (target : Int) - place ≤ 32767) :
    ∃ patched s', (patch place target).run s = some ((), s') ∧
      s' = { s with image := { s.image with statements := s'.image.statements } } ∧
      (∀ i, s'.image.statements[i]? = if i = place then some patched else s.image.statements[i]?) ∧
      patched.opcode? = some op ∧ (op = .goto → patched = { statement with a := patched.a }) ∧
      (op ≠ .goto → patched = { statement with b := patched.b }) ∧
      ∀ (natives : Natives) (reenter : FunctionId → Run Unit) (entryDepth : Nat) (m : Machine),
        m.program.statement? place = some patched → m.profile.covers m.function = true →
        m.Takes op patched → ∃ m', step natives reenter entryDepth place m = (.ok (some target), m') := by
  have number := Opcode.number_of_known known
  have inside : place < s.image.statements.size := (Array.getElem?_eq_some_iff.mp there).1
  refine ⟨redirect statement (distance place target), _, patch_apply target there, rfl, fun i => ?_, ?_, ?_, ?_, ?_⟩
  · simp only [Array.getElem?_setIfInBounds, inside, ↓reduceIte, eq_comm]
  · rw [redirect_opcode, known]
  · rintro rfl
    rw [redirect, if_pos number]
  · intro conditional
    have other : op.number ≠ Opcode.goto.number := by
      rcases branch with same | rfl | rfl
      · exact absurd same conditional
      · decide
      · decide
    rw [redirect, number, if_neg other]
  · intro natives reenter entryDepth m found covered takes
    have stepped := step_takes natives reenter entryDepth found covered
      ((redirect_opcode statement _).trans known) takes
    rw [redirect_distance known, branchTarget_distance word low high] at stepped
    exact ⟨_, stepped⟩

def branching : Assembler where
  image := {
    statements := Array.replicate 40001 ⟨49, 28, 0, 0⟩
    functions := #[{}]
    globals := Array.replicate 28 ⟨0⟩ ++ #[⟨1⟩] }
  current := none

theorem branching_valid {statements : Array Statement} (same : ∀ s ∈ statements, s.op = 49 ∧ s.a = 28) :
    { branching.image with statements }.Valid where
  segment := show 28 ≤ branching.image.globals.size by decide
  table := show branching.image.functions ≠ #[] by decide
  statements := by
    intro i s op found known
    obtain ⟨number, operand⟩ := same s (Array.mem_of_getElem? found)
    obtain rfl : Opcode.branchIf = op := by
      rw [Statement.opcode?, number] at known
      exact Option.some.inj known
    refine ⟨?_, nofun, nofun⟩
    rintro width ⟨⟩
    rw [operand]
    exact (by decide : 28 + 1 ≤ branching.image.globals.size)
  functions := by
    intro i f later found
    have one : i < 1 := (Array.getElem?_eq_some_iff.mp found).1
    omega
  globals := nofun
  fields := nofun

/-- The longest way back, between statements whose numbers do not fit a signed word. -/
theorem patched_branch_lands_backward :
    branching.image.statements[40000]? = some ⟨49, 28, 0, 0⟩ ∧ (-32768 : Int) ≤ (7232 : Nat) - (40000 : Nat) ∧
      ∃ s', (patch 40000 7232).run branching = some ((), s') ∧ ∃ m : Machine, m.program.image = s'.image ∧
        ∃ m', step .empty (execute .empty 0) 0 40000 m = (.ok (some 7232), m') := by
  have there : branching.image.statements[40000]? = some ⟨49, 28, 0, 0⟩ := by simp [branching]
  have known : Statement.opcode? ⟨49, 28, 0, 0⟩ = some .branchIf := rfl
  obtain ⟨patched, s', done, image, statements, -, -, operand, lands⟩ :=
    patched_branch_lands 7232 there known (.inr (.inl rfl)) (by decide) (by decide) (by decide)
  have changed := operand (by decide)
  have valid : s'.image.Valid := by
    rw [image]
    apply branching_valid
    intro s member
    obtain ⟨i, found⟩ := Array.mem_iff_getElem?.mp member
    rw [statements] at found
    split at found
    · cases found
      rw [changed]
      exact ⟨rfl, rfl⟩
    · have base := Array.mem_of_getElem? found
      rw [Array.eq_of_mem_replicate base]
      exact ⟨rfl, rfl⟩
  let p : Program := {
    image := s'.image, globals := _, fields := _, sound := s'.image.defect?_none_iff.mpr valid
    globals_eq := rfl, fields_eq := rfl }
  have function : p.image.functions = #[{}] := by
    change s'.image.functions = _
    rw [image]
    rfl
  have globals : p.image.globals = branching.image.globals := by
    change s'.image.globals = _
    rw [image]
  refine ⟨there, by decide, s', done, create p {}, rfl, lands .empty (execute .empty 0) 0 _ ?_ ?_ ⟨⟨1⟩, ?_, rfl⟩⟩
  · exact (statements 40000).trans (if_pos rfl)
  · have sized : (create p {}).profile.size = p.image.functions.size := Array.size_replicate
    rw [Profile.covers, sized, function]
    rfl
  · have read : (create p {}).cell 28 = .ok ⟨1⟩ := by
      change Outcome.ofOption p.image.globals[28]? = _
      rw [globals]
      rfl
    rw [changed]
    exact read

end Assembler
end EntityMachine
