import EntityMachine.Proofs.Addresses

/-!
Operands. What a statement asks for is worked out before anything changes, and from the cells that its operands
name alone: the same cells elsewhere in another segment give the same. A result goes to the one operand that
listings show as the destination, and it has the width that programs are checked for.
-/
namespace EntityMachine
open Machine Run

/-- Statements that neither call nor return. -/
def Opcode.Ordinary : Opcode → Prop
  | .call _ | .done | .ret => False
  | _ => True

def Opcode.operand (op : Opcode) : Place → Operand
  | .a => op.operands.1
  | .b => op.operands.2.1
  | .c => op.operands.2.2

def Statement.value (s : Statement) : Place → UInt16
  | .a => s.a
  | .b => s.b
  | .c => s.c

/-- The operands that two statements read name the same cells, each in a segment of its own, and they lead as
far. -/
structure Opcode.SameOperands (op : Opcode) (g : Segment) (s : Statement) (g' : Segment) (s' : Statement) :
    Prop where
  cells : ∀ place width, op.operand place = .global width → op.destination? ≠ some place → ∀ k, k < width →
    g'.get? ((s'.value place).toNat + k) = g.get? ((s.value place).toNat + k)
  distances : ∀ place, op.operand place = .distance → s'.value place = s.value place

/-- The effect with its result in the destination of another statement. -/
def Effect.movedTo (op : Opcode) (s : Statement) : Effect → Effect
  | .write offset cells => .write ((op.destination?.map fun place => (s.value place).toNat).getD offset) cells
  | effect => effect

namespace Machine

/-! ## Reading elsewhere -/

section Reading
variable (m : Machine) {g : Segment} {a a' : Nat}

theorem cell_elsewhere (same : ∀ k, k < 1 → g.get? (a' + k) = m.globals.get? (a + k)) :
    ({ m with globals := g } : Machine).cell a' = m.cell a := by
  have here : g.get? a' = m.globals.get? a := same 0 Nat.one_pos
  simp only [cell, here]

theorem single_elsewhere (same : ∀ k, k < 1 → g.get? (a' + k) = m.globals.get? (a + k)) :
    ({ m with globals := g } : Machine).single a' = m.single a := by
  have here : g.get? a' = m.globals.get? a := same 0 Nat.one_pos
  simp only [single, Segment.single?, here]

theorem vector_elsewhere (same : ∀ k, k < 3 → g.get? (a' + k) = m.globals.get? (a + k)) :
    ({ m with globals := g } : Machine).vector a' = m.vector a := by
  have x : g.get? a' = m.globals.get? a := same 0 (by decide)
  have y := same 1 (by decide)
  have z := same 2 (by decide)
  simp only [vector, Segment.vector?, Segment.single?, x, y, z]

theorem slice_elsewhere {width : Nat} (positive : 0 < width)
    (same : ∀ k, k < width → g.get? (a' + k) = m.globals.get? (a + k)) :
    ({ m with globals := g } : Machine).slice a' (a' + width) = m.slice a (a + width) := by
  have last := same (width - 1) (by omega)
  have inside : a' + width ≤ g.size ↔ a + width ≤ m.globals.size := by
    have beyond := congrArg (· = none) last
    simp only [Segment.get?, Array.getElem?_eq_none_iff, eq_iff_iff] at beyond
    simp only [Segment.size]
    omega
  by_cases fits : a + width ≤ m.globals.size
  · obtain ⟨cells, row⟩ : ∃ cells, m.globals.slice? a (a + width) = some cells :=
      ⟨_, if_pos ⟨Nat.le_add_right _ _, fits⟩⟩
    obtain ⟨-, -, extent, held⟩ := (Segment.slice_iff _ _ _ _).mp row
    have row' : g.slice? a' (a' + width) = some cells := by
      rw [Segment.slice_iff]
      rw [Nat.add_sub_cancel_left] at extent held ⊢
      exact ⟨Nat.le_add_right _ _, inside.mpr fits, extent, fun i covered =>
        (held i covered).trans (same i covered).symm⟩
    simp only [slice, row, row']
  · have none (s : Segment) (first : Nat) (past : ¬ first + width ≤ s.size) :
        s.slice? first (first + width) = .none := if_neg fun both => past both.2
    simp only [slice, none _ _ fits, none _ _ (mt inside.mp fits)]

theorem areEqual_elsewhere {b b' : Nat} (kind : Comparand)
    (left : ∀ k, k < kind.width → g.get? (a' + k) = m.globals.get? (a + k))
    (right : ∀ k, k < kind.width → g.get? (b' + k) = m.globals.get? (b + k)) :
    ({ m with globals := g } : Machine).areEqual kind a' b' = m.areEqual kind a b := by
  cases kind with
  | float => simp only [areEqual, m.single_elsewhere left, m.single_elsewhere right]
  | vector => simp only [areEqual, m.vector_elsewhere left, m.vector_elsewhere right]
  | string | entity | function =>
      simp only [areEqual, m.cell_elsewhere left, m.cell_elsewhere right, resolve]

theorem isNothing_elsewhere (kind : Comparand)
    (same : ∀ k, k < kind.width → g.get? (a' + k) = m.globals.get? (a + k)) :
    ({ m with globals := g } : Machine).isNothing kind a' = m.isNothing kind a := by
  cases kind with
  | float => simp only [isNothing, m.single_elsewhere same]
  | vector => simp only [isNothing, m.vector_elsewhere same]
  | string | entity | function => simp only [isNothing, m.cell_elsewhere same, resolve]

end Reading

theorem bind_elsewhere {x x' : Outcome α} (read : x' = x) {next next' : α → Outcome Effect}
    {change : Effect → Effect} (rest : ∀ u, next' u = (next u).map change) :
    (x' >>= next') = (x >>= next).map change := by
  subst read
  cases x' with
  | error stop => rfl
  | ok u => exact rest u

/-- A statement asks for the same wherever its operands lie. -/
theorem effect_elsewhere {m : Machine} {g : Segment} {op : Opcode} {s s' : Statement} (ordinary : op.Ordinary)
    (same : op.SameOperands m.globals s g s') :
    ({ m with globals := g } : Machine).effect op s' = (m.effect op s).map (Effect.movedTo op s') := by
  have a {width : Nat} (named : op.operand .a = .global width) (read : op.destination? ≠ some .a) :=
    same.cells .a width named read
  have b {width : Nat} (named : op.operand .b = .global width) (read : op.destination? ≠ some .b) :=
    same.cells .b width named read
  cases op with
  | mulF | divF | addF | subF | bitAnd | bitOr | le | ge | lt | gt | and | or =>
      exact bind_elsewhere (m.single_elsewhere (a rfl nofun)) fun _ =>
        bind_elsewhere (m.single_elsewhere (b rfl nofun)) fun _ => rfl
  | addV | subV | mulV =>
      exact bind_elsewhere (m.vector_elsewhere (a rfl nofun)) fun _ =>
        bind_elsewhere (m.vector_elsewhere (b rfl nofun)) fun _ => rfl
  | mulFV =>
      exact bind_elsewhere (m.single_elsewhere (a rfl nofun)) fun _ =>
        bind_elsewhere (m.vector_elsewhere (b rfl nofun)) fun _ => rfl
  | mulVF =>
      exact bind_elsewhere (m.single_elsewhere (b rfl nofun)) fun _ =>
        bind_elsewhere (m.vector_elsewhere (a rfl nofun)) fun _ => rfl
  | equal kind | notEqual kind =>
      exact bind_elsewhere (m.areEqual_elsewhere kind (a rfl nofun) (b rfl nofun)) fun _ => rfl
  | not kind => exact bind_elsewhere (m.isNothing_elsewhere kind (a rfl nofun)) fun _ => rfl
  | store kind =>
      have positive : 0 < kind.width := by cases kind <;> decide
      exact bind_elsewhere (m.slice_elsewhere positive (a rfl nofun)) fun _ => rfl
  | storeThrough kind =>
      have positive : 0 < kind.width := by cases kind <;> decide
      exact bind_elsewhere (m.cell_elsewhere (b rfl nofun)) fun _ =>
        bind_elsewhere (m.slice_elsewhere positive (a rfl nofun)) fun _ => rfl
  | load kind =>
      exact bind_elsewhere (m.cell_elsewhere (a rfl nofun)) fun _ =>
        bind_elsewhere (m.cell_elsewhere (b rfl nofun)) fun _ => bind_elsewhere rfl fun _ => rfl
  | address =>
      exact bind_elsewhere (m.cell_elsewhere (a rfl nofun)) fun _ =>
        bind_elsewhere (m.cell_elsewhere (b rfl nofun)) fun _ => bind_elsewhere rfl fun _ => rfl
  | branchIf | branchUnless =>
      have far : s'.b = s.b := same.distances .b rfl
      refine bind_elsewhere (m.cell_elsewhere (a rfl nofun)) fun _ => ?_
      rw [far]
      rfl
  | goto =>
      have far : s'.a = s.a := same.distances .a rfl
      exact congrArg (fun d => Except.ok (Effect.jump (Statement.signed d))) far
  | state =>
      exact bind_elsewhere (m.single_elsewhere (a rfl nofun)) fun _ =>
        bind_elsewhere (m.cell_elsewhere (b rfl nofun)) fun _ => rfl
  | call arguments | done | ret => exact ordinary.elim

/-! ## What a statement may ask for -/

theorem slice_extent {m : Machine} {first width : Nat} {cells : Array Cell}
    (row : m.slice first (first + width) = .ok cells) : cells.size = width := by
  unfold slice at row
  cases found : m.globals.slice? first (first + width) with
  | none =>
      rw [found] at row
      cases row
  | some others =>
      rw [found] at row
      cases row
      exact (Segment.slice_size found).trans (Nat.add_sub_cancel_left _ _)

/-- The effects of ordinary statements: a result as wide as the destination, a store into the addressed record,
a jump, or the next think of self. -/
inductive Asks (m : Machine) (op : Opcode) (s : Statement) : Effect → Prop
  | write (place) {cells} : op.destination? = some place → op.operand place = .global cells.size →
      Asks m op s (.write (s.value place).toNat cells)
  | store {kind cells c} : op = .storeThrough kind → m.cell s.b.toNat = .ok c →
      m.slice s.a.toNat (s.a.toNat + kind.width) = .ok cells → cells.size = kind.width →
        Asks m op s (.writeField c.address cells)
  | jump {distance} : op.destination? = none → (∀ kind, op ≠ .storeThrough kind) → Asks m op s (.jump distance)
  | schedule {frame think} : op = .state → Asks m op s (.schedule frame think)

theorem effect_asks {m : Machine} {op : Opcode} {s : Statement} (ordinary : op.Ordinary) {effect : Effect}
    (asked : m.effect op s = .ok effect) : m.Asks op s effect := by
  cases op with
  | mulF | divF | addF | subF | bitAnd | bitOr | le | ge | lt | gt | and | or | addV | subV | mulV | mulFV
  | mulVF =>
      simp only [Machine.effect, combine, combineBits, combineVectors, test, Outcome.bind_ok_iff,
        Outcome.pure_eq, Except.ok.injEq] at asked
      obtain ⟨_, -, _, -, rfl⟩ := asked
      exact .write .c rfl rfl
  | equal kind | notEqual kind | not kind =>
      simp only [Machine.effect, Outcome.bind_ok_iff, Outcome.pure_eq, Except.ok.injEq] at asked
      obtain ⟨_, -, rfl⟩ := asked
      exact .write .c rfl rfl
  | store kind =>
      simp only [Machine.effect, Outcome.bind_ok_iff, Outcome.pure_eq, Except.ok.injEq] at asked
      obtain ⟨cells, row, rfl⟩ := asked
      exact .write .b rfl (congrArg Operand.global (slice_extent row).symm)
  | storeThrough kind =>
      simp only [Machine.effect, Outcome.bind_ok_iff, Outcome.pure_eq, Except.ok.injEq] at asked
      obtain ⟨c, target, cells, row, rfl⟩ := asked
      exact .store rfl target row (slice_extent row)
  | load kind =>
      simp only [Machine.effect, Outcome.bind_ok_iff, Outcome.pure_eq, Except.ok.injEq] at asked
      obtain ⟨_, -, _, -, cells, loaded, rfl⟩ := asked
      have wide := ((loadField_iff m kind _ _ cells).mp loaded).2.2.1
      exact .write .c rfl (congrArg Operand.global wide.symm)
  | address =>
      simp only [Machine.effect, Outcome.bind_ok_iff, Outcome.pure_eq, Except.ok.injEq] at asked
      obtain ⟨_, -, _, -, _, -, rfl⟩ := asked
      exact .write .c rfl rfl
  | branchIf | branchUnless =>
      simp only [Machine.effect, Outcome.bind_ok_iff, Outcome.pure_eq, Except.ok.injEq] at asked
      obtain ⟨_, -, rfl⟩ := asked
      exact .jump rfl fun _ through => by cases through
  | goto =>
      cases asked
      exact .jump rfl fun _ through => by cases through
  | state =>
      simp only [Machine.effect, Outcome.bind_ok_iff, Outcome.pure_eq, Except.ok.injEq] at asked
      obtain ⟨_, -, _, -, rfl⟩ := asked
      exact .schedule rfl
  | call arguments | done | ret => exact ordinary.elim

end Machine
end EntityMachine
