import EntityMachine.Proofs.Operands
import EntityMachine.Proofs.Validation
import Mathlib.Control.Monad.Basic

/-!
What one statement changes. A statement that neither calls nor returns writes the cells that its destination names,
or the fields that it addresses, or the fields of self that say when it thinks next; it changes nothing else, and
nothing at all when it fails.
-/
namespace EntityMachine
open Machine Run

/-- The cells that listings show as the destination of a statement. -/
def Opcode.Writes (op : Opcode) (s : Statement) (i : Nat) : Prop :=
  ∃ place width, op.destination? = some place ∧ op.operand place = .global width ∧
    (s.value place).toNat ≤ i ∧ i < (s.value place).toNat + width

def SystemFields.thinking (fields : SystemFields) : List (Option UInt16) :=
  [fields.nextthink, fields.frame, fields.think]

def SystemFields.ThinkPlace (fields : SystemFields) (e : EntityIndex) (i k : Nat) : Prop :=
  ∃ offset, some offset ∈ fields.thinking ∧ i = e.toNat ∧ k = offset.toNat

/-- The cells of records that a statement may change. -/
def Machine.Touches (m : Machine) (op : Opcode) (s : Statement) (i k : Nat) : Prop :=
  match op with
  | .storeThrough kind => ∃ c, m.cell s.b.toNat = .ok c ∧ i = c.address.entity.toNat ∧
      c.address.field.toNat ≤ k ∧ k < c.address.field.toNat + kind.width
  | .state => ∃ e, m.selfEntity = .ok e ∧ m.program.fields.ThinkPlace e i k
  | _ => False

/-- Nothing changed in a table but cells at some places. -/
structure Entities.ChangedOnly (places : Nat → Nat → Prop) (t t' : Entities) : Prop where
  outline : t'.outline = t.outline
  cells : ∀ i k, k < t.layout.fieldCount → ¬ places i k → t'.cellOf? i k = t.cellOf? i k

namespace Entities.ChangedOnly
variable {places : Nat → Nat → Prop} {t t' t'' : Entities}

theorem refl (places : Nat → Nat → Prop) (t : Entities) : t.ChangedOnly places t := ⟨rfl, fun _ _ _ _ => rfl⟩

theorem trans (first : t.ChangedOnly places t') (second : t'.ChangedOnly places t'') :
    t.ChangedOnly places t'' where
  outline := second.outline.trans first.outline
  cells := fun i k low apart => by
    have layout : t'.layout = t.layout := congrArg Outline.layout first.outline
    exact (second.cells i k (layout ▸ low) apart).trans (first.cells i k low apart)

theorem mono {wider : Nat → Nat → Prop} (changed : t.ChangedOnly places t')
    (wide : ∀ i k, places i k → wider i k) : t.ChangedOnly wider t' where
  outline := changed.outline
  cells := fun i k low apart => changed.cells i k low (mt (wide i k) apart)

end Entities.ChangedOnly

namespace Machine

/-! ## The next think -/

def Alters (m : Machine) (places : Nat → Nat → Prop) (body : Run Unit) : Prop :=
  ∃ t, body m = (.ok (), { m with entities := t }) ∧ m.entities.ChangedOnly places t

def Idles (m : Machine) (body : Run Unit) : Prop := ∃ result, body m = (result, m)

section Schedule
variable {m : Machine} {e : EntityIndex}

theorem alters_pure (m : Machine) (places : Nat → Nat → Prop) : m.Alters places (pure ()) :=
  ⟨m.entities, rfl, .refl _ _⟩

theorem alters_bind {places : Nat → Nat → Prop} {body rest : Run Unit} (first : m.Alters places body)
    (second : ∀ t, t.outline = m.entities.outline → Alters { m with entities := t } places rest) :
    m.Alters places (body >>= fun _ => rest) := by
  obtain ⟨t, ran, changed⟩ := first
  obtain ⟨t', later, more⟩ := second t changed.outline
  exact ⟨t', (bind_of_ok _ ran).trans later, changed.trans more⟩

theorem idles_bind {body rest : Run Unit} (first : m.Idles body) (second : m.Idles rest) :
    m.Idles (body >>= fun _ => rest) := by
  obtain ⟨result, ran⟩ := first
  unfold Idles
  rw [bind_apply, ran]
  cases result with
  | ok done => exact second
  | error stop => exact ⟨_, rfl⟩

structure Knows (m : Machine) (e : EntityIndex) : Prop where
  well : m.entities.WellFormed
  layout : m.entities.layout = m.program.layout
  known : e.toNat < m.entities.size

theorem Knows.of_outline (knows : m.Knows e) {t : Entities} (same : t.outline = m.entities.outline) :
    Knows { m with entities := t } e where
  well := knows.well.of_outline same
  layout := (Entities.layout_of_outline same).trans knows.layout
  known := (Entities.size_of_outline same).symm ▸ knows.known

theorem Knows.fits (knows : m.Knows e) {offset : UInt16} (listed : some offset ∈ m.program.fields.thinking) :
    offset.toNat < m.entities.layout.fieldCount := by
  rw [knows.layout]
  refine m.program.fields_fit ?_
  simp only [SystemFields.thinking, List.mem_cons, List.not_mem_nil, or_false] at listed
  rcases listed with same | same | same <;> simp [SystemFields.toList, same]

theorem writeField_alters (knows : m.Knows e) {offset : UInt16}
    (listed : some offset ∈ m.program.fields.thinking) (c : Cell) :
    m.Alters (m.program.fields.ThinkPlace e) (writeFields e offset.toUInt32 #[c]) := by
  have place : offset.toUInt32.toNat = offset.toNat := UInt16.toNat_toUInt32 offset
  have fits : offset.toUInt32.toNat + #[c].size ≤ m.entities.layout.fieldCount := place ▸ knows.fits listed
  obtain ⟨t, wrote, outline, cell⟩ := writeFields_known knows.well knows.known fits
  refine ⟨t, wrote, outline, fun i k low apart => ?_⟩
  rw [cell i k low, if_neg]
  rintro ⟨rfl, from_here, to_here⟩
  rw [place] at from_here to_here
  exact apart ⟨offset, listed, rfl, Nat.le_antisymm (Nat.le_of_lt_succ to_here) from_here⟩

theorem writeField_idles (unknown : ¬ e.toNat < m.entities.size) (field : UInt32) (cells : Array Cell) :
    m.Idles (writeFields e field cells) := by
  rw [Idles, writeFields_apply, Entities.locate, if_pos (Nat.le_of_not_lt unknown)]
  exact ⟨_, rfl⟩

theorem writeDeclared_alters (knows : m.Knows e) {field : Option UInt16}
    (listed : field ∈ m.program.fields.thinking) (c : Cell) :
    m.Alters (m.program.fields.ThinkPlace e) (writeDeclared e #[c] field) := by
  cases field with
  | none => exact alters_pure m _
  | some offset => exact writeField_alters knows listed c

theorem writeDeclared_idles (unknown : ¬ e.toNat < m.entities.size) (cells : Array Cell)
    (field : Option UInt16) : m.Idles (writeDeclared e cells field) := by
  cases field with
  | none => exact ⟨_, rfl⟩
  | some offset => exact writeField_idles unknown _ _

theorem refreshFrame_alters (knows : m.Knows e) {field : Option UInt16}
    (listed : field ∈ m.program.fields.thinking) (frame : Single) :
    m.Alters (m.program.fields.ThinkPlace e) (refreshFrame e frame field) := by
  cases field with
  | none => exact alters_pure m _
  | some offset =>
      have low : offset.toUInt32.toNat < m.entities.layout.fieldCount :=
        (UInt16.toNat_toUInt32 offset).symm ▸ knows.fits listed
      obtain ⟨cells, loaded⟩ : ∃ cells, m.loadField .float e offset.toUInt32 = .ok cells :=
        loadField_reads knows.well knows.known low
      obtain ⟨c, read, -⟩ := (Outcome.bind_ok_iff _ _ _).mp loaded
      have current : m.entities.single e offset.toUInt32 = .ok c.single := by
        rw [Entities.single, read]
        rfl
      have same : refreshFrame e frame (some offset) m = (if c.single.eq frame then pure ()
          else writeFields e offset.toUInt32 #[.ofSingle frame] : Run Unit) m := by
        simp only [refreshFrame, get_bind, current, ok_bind]
      unfold Alters
      rw [same]
      split
      · exact alters_pure m _
      · exact writeField_alters knows listed _

theorem refreshFrame_idles (unknown : ¬ e.toNat < m.entities.size) (frame : Single)
    (field : Option UInt16) : m.Idles (refreshFrame e frame field) := by
  cases field with
  | none => exact ⟨_, rfl⟩
  | some offset =>
      have lost : m.entities.single e offset.toUInt32 = .fail (.badEntity e) := by
        rw [Entities.single, Entities.get, Entities.locate, if_pos (Nat.le_of_not_lt unknown)]
        rfl
      simp only [Idles, refreshFrame, get_bind, lost]
      exact ⟨_, rfl⟩

theorem schedule_apply (frame : Single) (think : Cell) (m : Machine) : schedule frame think m =
    match m.selfEntity, m.time with
    | .ok e, .ok now => (writeDeclared e #[.ofSingle (now + m.config.stateInterval)]
        m.program.fields.nextthink >>= fun _ => refreshFrame e frame m.program.fields.frame >>= fun _ =>
          writeDeclared e #[think] m.program.fields.think) m
    | .error stop, _ => (.error stop, m)
    | _, .error stop => (.error stop, m) := by
  rw [schedule, get_bind]
  cases m.selfEntity with
  | error stop => rw [error_bind]
  | ok e =>
      rw [ok_bind]
      cases m.time with
      | error stop => rw [error_bind]
      | ok now => rw [ok_bind]

theorem schedule_alters (well : m.entities.WellFormed) (layout : m.entities.layout = m.program.layout)
    (frame : Single) (think : Cell) :
    (∃ e, m.selfEntity = .ok e ∧ m.Alters (m.program.fields.ThinkPlace e) (schedule frame think)) ∨
      m.Idles (schedule frame think) := by
  unfold Alters Idles
  rw [schedule_apply]
  cases self : m.selfEntity with
  | error stop => exact .inr ⟨_, rfl⟩
  | ok e =>
      cases m.time with
      | error stop => exact .inr ⟨_, rfl⟩
      | ok now =>
          by_cases known : e.toNat < m.entities.size
          -- Each of the three finds the record as large as the one before it left it.
          · have knows : m.Knows e := ⟨well, layout, known⟩
            refine .inl ⟨e, rfl, ?_⟩
            refine alters_bind (writeDeclared_alters knows (by simp [SystemFields.thinking]) _) fun t same => ?_
            refine alters_bind (refreshFrame_alters (knows.of_outline same) (by simp [SystemFields.thinking]) _)
              fun t' same' => ?_
            exact writeDeclared_alters (knows.of_outline (same'.trans same)) (by simp [SystemFields.thinking])
              think
          · exact .inr (idles_bind (writeDeclared_idles known _ _) (idles_bind (refreshFrame_idles known _ _)
              (writeDeclared_idles known _ _)))

end Schedule

/-! ## One statement -/

/-- What no ordinary statement changes. -/
structure Retains (m m' : Machine) : Prop where
  strings : m'.strings = m.strings
  calls : m'.calls = m.calls
  locals : m'.locals = m.locals
  function : m'.function = m.function

/-- What an ordinary statement leaves of a machine when it succeeds. Results are what the operands held before
it: the same cells in another segment, wherever that has them, give the same. -/
structure Confined (m : Machine) (op : Opcode) (s : Statement) (m' : Machine) : Prop extends m.Retains m' where
  size : m'.globals.size = m.globals.size
  outside : ∀ i, ¬ op.Writes s i → m'.globals.get? i = m.globals.get? i
  records : m.entities.ChangedOnly (m.Touches op s) m'.entities
  sparing : (∀ kind, op ≠ .storeThrough kind) → op ≠ .state → m'.entities = m.entities
  result : ∀ place, op.destination? = some place → ∃ cells, op.operand place = .global cells.size ∧
    (∀ k, k < cells.size → m'.globals.get? ((s.value place).toNat + k) = cells[k]?) ∧
      ∀ g s', op.SameOperands m.globals s g s' →
        ({ m with globals := g } : Machine).effect op s' = .ok (.write (s'.value place).toNat cells)
  stored : ∀ kind, op = .storeThrough kind → ∃ address cells, cells.size = kind.width ∧
    m'.loadField kind address.entity address.field = .ok cells ∧
      ∀ g s', op.SameOperands m.globals s g s' →
        ({ m with globals := g } : Machine).effect op s' = .ok (.writeField address cells)

section Statement
variable {m f : Machine} {op : Opcode} {s : Statement}

theorem Confined.of_records (silent : op.destination? = none) (kept : m.Retains f)
    (globals : f.globals = m.globals) (records : m.entities.ChangedOnly (m.Touches op s) f.entities)
    (sparing : (∀ kind, op ≠ .storeThrough kind) → op ≠ .state → f.entities = m.entities)
    (stored : ∀ kind, op = .storeThrough kind → ∃ address cells, cells.size = kind.width ∧
      f.loadField kind address.entity address.field = .ok cells ∧
        ∀ g s', op.SameOperands m.globals s g s' →
          ({ m with globals := g } : Machine).effect op s' = .ok (.writeField address cells)) :
    m.Confined op s f where
  toRetains := kept
  size := congrArg Segment.size globals
  outside := fun i _ => congrArg (Segment.get? · i) globals
  records := records
  sparing := sparing
  result := fun place named => by
    rw [silent] at named
    cases named
  stored := stored

theorem write_confined (ordinary : op.Ordinary) (kept : m.Retains f) (globals : f.globals = m.globals)
    (entities : f.entities = m.entities) {place : Place} {cells : Array Cell}
    (named : op.destination? = some place) (wide : op.operand place = .global cells.size)
    (asked : m.effect op s = .ok (.write (s.value place).toNat cells))
    (inside : (s.value place).toNat + cells.size ≤ m.globals.size) :
    m.Confined op s { f with globals := f.globals.overwrite (s.value place).toNat cells } where
  strings := kept.strings
  calls := kept.calls
  locals := kept.locals
  function := kept.function
  size := by rw [Segment.overwrite_size, globals]
  outside := fun i apart => by
    have missed : ¬ ((s.value place).toNat ≤ i ∧ i < (s.value place).toNat + cells.size ∧
        i < f.globals.size) := fun hit => apart ⟨place, cells.size, named, wide, hit.1, hit.2.1⟩
    rw [Segment.overwrite_get, if_neg missed, globals]
  records := entities ▸ .refl _ _
  sparing := fun _ _ => entities
  result := fun other also => by
    obtain rfl : place = other := Option.some.inj (named.symm.trans also)
    refine ⟨cells, wide, fun k covered => ?_, fun g s' same => ?_⟩
    · have hit : (s.value place).toNat ≤ (s.value place).toNat + k ∧
          (s.value place).toNat + k < (s.value place).toNat + cells.size ∧
            (s.value place).toNat + k < f.globals.size := by
        rw [globals]
        omega
      rw [Segment.overwrite_get, if_pos hit, Nat.add_sub_cancel_left]
    · rw [effect_elsewhere ordinary same, asked]
      exact congrArg (fun offset => Except.ok (Effect.write offset cells)) (by rw [named]; rfl)
  stored := fun kind through => by
    subst through
    cases named

/-- The computation leaves a machine with a property, or it fails and leaves the one it got. -/
def Settles (f : Machine) (fine : Machine → Prop) (body : Run α) : Prop :=
  match body f with
  | (.ok _, m') => fine m'
  | (.error _, m') => m' = f

theorem Settles.and_then {fine : Machine → Prop} {body : Run Unit} (settles : f.Settles fine body) (next : α) :
    f.Settles fine (body >>= fun _ => pure next) := by
  unfold Settles at settles ⊢
  rw [bind_apply]
  rcases ran : body f with ⟨_ | _, m'⟩ <;> rw [ran] at settles <;> exact settles

theorem writeField_settles (well : m.entities.WellFormed) (kept : m.Retains f) (globals : f.globals = m.globals)
    (entities : f.entities = m.entities) {kind : Kind} {c : Cell} {cells : Array Cell}
    (target : m.cell s.b.toNat = .ok c) (sized : cells.size = kind.width)
    (asked : m.effect (.storeThrough kind) s = .ok (.writeField c.address cells)) :
    f.Settles (m.Confined (.storeThrough kind) s)
      (writeFields c.address.entity c.address.field cells) := by
  have well : f.entities.WellFormed := entities ▸ well
  by_cases there : c.address.entity.toNat < f.entities.size ∧
      c.address.field.toNat + cells.size ≤ f.entities.layout.fieldCount
  · obtain ⟨t, wrote, outline, cell⟩ := writeFields_known well there.1 there.2
    obtain ⟨_, ran, held⟩ := writeFields_stored well there.1 there.2
    obtain rfl : _ = { f with entities := t } := congrArg Prod.snd (ran.symm.trans wrote)
    rw [Settles, wrote]
    refine .of_records rfl ⟨kept.strings, kept.calls, kept.locals, kept.function⟩ globals ?_
      (fun through _ => absurd rfl (through kind)) fun other same => ?_
    · rw [← entities]
      refine ⟨outline, fun i k low apart => ?_⟩
      rw [cell i k low, if_neg]
      exact fun hit => apart ⟨c, target, hit.1, hit.2.1, sized ▸ hit.2.2⟩
    · obtain rfl : kind = other := Opcode.storeThrough.inj same
      refine ⟨c.address, cells, sized, ?_, fun g s' same => ?_⟩
      · have found := held.found kind c.address.field (UInt32.le_refl _) (Nat.le_of_eq (by rw [sized]))
        rwa [Nat.sub_self, Nat.zero_add, ← sized, Array.extract_size] at found
      · have ordinary : Opcode.Ordinary (.storeThrough kind) := trivial
        rw [effect_elsewhere ordinary same, asked]
        rfl
  · rw [Settles, writeFields_apply]
    cases located : f.entities.locate c.address.entity c.address.field cells.size with
    | error stop => rfl
    | ok position =>
        obtain ⟨known, inside, -⟩ := (Entities.locate_iff _ _ _ _ _).mp located
        exact absurd ⟨known, inside⟩ there

theorem schedule_settles (well : m.entities.WellFormed) (layout : m.entities.layout = m.program.layout)
    (kept : m.Retains f) (program : f.program = m.program) (globals : f.globals = m.globals)
    (entities : f.entities = m.entities) (frame : Single) (think : Cell) :
    f.Settles (m.Confined .state s) (schedule frame think) := by
  have self : f.selfEntity = m.selfEntity := by simp only [selfEntity, cell, program, globals]
  have changes (t : Entities) (changed : m.entities.ChangedOnly (m.Touches .state s) t) :
      m.Confined .state s { f with entities := t } :=
    .of_records rfl ⟨kept.strings, kept.calls, kept.locals, kept.function⟩ globals changed
      (fun _ other => absurd rfl other) fun _ through => by cases through
  rcases schedule_alters (entities ▸ well) (by rwa [entities, program]) frame think with
    ⟨e, named, t, altered, changed⟩ | ⟨result, idle⟩
  · rw [Settles, altered]
    rw [entities, program] at changed
    refine changes t (changed.mono ?_)
    exact fun i k place => ⟨e, self ▸ named, place⟩
  · rw [Settles, idle]
    cases result with
    | error stop => rfl
    | ok done => exact changes f.entities (entities ▸ .refl _ _)

theorem perform_settles (natives : Natives) (reenter : FunctionId → Run Unit) (entryDepth n : Nat)
    (well : m.entities.WellFormed) (layout : m.entities.layout = m.program.layout) (ordinary : op.Ordinary)
    (kept : m.Retains f) (program : f.program = m.program) (globals : f.globals = m.globals)
    (entities : f.entities = m.entities) {effect : Effect} (asked : m.effect op s = .ok effect) :
    f.Settles (m.Confined op s) (perform natives reenter entryDepth n effect) := by
  cases effect_asks ordinary asked with
  | @write place cells named wide =>
      refine Settles.and_then ?_ _
      rw [Settles, write_apply]
      by_cases inside : (s.value place).toNat + cells.size ≤ f.globals.size
      · rw [if_pos inside]
        exact write_confined ordinary kept globals entities named wide asked (globals ▸ inside)
      · rw [if_neg inside]
  | store through target row sized =>
      subst through
      refine Settles.and_then ?_ _
      exact writeField_settles well kept globals entities target sized asked
  | jump silent direct =>
      exact .of_records silent kept globals (entities ▸ .refl _ _) (fun _ _ => entities) fun kind through =>
        absurd through (direct kind)
  | schedule state =>
      subst state
      refine Settles.and_then ?_ _
      exact schedule_settles well layout kept program globals entities _ _

theorem step_settles (natives : Natives) (reenter : FunctionId → Run Unit) (entryDepth : Nat)
    (well : m.entities.WellFormed) (layout : m.entities.layout = m.program.layout) {n : Nat}
    (found : m.program.statement? n = some s) (decoded : s.opcode? = some op) (ordinary : op.Ordinary) :
    match step natives reenter entryDepth n m with
    | (.ok _, m') => m.Confined op s m'
    | (.error _, m') => m' = m ∨ m' = m.fetched n s := by
  rw [step_apply]
  simp only [found, decoded]
  cases m.profile.covers m.function with
  | false => exact .inl rfl
  | true =>
      simp only [↓reduceIte]
      cases asked : m.effect op s with
      | error reason => exact .inr rfl
      | ok effect =>
          have kept : m.Retains (m.fetched n s) := ⟨rfl, rfl, rfl, rfl⟩
          have settles := perform_settles natives reenter entryDepth n well layout ordinary kept rfl rfl rfl asked
          simp only
          rw [Settles] at settles
          rcases ran : perform natives reenter entryDepth n effect (m.fetched n s) with ⟨_ | _, m'⟩
          · rw [ran] at settles
            exact .inr settles
          · rw [ran] at settles
            exact settles

end Statement

/-- A statement that neither calls nor returns changes the cells of its destination, or of the record that it
addresses, or the next think of self, and nothing else. What it stores it worked out before. If it fails, the
machine holds what it held. -/
theorem statement_confined (natives : Natives) (reenter : FunctionId → Run Unit) (entryDepth : Nat) {m : Machine}
    (well : m.entities.WellFormed) (layout : m.entities.layout = m.program.layout) {n : Nat} {s : Statement}
    {op : Opcode} (found : m.program.statement? n = some s) (decoded : s.opcode? = some op)
    (ordinary : op.Ordinary) :
    (∀ next m', step natives reenter entryDepth n m = (.ok next, m') → m.Confined op s m') ∧
      ∀ stop m', step natives reenter entryDepth n m = (.error stop, m') →
        m'.globals = m.globals ∧ m'.entities = m.entities ∧ m'.strings = m.strings := by
  have settles := step_settles natives reenter entryDepth well layout found decoded ordinary
  refine ⟨fun next m' done => ?_, fun stop m' failed => ?_⟩
  · rwa [done] at settles
  · rw [failed] at settles
    obtain same | same : m' = m ∨ m' = m.fetched n s := settles
    · rw [same]
      exact ⟨rfl, rfl, rfl⟩
    · rw [same]
      exact ⟨rfl, rfl, rfl⟩

def overlapping : Program where
  image := {
    statements := #[⟨0, 0, 0, 0⟩, ⟨7, 28, 29, 30⟩]
    functions := #[{}]
    globals := Array.replicate 28 ⟨0⟩ ++
      #[⟨0x3F800000⟩, ⟨0x40000000⟩, ⟨0x40400000⟩, ⟨0x40800000⟩, ⟨0x40A00000⟩] }
  globals := {}
  fields := {}
  sound := by decide +kernel
  globals_eq := show _ = Image.systemGlobals _ from rfl
  fields_eq := show _ = Image.systemFields _ from rfl

/-- The sum is of what the operands held, (1, 2, 3) and (2, 3, 4). -/
theorem statement_confined_overlapping :
    let m := create overlapping {}
    m.entities.WellFormed ∧ m.entities.layout = m.program.layout ∧
      ∃ m', step .empty (execute .empty 0) 0 1 m = (.ok (some 2), m') ∧
        m.Confined .addV ⟨7, 28, 29, 30⟩ m' ∧ m'.globals.get? 29 = m.globals.get? 29 ∧
          m'.globals.slice? 30 33 = some #[⟨0x40400000⟩, ⟨0x40A00000⟩, ⟨0x40E00000⟩] := by
  intro m
  have well : m.entities.WellFormed := Entities.create_wellFormed _ _
  have ran : (step .empty (execute .empty 0) 0 1 m).1 = .ok (some 2) := by decide +kernel
  have added : (step .empty (execute .empty 0) 0 1 m).2.globals.slice? 30 33 =
      some #[⟨0x40400000⟩, ⟨0x40A00000⟩, ⟨0x40E00000⟩] := by decide +kernel
  have confined := (statement_confined .empty (execute .empty 0) 0 well rfl (n := 1) (s := ⟨7, 28, 29, 30⟩)
    (by decide +kernel) rfl trivial).1 _ _ (eq_of_outcome ran)
  refine ⟨well, rfl, _, eq_of_outcome ran, confined, confined.outside 29 ?_, added⟩
  rintro ⟨place, width, named, -, low, -⟩
  cases named
  exact absurd low (by decide)

end Machine
end EntityMachine
