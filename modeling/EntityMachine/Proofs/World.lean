import EntityMachine.Proofs.Addresses
import EntityMachine.Proofs.Agreement
import EntityMachine.Proofs.Executions
import EntityMachine.Proofs.PoolCoherence
import EntityMachine.Proofs.ReferenceNatives

/-!
The world. An active machine gives out no address into the world's record, and none of the reference functions
takes that record or gives it back. Two statements are left that change it: a store through a cell which names
the world though no machine gave it out, and a state statement while the program runs for the world.
-/
namespace EntityMachine
open Machine Run

/-! ## The record of the world -/

namespace Entities
variable {t : Entities}

def world (t : Entities) : Array Cell := t.cells.extract 0 t.layout.fieldCount

/-- The world exists, and it is reserved. -/
structure HasWorld (t : Entities) : Prop where
  reserved : 1 ≤ t.config.reserved
  exist : 1 ≤ t.size

theorem WellFormed.hasWorld (well : t.WellFormed) : t.HasWorld :=
  ⟨well.reserved, Nat.le_trans well.reserved well.started⟩

theorem storeAll_world (values : List Cell) {position count : Nat} (cells : Array Cell)
    (apart : count ≤ position) :
    (Segment.storeAll values position cells).extract 0 count = cells.extract 0 count := by
  apply Array.ext_getElem?
  intro i
  simp only [Array.getElem?_extract, Segment.storeAll_size, Segment.storeAll_get]
  by_cases inside : i < min count cells.size - 0
  · rw [if_pos inside, if_pos inside, if_neg (by omega)]
  · rw [if_neg inside, if_neg inside]

theorem overwrite_world {position : Nat} (values : Array Cell) (apart : t.layout.fieldCount ≤ position) :
    (t.overwrite position values).world = t.world := storeAll_world values.toList t.cells apart

theorem behind_world {i : Nat} (other : 1 ≤ i) : t.layout.fieldCount ≤ i * t.layout.fieldCount :=
  Nat.le_mul_of_pos_left _ other

theorem take_world {i : Nat} (other : 1 ≤ i) : (t.take i).world = t.world :=
  storeAll_world _ t.cells (behind_world other)

theorem cleared_world {e : EntityIndex} (other : 1 ≤ e.toNat) (clearings : List (UInt16 × Array Cell))
    (t : Entities) :
    (clearings.foldl (fun t (offset, cells) => t.overwrite (t.base e + offset.toNat) cells) t).world =
      t.world := by
  induction clearings generalizing t with
  | nil => rfl
  | cons first rest ih =>
      rw [List.foldl_cons, ih]
      exact overwrite_world _ (Nat.le_trans (behind_world other) (Nat.le_add_right _ _))

theorem retire_world {e : EntityIndex} (other : 1 ≤ e.toNat) (now : Single) :
    (t.retire e now).world = t.world := cleared_world other (clearings t.layout.system) t

end Entities

theorem EntityIndex.other_iff (e : EntityIndex) : e ≠ .world ↔ 1 ≤ e.toNat := by
  constructor
  · intro other
    apply Nat.one_le_iff_ne_zero.mpr
    intro zero
    exact other (congrArg EntityIndex.mk (UInt32.toNat_inj.mp zero))
  · rintro positive rfl
    exact absurd positive (by decide)

namespace Machine

theorem fieldAddress_guards {m : Machine} (active : m.active = true) {e : EntityIndex} {field : UInt32}
    {address : FieldAddress} (given : m.fieldAddress e field = .ok address) : address.entity ≠ .world := by
  obtain ⟨unguarded, -, -, encoded⟩ := (fieldAddress_iff m e field address).mp given
  rw [(FieldAddress.encode?_iff.mp encoded).1]
  rintro rfl
  exact unguarded ⟨active, rfl⟩

/-- The machine is active, and the world is as it was. -/
structure Spares (world : Array Cell) (m : Machine) : Prop where
  active : m.active = true
  hasWorld : m.entities.HasWorld
  cells : m.entities.world = world

/-- What the guard and the world depend on. -/
def guarding (m : Machine) : Bool × Entities := (m.active, m.entities)

variable {world : Array Cell} {m m' : Machine}

theorem Spares.of_guarding (spares : m.Spares world) (same : m'.guarding = m.guarding) :
    m'.Spares world := by
  obtain ⟨active, entities⟩ := Prod.mk.inj same
  refine ⟨active.trans spares.active, ?_, ?_⟩
  · rw [entities]
    exact spares.hasWorld
  · rw [entities]
    exact spares.cells

end Machine

/-! ## What leaves the world alone -/

section Spares
variable {world : Array Cell}

theorem writeFields_spares {e : EntityIndex} (other : e ≠ .world) (field : UInt32) (cells : Array Cell) :
    (writeFields e field cells).Preserves (fun _ => True) (Spares world) := by
  intro m spares _
  unfold writeFields
  rw [get_bind]
  cases found : m.entities.locate e field cells.size with
  | error stop => exact spares
  | ok position =>
      rw [ok_bind]
      split
      · exact spares
      · obtain ⟨-, -, rfl⟩ := (Entities.locate_iff _ _ _ _ _).mp found
        have behind := Entities.behind_world (t := m.entities) ((EntityIndex.other_iff e).mp other)
        refine ⟨spares.active, ⟨spares.hasWorld.reserved, spares.hasWorld.exist⟩, ?_⟩
        exact (Entities.overwrite_world cells (Nat.le_trans behind (Nat.le_add_right _ _))).trans spares.cells

theorem writeDeclared_spares {e : EntityIndex} (other : e ≠ .world) (cells : Array Cell)
    (field : Option UInt16) : (writeDeclared e cells field).Preserves (fun _ => True) (Spares world) := by
  cases field with
  | none => exact preserves_pure ()
  | some field => exact writeFields_spares other field.toUInt32 cells

theorem refreshFrame_spares {e : EntityIndex} (other : e ≠ .world) (frame : Single) (field : Option UInt16) :
    (refreshFrame e frame field).Preserves (fun _ => True) (Spares world) := by
  cases field with
  | none => exact preserves_pure ()
  | some field =>
      refine preserves_get fun m => preserves_bind (preserves_outcome _) fun current => ?_
      split
      · exact preserves_pure ()
      · exact writeFields_spares other field.toUInt32 _

theorem schedule_spares {m : Machine} (spares : m.Spares world) (frame : Single) (think : Cell)
    (apart : m.selfEntity ≠ .ok .world) : (schedule frame think m).2.Spares world := by
  unfold schedule
  rw [get_bind]
  cases self : m.selfEntity with
  | error stop => exact spares
  | ok e =>
      have other : e ≠ .world := by
        rintro rfl
        exact apart self
      have writes (next : Single) : Run.Preserves (fun _ => True) (Spares world) (do
          writeDeclared e #[.ofSingle next] m.program.fields.nextthink
          refreshFrame e frame m.program.fields.frame
          writeDeclared e #[think] m.program.fields.think) :=
        preserves_bind (writeDeclared_spares other _ _) fun _ =>
          preserves_bind (refreshFrame_spares other _ _) fun _ => writeDeclared_spares other _ _
      rw [ok_bind]
      cases m.time with
      | error stop => exact spares
      | ok now => exact writes _ m spares fun _ _ => trivial

theorem leave_guarding : leave.Leaves guarding := by
  intro m
  rw [leave_apply]
  cases m.departure <;> rfl

theorem unwind_guarding (depth : Nat) : (unwind depth).Leaves guarding := by
  have many (count : Nat) : (leaveMany count).Leaves guarding := by
    induction count with
    | zero => exact leaves_pure ()
    | succ count ih =>
        apply leaves_bind (leaves_attempt leave_guarding)
        intro left
        cases left with
        | ok statement => exact ih
        | error e => exact leaves_pure ()
  exact leaves_bind leaves_get fun m => many _

theorem Reference.spares_tolerates (world : Array Cell) : Tolerates (fun _ => True) (Spares world) where
  globals := fun _ _ _ spares => spares.of_guarding rfl
  strings := fun _ _ _ _ _ spares => spares.of_guarding rfl
  lost := fun _ _ spares => spares.of_guarding rfl
  output := fun _ _ spares => spares.of_guarding rfl
  random := fun _ _ spares => spares.of_guarding rfl
  tracing := fun _ _ spares => spares.of_guarding rfl
  taken := by
    intro m now i chosen spares
    have other : 1 ≤ i := by
      rcases Entities.candidate_some chosen with ⟨above, -⟩ | ⟨rfl, -⟩
      · exact Nat.le_trans spares.hasWorld.reserved above
      · exact spares.hasWorld.exist
    have size : 1 ≤ (m.entities.take i).size := by
      have exist : 1 ≤ m.entities.states.size := spares.hasWorld.exist
      simp only [Entities.take, Entities.size]
      split
      · rwa [Array.size_setIfInBounds]
      · rw [Array.size_push]
        exact Nat.succ_le_succ (Nat.zero_le _)
    exact ⟨spares.active, ⟨spares.hasWorld.reserved, size⟩, (Entities.take_world other).trans spares.cells⟩
  retired := by
    intro m now e fine spares
    have other : 1 ≤ e.toNat := by
      unfold Entities.checkFreeable at fine
      split at fine
      · cases fine
      · rename_i unreserved
        exact Nat.le_trans spares.hasWorld.reserved (Nat.le_of_not_lt unreserved)
    have config : (m.entities.retire e now).config = m.entities.config :=
      congrArg Entities.Outline.config (m.entities.retire_outline e now)
    have size := m.entities.retire_size e now
    refine ⟨spares.active, ⟨?_, ?_⟩, (Entities.retire_world other now).trans spares.cells⟩
    · rw [config]
      exact spares.hasWorld.reserved
    · rw [size]
      exact spares.hasWorld.exist

end Spares

/-! ## Executions -/

/-- What a statement asks for is a change to the world. -/
def Effect.AimsAtWorld (m : Machine) : Effect → Prop
  | .writeField address _ => address.entity = .world
  | .schedule _ _ => m.selfEntity = .ok .world
  | _ => False

/-- The next statement changes the world. -/
def Point.AimsAtWorld (p : Point) : Prop :=
  0 < p.budget ∧ ∃ statement op effect, p.machine.program.statement? p.statement = some statement ∧
    statement.opcode? = some op ∧ p.machine.effect op statement = .ok effect ∧ effect.AimsAtWorld p.machine

section Execute
variable {world : Array Cell} {reenter : FunctionId → Run Unit}

theorem callNative_spares (id : FunctionId) (number : Nat) :
    (callNative .reference reenter id number).Preserves (fun _ => True) (Spares world) := by
  intro m spares _
  rw [callNative_apply]
  cases known : Natives.reference.lookup number with
  | error stop => exact spares
  | ok f =>
      have handed : (m.handed id number f).Spares world := spares.of_guarding rfl
      exact Natives.reference_preserves (Reference.spares_tolerates world) known reenter _ handed
        fun _ _ => trivial

theorem perform_spares {entryDepth s : Nat} {effect : Effect} {m : Machine} (spares : m.Spares world)
    (apart : ¬ effect.AimsAtWorld m) :
    (perform .reference reenter entryDepth s effect m).2.Spares world := by
  have goes {body : Run Unit} (kept : (body m).2.Spares world) (next : Option Nat) :
      ((body >>= fun _ => (pure next : Run (Option Nat))) m).2.Spares world := by
    rw [bind_apply]
    cases outcome : body m with
    | mk result after =>
        rw [outcome] at kept
        cases result <;> exact kept
  cases effect with
  | write offset cells =>
      have kept : (write offset cells).Leaves guarding := write_leaves offset cells fun _ _ _ => rfl
      exact goes (spares.of_guarding (kept m)) _
  | writeField address cells => exact goes (writeFields_spares apart _ _ m spares fun _ _ => trivial) _
  | jump distance => exact spares
  | call callee arguments =>
      have ready : ({ m with argumentCount := arguments } : Machine).Spares world := spares.of_guarding rfl
      rw [perform_call]
      simp only
      cases m.program.function callee with
      | error stop => exact ready
      | ok f =>
          simp only
          cases f.nativeNumber? with
          | some number =>
              have kept : (callNative .reference reenter callee number
                  { m with argumentCount := arguments }).2.Spares world :=
                callNative_spares callee number _ ready fun _ _ => trivial
              simp only
              cases outcome : callNative .reference reenter callee number
                  { m with argumentCount := arguments } with
              | mk result after =>
                  rw [outcome] at kept
                  cases result <;> exact kept
          | none =>
              simp only
              split
              · exact ready.of_guarding rfl
              · exact ready
  | finish offset =>
      have kept : (giveResult offset).Leaves guarding := giveResult_leaves offset fun _ _ _ => rfl
      have finishes : (perform .reference reenter entryDepth s (.finish offset)).Leaves guarding := by
        refine leaves_bind kept fun _ => leaves_bind leave_guarding fun caller => leaves_get_bind fun m => ?_
        split <;> rfl
      exact spares.of_guarding (finishes m)
  | schedule frame think => exact goes (schedule_spares spares frame think apart) _

theorem step_spares {entryDepth budget s : Nat} {m : Machine} (spares : m.Spares world)
    (apart : ¬ Point.AimsAtWorld ⟨budget + 1, s, m⟩) :
    (step .reference reenter entryDepth s m).2.Spares world := by
  rw [step_apply]
  cases statement : m.program.statement? s with
  | none => exact spares
  | some asked =>
      have fetched : (m.fetched s asked).Spares world := spares.of_guarding rfl
      simp only
      split
      · cases opcode : asked.opcode? with
        | none => exact fetched
        | some op =>
            simp only
            cases asks : m.effect op asked with
            | error stop => exact fetched
            | ok effect =>
                refine perform_spares fetched fun aims => apart ⟨Nat.succ_pos _, asked, op, effect, ?_⟩
                refine ⟨statement, opcode, asks, ?_⟩
                cases effect <;> exact aims
      · exact spares

theorem loop_spares {entryDepth budget s : Nat} {m : Machine} (spares : m.Spares world) :
    (loop .reference reenter entryDepth budget s m).2.Spares world ∨
      ∃ p, Travels .reference reenter entryDepth (fun _ => True) ⟨budget, s, m⟩ p ∧ p.AimsAtWorld := by
  induction budget generalizing s m with
  | zero => exact .inl spares
  | succ budget ih =>
      by_cases aims : Point.AimsAtWorld ⟨budget + 1, s, m⟩
      · exact .inr ⟨_, .stay _, aims⟩
      · have kept : (step .reference reenter entryDepth s m).2.Spares world := step_spares spares aims
        rw [loop]
        cases outcome : step .reference reenter entryDepth s m with
        | mk result after =>
            rw [outcome] at kept
            rcases result with stop | (_ | next)
            · exact .inl kept
            · exact .inl kept
            · rcases ih (s := next) kept with done | ⟨p, travels, aims⟩
              · exact .inl done
              · exact .inr ⟨p, .go trivial outcome travels, aims⟩

end Execute

namespace Execution
variable {world : Array Cell} (e : Execution)

theorem performance_spares (spares : e.start.Spares world) :
    (e.performance .reference).2.Spares world ∨ ∃ p, e.Reaches .reference p ∧ p.AimsAtWorld := by
  rw [performance_apply]
  cases found : e.start.program.function e.id with
  | error stop => exact .inl spares
  | ok f =>
      have ready : (e.ready f).Spares world := spares.of_guarding rfl
      simp only
      cases native : f.nativeNumber? with
      | some number => exact .inl (callNative_spares e.id number _ ready fun _ _ => trivial)
      | none =>
          simp only
          cases admitted : (e.ready f).admission e.id f with
          | error stop => exact .inl ready
          | ok entry =>
              obtain ⟨saved, moves⟩ := entry
              have entered : ((e.ready f).entered e.id saved moves).Spares world := ready.of_guarding rfl
              rcases loop_spares entered with done | ⟨p, travels, aims⟩
              · exact .inl done
              · exact .inr ⟨p, ⟨_, .entered found native admitted, travels⟩, aims⟩

theorem outcome_spares (spares : e.start.Spares world) :
    (e.outcome .reference).2.Spares world ∨ ∃ p, e.Reaches .reference p ∧ p.AimsAtWorld := by
  rcases e.performance_spares spares with kept | aims
  · have guards : ∀ body : Run Unit, (body e.start).2.Spares world → (guarded body e.start).2.Spares world := by
      intro body kept
      rw [guarded_apply]
      cases outcome : body e.start with
      | mk result after =>
          rw [outcome] at kept
          rcases result with (_ | _ | error) | done
          · exact kept
          · exact kept
          · have unwound := kept.of_guarding (unwind_guarding e.start.depth after)
            simp only
            cases after.located error with
            | error stop => exact kept
            | ok found =>
                simp only
                cases unwinding : unwind e.start.depth after with
                | mk result last =>
                    rw [unwinding] at unwound
                    cases result <;> exact unwound
          · exact kept
    exact .inl (guards _ kept)
  · exact .inr aims

end Execution

theorem Natives.reference_active :
    Natives.reference.Preserve (fun _ => True) fun (_ : Unit) d => d.active = true := by
  intro number f reenter known _ _
  have tolerates : Reference.Tolerates (fun _ => True) fun m => m.durable.active = true :=
    { globals := fun _ _ _ active => active
      strings := fun _ _ _ _ _ active => active
      lost := fun _ _ active => active
      output := fun _ _ active => active
      random := fun _ _ active => active
      tracing := fun _ _ active => active
      taken := fun _ _ _ _ active => active
      retired := fun _ _ _ _ active => active }
  exact reference_preserves tolerates known reenter

/-! ## Calls -/

namespace Session

/-- What a call does before it runs the function. -/
def prepare : Play Unit := do
  onMachine (Machine.setTime (← get).time)
  onMachine (Machine.setSelf .world)
  onMachine (Machine.setOther .world)

/-- The call of a function comes to this execution. -/
inductive Calls (s : Session) (name : String) : Execution → Prop
  | runs {id ready} : prepare s = (.ok (), ready) → ready.machine.program.image.findFunction? name = some id →
      Calls s name ⟨nestingBound - 1, id, ready.machine⟩

/-- The point is reached in one of some calls in turn. -/
def Passes (s : Session) (names : List String) (p : Point) : Prop :=
  ∃ earlier name later e, names = earlier ++ name :: later ∧
    (inTurn (earlier.map call) s).2.Calls name e ∧ e.Reaches .reference p

theorem Passes.later {s : Session} {name : String} {rest : List String} {p : Point}
    (passes : (call name s).2.Passes rest p) : s.Passes (name :: rest) p := by
  obtain ⟨earlier, other, later, e, rfl, calls, reached⟩ := passes
  exact ⟨name :: earlier, other, later, e, rfl, calls, reached⟩

theorem call_eq (name : String) : call name = prepare >>= fun _ => executeNamed name := by
  simp only [call, prepare, bind_assoc]

theorem prepare_guarding (s : Session) :
    (prepare s).2.machine.guarding = s.machine.guarding ∧ (prepare s).2.natives = s.natives := by
  have writes (place : SystemGlobals → Option UInt16) (value : Cell) :
      Agrees (fun _ => True) (fun a b => b = a ∧ a.machine.guarding = s.machine.guarding ∧ a.natives = s.natives)
        (onMachine (writeSystem place value)) := by
    apply agrees_diagonal
    intro a kept _
    have leaves : (writeSystem place value).Leaves guarding := writeSystem_leaves place value fun _ _ _ => rfl
    exact ⟨(leaves a.machine).trans kept.1, kept.2⟩
  have prepares : Agrees (fun _ => True)
      (fun a b => b = a ∧ a.machine.guarding = s.machine.guarding ∧ a.natives = s.natives) prepare :=
    agrees_get (fun a b same => by rw [same.1]) fun a =>
      agrees_bind (writes _ _) fun _ => agrees_bind (writes _ _) fun _ => writes _ _
  exact ((prepares s s ⟨rfl, rfl, rfl⟩).2 fun _ _ => trivial).2

theorem Calls.guarding {s : Session} {name : String} {e : Execution} (calls : s.Calls name e) :
    e.start.guarding = s.machine.guarding := by
  cases calls with
  | runs prepared _ =>
      have kept := (prepare_guarding s).1
      rw [prepared] at kept
      exact kept

theorem call_runs {s : Session} (natives : s.natives = .reference) (name : String) :
    (call name s).2.natives = .reference ∧ ((call name s).2.machine.guarding = s.machine.guarding ∨
      ∃ e, s.Calls name e ∧ (call name s).2.machine = (e.outcome .reference).2) := by
  obtain ⟨guarding, same⟩ := prepare_guarding s
  rw [call_eq, bind_apply]
  cases prepared : prepare s with
  | mk result ready =>
      rw [prepared] at guarding same
      have reference : ready.natives = .reference := same.trans natives
      cases result with
      | error stop => exact ⟨reference, .inl guarding⟩
      | ok done =>
          simp only [executeNamed_apply]
          cases found : ready.machine.program.image.findFunction? name with
          | none => exact ⟨reference, .inl guarding⟩
          | some id =>
              simp only [execute_apply, reference]
              exact ⟨trivial, .inr ⟨_, .runs prepared found, rfl⟩⟩

theorem calls_active {s : Session} (natives : s.natives = .reference) (active : s.machine.active = true)
    (names : List String) : (inTurn (names.map call) s).2.machine.active = true := by
  induction names generalizing s with
  | nil => exact active
  | cons name rest ih =>
      obtain ⟨reference, came⟩ := call_runs natives name
      have still : (call name s).2.machine.active = true := by
        rcases came with same | ⟨e, calls, ran⟩
        · exact (congrArg Prod.fst same).trans active
        · have started : e.start.durable.active = true := (congrArg Prod.fst calls.guarding).trans active
          rw [ran]
          exact execute_preserves (fun _ => trivial) Natives.reference_active (e.nesting + 1) e.id () e.start
            started fun _ _ => trivial
      exact ih reference still

theorem calls_spare {world : Array Cell} {s : Session} (natives : s.natives = .reference)
    (spares : s.machine.Spares world) (names : List String) :
    (inTurn (names.map call) s).2.machine.Spares world ∨ ∃ p, s.Passes names p ∧ p.AimsAtWorld := by
  induction names generalizing s with
  | nil => exact .inl spares
  | cons name rest ih =>
      obtain ⟨reference, came⟩ := call_runs natives name
      have here : (call name s).2.machine.Spares world ∨ ∃ p, s.Passes (name :: rest) p ∧ p.AimsAtWorld := by
        rcases came with same | ⟨e, calls, ran⟩
        · exact .inl (spares.of_guarding same)
        · rcases e.outcome_spares (spares.of_guarding calls.guarding) with kept | ⟨p, reached, aims⟩
          · rw [ran]
            exact .inl kept
          · exact .inr ⟨p, ⟨[], name, rest, e, rfl, calls, reached⟩, aims⟩
      rcases here with kept | aimed
      · rcases ih reference kept with done | ⟨p, passes, aims⟩
        · exact .inl done
        · exact .inr ⟨p, passes.later, aims⟩
      · exact .inr aimed

/-- While the world is active no statement is given an address into it, and when calls change the world one of
them got to a statement that names the world otherwise. -/
theorem world_changes_by_aim {s : Session} (natives : s.natives = .reference)
    (active : s.machine.active = true) (hasWorld : s.machine.entities.HasWorld) (names : List String) :
    let after := (inTurn (names.map call) s).2
    after.machine.active = true ∧
      (∀ p, s.Passes names p → ∀ e field address, p.machine.fieldAddress e field = .ok address →
        address.entity ≠ .world) ∧
      (after.machine.entities.world ≠ s.machine.entities.world → ∃ p, s.Passes names p ∧ p.AimsAtWorld) := by
  refine ⟨calls_active natives active names, ?_, fun changed => ?_⟩
  · rintro p ⟨earlier, name, later, execution, rfl, calls, reached⟩ e field address
    have before := calls_active natives active earlier
    have started : execution.start.durable.active = true := (congrArg Prod.fst calls.guarding).trans before
    have active : p.machine.durable.active = true :=
      Execution.reached_preserves reached Natives.reference_active (i := ()) started
    exact fieldAddress_guards active
  · have spares : s.machine.Spares s.machine.entities.world := ⟨active, hasWorld, rfl⟩
    rcases calls_spare natives spares names with kept | aimed
    · exact absurd kept.cells changed
    · exact aimed

/-- A function that stores a number through a cell which was never set, so that it names the first field of the
world. -/
def poking : Program where
  image := {
    statements := #[⟨0, 0, 0, 0⟩, ⟨37, 28, 29, 0⟩, ⟨0, 0, 0, 0⟩]
    functions := #[{}, { first := 1, name := ⟨1⟩ }]
    globals := Array.replicate 28 ⟨0⟩ ++ #[⟨0x3f800000⟩, ⟨0⟩]
    strings := { StringPool.empty with data := "\x00poke\x00" }
    entityFields := 1 }
  globals := {}
  fields := {}
  sound := by decide +kernel
  globals_eq := show _ = Image.systemGlobals _ from rfl
  fields_eq := show _ = Image.systemFields _ from rfl

theorem poking_found : poking.image.findFunction? "poke" = some ⟨1⟩ := by
  have poke : poking.image.strings.resolve ⟨1⟩ = "poke" :=
    StringPool.resolve_stored "\x00" "" rfl rfl (by simp [StringPool.Plain])
  have functions : poking.image.functions.toList = [{}, { first := 1, name := ⟨1⟩ }] := rfl
  simp [Image.findFunction?, functions, poke, FunctionId.ofNat]

def poked : Session := (activate (ofMachine (.create poking {}) .reference)).2

theorem poked_call : call "poke" poked = execute ⟨1⟩ poked := by
  rw [call_eq, bind_apply]
  have prepared : prepare poked = (.ok (), poked) := rfl
  rw [prepared]
  simp only
  rw [executeNamed_apply]
  have program : poked.machine.program = poking := rfl
  rw [program, poking_found]

theorem world_changes_by_aim_poking :
    poked.natives = .reference ∧ poked.machine.active = true ∧ poked.machine.entities.HasWorld ∧
      (inTurn (["poke"].map call) poked).2.machine.entities.world ≠ poked.machine.entities.world ∧
      ∃ p, poked.Passes ["poke"] p ∧ p.AimsAtWorld := by
  have natives : poked.natives = .reference := rfl
  have active : poked.machine.active = true := rfl
  have hasWorld : poked.machine.entities.HasWorld := (Entities.create_wellFormed poking.layout {}).hasWorld
  have changed : (inTurn (["poke"].map call) poked).2.machine.entities.world ≠
      poked.machine.entities.world := by
    change (call "poke" poked).2.machine.entities.world ≠ _
    rw [poked_call]
    decide +kernel
  have laws := world_changes_by_aim natives active hasWorld ["poke"]
  exact ⟨natives, active, hasWorld, changed, laws.2.2 changed⟩

/-- A call that succeeds may change the world of an active session. -/
theorem active_world_changes :
    poked.machine.active = true ∧ (call "poke" poked).1 = .ok () ∧
      (call "poke" poked).2.machine.entities.world ≠ poked.machine.entities.world := by
  rw [poked_call]
  decide +kernel

end Session
end EntityMachine
