import EntityMachine.Proofs.PoolCoherence
import EntityMachine.Proofs.ReferenceNatives
import EntityMachine.Proofs.Sessions

/-!
Frames. The records that are in use when a frame starts take turns in ascending order, whatever thinks do
to the table meanwhile: a turn decides by the record as it is then. The clock waits for the last turn.
-/
namespace EntityMachine
open Machine Run

namespace Entities

theorem WellFormed.get_ok {t : Entities} (well : t.WellFormed) {e : EntityIndex} {field : UInt32}
    (known : e.toNat < t.size) (inside : field.toNat < t.layout.fieldCount) :
    ∃ cell, t.get e field = .ok cell := by
  have located := (locate_iff t e field 1 _).mpr ⟨known, inside, rfl⟩
  have fits := well.located_inside located
  refine ⟨t.cells[t.base e + field.toNat], ?_⟩
  rw [get, located, Outcome.ok_bind, cell, Array.getElem?_eq_getElem fits]
  rfl

theorem get_overwrite {t : Entities} (well : t.WellFormed) {e : EntityIndex} {field : UInt32}
    (known : e.toNat < t.size) (inside : field.toNat < t.layout.fieldCount) (value : Cell) :
    (t.overwrite (t.base e + field.toNat) #[value]).get e field = .ok value := by
  have located := (locate_iff t e field 1 _).mpr ⟨known, inside, rfl⟩
  have fits := well.located_inside located
  have again := (locate_iff (t.overwrite (t.base e + field.toNat) #[value]) e field 1 _).mpr
    ⟨known, inside, rfl⟩
  have stored : (t.overwrite (t.base e + field.toNat) #[value]).cells[t.base e + field.toNat]? =
      some value := by
    rw [overwrite, Segment.storeAll_get, if_pos ⟨Nat.le_refl _, Nat.lt_succ_self _, fits⟩, Nat.sub_self]
    rfl
  rw [get, again, Outcome.ok_bind, cell]
  exact congrArg Outcome.ofOption stored

end Entities

namespace Session

theorem machine_bind (body : Run α) (next : α → Play β) (s : Session) :
    (onMachine body >>= next) s = match body s.machine with
      | (.ok a, machine) => next a { s with machine }
      | (.error stop, machine) => (.error stop, { s with machine }) := by
  rw [bind_apply]
  unfold onMachine
  cases body s.machine with
  | mk result machine => cases result <;> rfl

theorem machine_bind_ok {body : Run α} (next : α → Play β) {s : Session} {a : α} {machine : Machine}
    (done : body s.machine = (.ok a, machine)) :
    (onMachine body >>= next) s = next a { s with machine } := by
  rw [machine_bind, done]

@[simp] theorem get_bind (next : Session → Play β) (s : Session) : (get >>= next) s = next s s := rfl

@[simp] theorem ok_bind (a : α) (next : α → Play β) (s : Session) :
    ((liftM (Except.ok a : Outcome α) : Play α) >>= next) s = next a s := rfl

@[simp] theorem error_bind (stop : Stop) (next : α → Play β) (s : Session) :
    ((liftM (Except.error stop : Outcome α) : Play α) >>= next) s = (.error stop, s) := rfl

/-! ## Thinking -/

/-- The record is in use, and its next think has come. -/
def Due (nextthink : UInt16) (deadline : Single) (e : EntityIndex) (s : Session) : Prop :=
  s.machine.entities.isFree e = false ∧
    ∃ scheduled, s.machine.entities.single e nextthink.toUInt32 = .ok scheduled ∧
      scheduled.le .zero = false ∧ deadline.lt scheduled = false

/-- What a think function finds: no next think, and its own record as self. Only cells are new. -/
structure Ready (nextthink : UInt16) (e : EntityIndex) (s ready : Session) : Prop where
  cleared : ready.machine.entities.single e nextthink.toUInt32 = .ok .zero
  bound : ∀ offset, s.machine.program.globals.self = some offset →
    s.machine.program.globals.other ≠ some offset →
      ready.machine.cell offset.toNat = .ok (.ofEntity e)
  durable : ready.machine.durable = s.machine.durable
  natives : ready.natives = s.natives

structure Thinks (p : Program) (think nextthink : UInt16) : Prop where
  think : p.fields.think = some think
  nextthink : p.fields.nextthink = some nextthink

theorem Thinks.fits {p : Program} {think nextthink : UInt16} (thinks : Thinks p think nextthink) :
    think.toUInt32.toNat < p.layout.fieldCount ∧ nextthink.toUInt32.toNat < p.layout.fieldCount := by
  have first : some think ∈ p.fields.toList := by simp [SystemFields.toList, thinks.think]
  have second : some nextthink ∈ p.fields.toList := by simp [SystemFields.toList, thinks.nextthink]
  rw [UInt16.toNat_toUInt32, UInt16.toNat_toUInt32]
  exact ⟨p.fields_fit first, p.fields_fit second⟩

structure Fit (program : Program) (natives : Natives) (s : Session) : Prop where
  sound : s.machine.Sound
  program : s.machine.program = program
  natives : s.natives = natives

structure Paused (s t : Session) : Prop where
  time : t.time = s.time
  frame : t.frame = s.frame

theorem Paused.refl (s : Session) : s.Paused s := ⟨rfl, rfl⟩

theorem Paused.trans {s t u : Session} (first : s.Paused t) (second : t.Paused u) : s.Paused u :=
  ⟨second.time.trans first.time, second.frame.trans first.frame⟩

def systemSet (s : Session) (place : SystemGlobals → Option UInt16) (value : Cell) : Session :=
  { s with machine := s.machine.systemWritten place value }

def cleared (s : Session) (nextthink : UInt16) (e : EntityIndex) : Session :=
  { s with machine := { s.machine with
    entities := s.machine.entities.overwrite (s.machine.entities.base e + nextthink.toUInt32.toNat)
      #[.zero] } }

theorem systemSet_durable (s : Session) (place : SystemGlobals → Option UInt16) (value : Cell) :
    (s.systemSet place value).machine.durable = s.machine.durable := by
  rw [systemSet, systemWritten_eq]
  exact s.machine.durable_of_globals (s.machine.systemWritten_size place value)

theorem cleared_durable (s : Session) (nextthink : UInt16) (e : EntityIndex) :
    (s.cleared nextthink e).machine.durable = s.machine.durable :=
  s.machine.durable_of_entities (Entities.overwrite_outline _ _ _)

def readied (s : Session) (nextthink : UInt16) (e : EntityIndex) (scheduled : Single) : Session :=
  (((s.cleared nextthink e).systemSet (·.time) (.ofSingle (scheduled.max s.time))).systemSet (·.self)
    (.ofEntity e)).systemSet (·.other) (.ofEntity .world)

theorem readied_eq (s : Session) (nextthink : UInt16) (e : EntityIndex) (scheduled : Single) :
    s.readied nextthink e scheduled = (((s.cleared nextthink e).systemSet (·.time)
      (.ofSingle (scheduled.max (s.cleared nextthink e).time))).systemSet (·.self)
        (.ofEntity e)).systemSet (·.other) (.ofEntity .world) := rfl

section Thinking
variable {program : Program} {natives : Natives} {think nextthink : UInt16} {deadline : Single}
  {s : Session} {e : EntityIndex}

theorem Fit.layout (fit : s.Fit program natives) : s.machine.entities.layout = program.layout := by
  rw [fit.sound.layout, fit.program]

theorem systemSet_fit (fit : s.Fit program natives) (place : SystemGlobals → Option UInt16)
    (value : Cell) : (s.systemSet place value).Fit program natives := by
  have machine := s.machine.systemWritten_eq place value
  refine ⟨fit.sound.of_shape ?_, ?_, fit.natives⟩
  · rw [systemSet, machine]
    exact s.machine.shape_of_globals (s.machine.systemWritten_size place value)
  · exact (s.machine.systemWritten_program place value).trans fit.program

theorem cleared_fit (fit : s.Fit program natives) : (s.cleared nextthink e).Fit program natives where
  sound := fit.sound.of_shape (s.machine.shape_of_entities (Entities.overwrite_outline _ _ _))
  program := fit.program
  natives := fit.natives

theorem readied_fit (fit : s.Fit program natives) (scheduled : Single) :
    (s.readied nextthink e scheduled).Fit program natives :=
  systemSet_fit (systemSet_fit (systemSet_fit (cleared_fit fit) _ _) _ _) _ _

theorem systemSet_bind (fit : s.Fit program natives) (place : SystemGlobals → Option UInt16)
    (fits : ∀ p : Program, ∀ offset, place p.globals = some offset → offset.toNat < p.image.globals.size)
    (value : Cell) (next : Unit → Play β) :
    (onMachine (writeSystem place value) >>= next) s = next () (s.systemSet place value) := by
  apply machine_bind_ok
  apply writeSystem_apply
  rw [fit.sound.segment]
  exact fits s.machine.program

theorem cleared_bind (fit : s.Fit program natives) (thinks : Thinks program think nextthink)
    (known : e.toNat < s.machine.entities.size) (next : Unit → Play β) :
    (onMachine (writeFields e nextthink.toUInt32 #[.zero]) >>= next) s =
      next () (s.cleared nextthink e) := by
  have located := (Entities.locate_iff s.machine.entities e nextthink.toUInt32 1 _).mpr
    ⟨known, fit.layout ▸ thinks.fits.2, rfl⟩
  have held : s.machine.entities.holds
      (s.machine.entities.base e + nextthink.toUInt32.toNat) 1 = true :=
    decide_eq_true (fit.sound.entities.located_inside located)
  have one : (#[Cell.zero] : Array Cell).size = 1 := rfl
  apply machine_bind_ok
  unfold writeFields
  simp only [Run.get_bind, one, located, Run.ok_bind, held]
  rfl

theorem readied_ready (fit : s.Fit program natives) (thinks : Thinks program think nextthink)
    (known : e.toNat < s.machine.entities.size) (scheduled : Single) :
    Ready nextthink e s (s.readied nextthink e scheduled) := by
  refine ⟨?_, ?_, ?_, rfl⟩
  · have entities : (s.readied nextthink e scheduled).machine.entities =
        (s.cleared nextthink e).machine.entities := by
      simp only [readied, systemSet]
      rw [systemWritten_eq, systemWritten_eq _ (·.self), systemWritten_eq _ (·.time)]
    have stored := Entities.get_overwrite fit.sound.entities known (fit.layout ▸ thinks.fits.2) .zero
    rw [entities, cleared, Entities.single, stored]
    rfl
  · intro offset placed apart
    -- The last of the three writes goes elsewhere, and the one before it is the one looked for.
    have inside : offset.toNat < s.machine.globals.size := by
      rw [fit.sound.segment]
      exact s.machine.program.self_fits placed
    have elsewhere : ∀ other, s.machine.program.globals.other = some other →
        other.toNat ≠ offset.toNat := by
      intro other same equal
      exact apart (UInt16.toNat_inj.mp equal ▸ same)
    have found : (s.readied nextthink e scheduled).machine.globals.get? offset.toNat =
        some (.ofEntity e) := by
      simp only [readied, systemSet, cleared]
      rw [systemWritten_other (by simpa using elsewhere)]
      exact systemWritten_get (by simpa using placed) (by simpa using inside) _
    rw [cell, found]
    rfl
  · exact (systemSet_durable _ _ _).trans ((systemSet_durable _ _ _).trans
      ((systemSet_durable _ _ _).trans (s.cleared_durable nextthink e)))

theorem single_known {t : Entities} {field : UInt32} {x : Single} (read : t.single e field = .ok x) :
    e.toNat < t.size := by
  rw [Entities.single, Outcome.map_ok_iff, Entities.get] at read
  obtain ⟨cell, found, -⟩ := read
  cases located : t.locate e field 1 with
  | ok position => exact ((Entities.locate_iff t e field 1 position).mp located).1
  | error stop =>
      rw [located] at found
      cases found

theorem runThink_apply (fit : s.Fit program natives) (thinks : Thinks program think nextthink)
    {scheduled : Single} (used : s.machine.entities.isFree e = false)
    (read : s.machine.entities.single e nextthink.toUInt32 = .ok scheduled) :
    ∃ cell, s.machine.entities.get e think.toUInt32 = .ok cell ∧
      runThink e s = match execute cell.function (s.readied nextthink e scheduled) with
        | (.ok _, t) => (.ok !t.machine.entities.isFree e, t)
        | (.error stop, t) => (.error stop, t) := by
  have known := single_known read
  obtain ⟨cell, function⟩ := fit.sound.entities.get_ok known (fit.layout ▸ thinks.fits.1)
  refine ⟨cell, function, ?_⟩
  have first : s.machine.program.fields.think = some think := by rw [fit.program, thinks.think]
  have second : s.machine.program.fields.nextthink = some nextthink := by
    rw [fit.program, thinks.nextthink]
  have ready : (s.cleared nextthink e).Fit program natives := cleared_fit fit
  have timed := systemSet_fit ready (·.time) (.ofSingle (scheduled.max (s.cleared nextthink e).time))
  rw [runThink, get_bind]
  simp only [first, second, used, read, function, Bool.false_eq_true, ↓reduceIte, Machine.setTime, setSelf,
    setOther]
  rw [ok_bind, ok_bind, cleared_bind fit thinks known, get_bind,
    systemSet_bind ready (·.time) fun p _ => p.time_fits,
    systemSet_bind timed (·.self) fun p _ => p.self_fits,
    systemSet_bind (systemSet_fit timed _ _) (·.other) fun p _ => p.other_fits, ← readied_eq, bind_apply]
  cases execute cell.function (s.readied nextthink e scheduled) with
  | mk result t => cases result <;> rfl

theorem execute_fit (keep : natives.KeepSound) (fit : s.Fit program natives) (id : FunctionId) :
    s.Paused (execute id s).2 ∧ (Returned (execute id s).1 → (execute id s).2.Fit program natives) := by
  obtain ⟨sound, rfl, rfl⟩ := fit
  refine ⟨⟨rfl, rfl⟩, fun returned => ?_⟩
  obtain ⟨sound, program⟩ := execute_sound keep nestingBound id sound returned
  exact ⟨sound, program, rfl⟩

/-! ## Turns -/

/-- What became of one record when its turn came. -/
structure Turn where
  entity : EntityIndex
  before : Session
  thinks : Bool
  outcome : Outcome Unit
  after : Session

/-- The record thinks if it is due at that moment, and otherwise nothing happens. Only a record that is
gone from the table has no next think to read. -/
structure Turn.Fair (think nextthink : UInt16) (deadline : Single) (turn : Turn) : Prop where
  decided : turn.thinks = true ↔ Due nextthink deadline turn.entity turn.before
  runs : turn.thinks = true → ∃ cell ready,
    turn.before.machine.entities.get turn.entity think.toUInt32 = .ok cell ∧
      Ready nextthink turn.entity turn.before ready ∧
        execute cell.function ready = (turn.outcome, turn.after)
  rests : turn.thinks = false → turn.after = turn.before ∧
    (turn.outcome = .ok () ∨ turn.before.machine.entities.size ≤ turn.entity.toNat)

theorem single_missing (sound : s.machine.Sound) {field : UInt32} {stop : Stop}
    (inside : field.toNat < s.machine.entities.layout.fieldCount)
    (unread : s.machine.entities.single e field = .error stop) :
    s.machine.entities.size ≤ e.toNat := by
  apply Nat.le_of_not_lt
  intro known
  obtain ⟨cell, found⟩ := sound.entities.get_ok known inside
  rw [Entities.single, found] at unread
  cases unread

theorem runThinks_turn (keep : natives.KeepSound) (fit : s.Fit program natives)
    (thinks : Thinks program think nextthink) (deadline : Single) (e : EntityIndex)
    (rest : List EntityIndex) (count : Nat) :
    ∃ turn : Turn, turn.entity = e ∧ turn.before = s ∧ turn.Fair think nextthink deadline ∧
      s.Paused turn.after ∧ (turn.outcome = .ok () → turn.after.Fit program natives) ∧
      runThinks nextthink deadline (e :: rest) count s = match turn.outcome with
        | .ok _ => runThinks nextthink deadline rest (count + turn.thinks.toNat) turn.after
        | .error stop => (.error stop, turn.after) := by
  -- A turn without a think leaves the session alone.
  have idle (outcome : Outcome Unit) (waits : ¬ Due nextthink deadline e s)
      (fine : outcome = .ok () ∨ s.machine.entities.size ≤ e.toNat) :
      Turn.Fair think nextthink deadline ⟨e, s, false, outcome, s⟩ :=
    ⟨⟨nofun, fun due => absurd due waits⟩, nofun, fun _ => ⟨rfl, fine⟩⟩
  rw [runThinks, get_bind]
  cases used : s.machine.entities.isFree e with
  | true =>
      refine ⟨⟨e, s, false, .ok (), s⟩, rfl, rfl, idle _ ?_ (.inl rfl), .refl s, fun _ => fit, ?_⟩
      · rintro ⟨used', -⟩
        rw [used] at used'
        cases used'
      · rfl
  | false =>
      simp only [Bool.false_eq_true, ↓reduceIte]
      cases read : s.machine.entities.single e nextthink.toUInt32 with
      | error stop =>
          have gone := single_missing fit.sound (fit.layout ▸ thinks.fits.2) read
          refine ⟨⟨e, s, false, .error stop, s⟩, rfl, rfl, idle _ ?_ (.inr gone), .refl s, nofun, ?_⟩
          · rintro ⟨-, scheduled, found, -⟩
            rw [read] at found
            cases found
          · rfl
      | ok scheduled =>
          rw [ok_bind]
          cases due : isDue scheduled deadline with
          | false =>
              refine ⟨⟨e, s, false, .ok (), s⟩, rfl, rfl, idle _ ?_ (.inl rfl), .refl s, fun _ => fit, ?_⟩
              · rintro ⟨-, again, found, positive, soon⟩
                rw [read] at found
                cases found
                simp [isDue, positive, soon] at due
              · rfl
          | true =>
              obtain ⟨cell, function, runs⟩ := runThink_apply fit thinks used read
              have ready := readied_ready fit thinks (single_known read) scheduled
              obtain ⟨paused, after⟩ := execute_fit keep (readied_fit fit scheduled) cell.function
              cases ran : execute cell.function (s.readied nextthink e scheduled) with
              | mk result t =>
                  rw [ran] at runs paused after
                  have positive : scheduled.le .zero = false ∧ deadline.lt scheduled = false := by
                    simpa [isDue] using due
                  refine ⟨⟨e, s, true, result, t⟩, rfl, rfl,
                    ⟨⟨fun _ => ⟨used, scheduled, read, positive⟩, fun _ => rfl⟩,
                      fun _ => ⟨cell, _, function, ready, ran⟩, nofun⟩,
                    ⟨paused.time, paused.frame⟩, ?_, ?_⟩
                  · rintro rfl
                    exact after (returned_ok _)
                  · simp only [↓reduceIte]
                    rw [bind_apply, runs]
                    cases result <;> rfl

end Thinking

/-! ## Whole frames -/

def Chained : Session → List Turn → Session → Prop
  | s, [], last => last = s
  | s, turn :: rest, last => turn.before = s ∧ Chained turn.after rest last

/-- What the turns of some records come to: either each had its turn, or the last turn taken failed. -/
inductive Closes (records : List EntityIndex) (turns : List Turn) : Outcome Nat → Prop
  | all (count : Nat) : turns.map (·.entity) = records → (∀ turn ∈ turns, turn.outcome = .ok ()) →
      count = turns.countP (·.thinks) → Closes records turns (.ok count)
  | fails {earlier : List Turn} {failing : Turn} {stop : Stop} : turns = earlier ++ [failing] →
      turns.map (·.entity) <+: records → (∀ turn ∈ earlier, turn.outcome = .ok ()) →
      failing.outcome = .error stop → Closes records turns (.error stop)

theorem Closes.listed {records : List EntityIndex} {turns : List Turn} {result : Outcome Nat}
    (closes : Closes records turns result) : turns.map (·.entity) <+: records := by
  cases closes with
  | all _ every => exact every ▸ List.prefix_rfl
  | fails _ listed => exact listed

section Frame
variable {program : Program} {natives : Natives} {think nextthink : UInt16}

theorem runThinks_turns (keep : natives.KeepSound) (thinks : Thinks program think nextthink)
    (deadline : Single) (records : List EntityIndex) (count : Nat) {s : Session}
    (fit : s.Fit program natives) :
    ∃ turns last result, Chained s turns last ∧ (∀ turn ∈ turns, turn.Fair think nextthink deadline) ∧
      s.Paused last ∧ Closes records turns result ∧
      ((∃ total, result = .ok total) → last.Fit program natives) ∧
      runThinks nextthink deadline records count s = (result.map (count + ·), last) := by
  induction records generalizing count s with
  | nil =>
      exact ⟨[], s, .ok 0, rfl, by simp, .refl s, .all 0 rfl (by simp) rfl, fun _ => fit, rfl⟩
  | cons e rest ih =>
      obtain ⟨turn, entity, before, fair, paused, after, runs⟩ :=
        runThinks_turn keep fit thinks deadline e rest count
      cases outcome : turn.outcome with
      | error stop =>
          rw [outcome] at runs
          have listed : [turn].map (·.entity) <+: e :: rest := by simp [entity]
          exact ⟨[turn], turn.after, .error stop, ⟨before, rfl⟩, by simpa using fair, paused,
            .fails (List.nil_append [turn]).symm listed (by simp) outcome, by simp, runs⟩
      | ok done =>
          obtain ⟨turns, last, result, chained, fairs, later, closes, ends, onward⟩ :=
            ih (count + turn.thinks.toNat) (after outcome)
          rw [outcome] at runs
          refine ⟨turn :: turns, last, result.map (turn.thinks.toNat + ·), ⟨before, chained⟩,
            List.forall_mem_cons.mpr ⟨fair, fairs⟩, paused.trans later, ?_, ?_, ?_⟩
          · cases closes with
            | all total every fine counted =>
                subst every counted
                refine .all _ (by rw [List.map_cons, entity]) (List.forall_mem_cons.mpr ⟨outcome, fine⟩) ?_
                rw [List.countP_cons]
                cases turn.thinks <;> simp [Nat.add_comm]
            | @fails earlier failing stop split listed fine failed =>
                subst split
                refine .fails (List.cons_append).symm ?_ (List.forall_mem_cons.mpr ⟨outcome, fine⟩) failed
                rw [List.map_cons, entity]
                exact (List.prefix_cons_inj e).mpr listed
          · rintro ⟨total, finished⟩
            cases result with
            | ok count => exact ends ⟨count, rfl⟩
            | error stop => cases finished
          · simp only [runs, onward]
            cases result with
            | ok total => simp [Except.map, Nat.add_assoc]
            | error stop => rfl

theorem live_ascending {t : Entities} (well : t.WellFormed) :
    t.live.Pairwise (·.toNat < ·.toNat) ∧ ∀ i, t.InUse i ↔ ∃ e ∈ t.live, e.toNat = i := by
  have indices := Entities.live_indices well
  constructor
  · rw [← List.pairwise_map (f := EntityIndex.toNat), indices]
    exact List.pairwise_lt_range.filter _
  · intro i
    rw [← List.mem_map, indices, List.mem_filter, List.mem_range, Entities.uses_iff]
    exact ⟨fun used => ⟨used.inside, used⟩, fun used => used.2⟩

/-- The turns of a frame. No record that was in use is passed over on the way. -/
structure Schedule (think nextthink : UInt16) (deadline : Single) (s : Session) (turns : List Turn)
    (last : Session) : Prop where
  chained : Chained s turns last
  ascending : turns.Pairwise (·.entity.toNat < ·.entity.toNat)
  started : ∀ turn ∈ turns, s.machine.entities.InUse turn.entity.toNat
  complete : ∀ turn ∈ turns, ∀ i, s.machine.entities.InUse i → i ≤ turn.entity.toNat →
    ∃ earlier ∈ turns, earlier.entity.toNat = i
  fair : ∀ turn ∈ turns, turn.Fair think nextthink deadline

theorem schedule_of_prefix {deadline : Single} {s last : Session} {turns : List Turn}
    (well : s.machine.entities.WellFormed) (chained : Chained s turns last)
    (fair : ∀ turn ∈ turns, turn.Fair think nextthink deadline)
    (listed : turns.map (·.entity) <+: s.machine.entities.live) :
    Schedule think nextthink deadline s turns last := by
  obtain ⟨ascending, inUse⟩ := live_ascending well
  obtain ⟨rest, whole⟩ := listed
  rw [← whole] at ascending
  obtain ⟨among, -, beyond⟩ := List.pairwise_append.mp ascending
  rw [List.pairwise_map] at among
  refine ⟨chained, among, fun turn member => ?_, fun turn member i used low => ?_, fair⟩
  · refine (inUse _).mpr ⟨turn.entity, ?_, rfl⟩
    rw [← whole]
    exact List.mem_append_left _ (List.mem_map_of_mem member)
  · obtain ⟨e, listed, rfl⟩ := (inUse i).mp used
    rw [← whole] at listed
    rcases List.mem_append.mp listed with earlier | later
    · obtain ⟨other, member, rfl⟩ := List.mem_map.mp earlier
      exact ⟨other, member, rfl⟩
    · have above := beyond _ (List.mem_map_of_mem member) e later
      exact absurd above (Nat.not_lt.mpr low)

theorem live_turns {s : Session} (sound : s.machine.Sound) (keep : s.natives.KeepSound)
    (thinks : Thinks s.machine.program think nextthink) (deadline : Single) :
    ∃ turns last result, Schedule think nextthink deadline s turns last ∧ s.Paused last ∧
      Closes s.machine.entities.live turns result ∧
        ((∃ total, result = .ok total) → last.Fit s.machine.program s.natives) ∧
          runThinks nextthink deadline s.machine.entities.live 0 s = (result, last) := by
  obtain ⟨turns, last, result, chained, fair, paused, closes, fit, runs⟩ :=
    runThinks_turns keep thinks deadline s.machine.entities.live 0 ⟨sound, rfl, rfl⟩
  have schedule := schedule_of_prefix sound.entities chained fair closes.listed
  refine ⟨turns, last, result, schedule, paused, closes, fit, ?_⟩
  rw [runs]
  cases result <;> simp [Except.map]

/-- The frame ran to its end, and the clock with it. -/
structure Completes (s : Session) (deadline : Single) (turns : List Turn) (last : Session) (count : Nat)
    (s' : Session) : Prop where
  returned : ∀ turn ∈ turns, turn.outcome = .ok ()
  everyone : ∀ i, s.machine.entities.InUse i → ∃ turn ∈ turns, turn.entity.toNat = i
  counted : count = turns.countP (·.thinks)
  frame : s'.frame.toNat = s.frame.toNat + 1
  time : s'.time = deadline
  machine : s'.machine = last.machine.systemWritten (·.time) (.ofSingle deadline)
  clock : ∀ offset, s.machine.program.globals.time = some offset →
    s'.machine.single offset.toNat = .ok deadline

/-- The last turn failed and ended the frame, and the clock stands where it stood. -/
structure Abandoned (s : Session) (turns : List Turn) (last : Session) (stop : Stop) : Prop where
  failed : ∃ earlier failing, turns = earlier ++ [failing] ∧
    (∀ turn ∈ earlier, turn.outcome = .ok ()) ∧ failing.outcome = .error stop
  frame : last.frame = s.frame
  time : last.time = s.time

/-- What a frame comes to after its turns. There is one frame that cannot be counted any more. -/
inductive Ends (s : Session) (deadline : Single) (turns : List Turn) (last : Session) :
    Outcome Nat × Session → Prop
  | completes {count : Nat} {s' : Session} : Completes s deadline turns last count s' →
      Ends s deadline turns last (.ok count, s')
  | abandoned {stop : Stop} : Abandoned s turns last stop → Ends s deadline turns last (.error stop, last)
  | uncounted : (∀ turn ∈ turns, turn.outcome = .ok ()) → s.frame.toNat + 1 = 2 ^ 64 →
      Ends s deadline turns last (.error .fault, last)

theorem checkCount_cases (count : Nat) :
    (Room.checkCount count = .ok () ∧ count < 2 ^ 64) ∨
      (Room.checkCount count = .error .fault ∧ 2 ^ 64 ≤ count) := by
  unfold Room.checkCount
  by_cases small : count < Room.countLimit
  · exact .inl ⟨if_pos small, small⟩
  · exact .inr ⟨if_neg small, Nat.le_of_not_lt small⟩

theorem runFrame_apply {s : Session} (next : s.machine.program.fields.nextthink = some nextthink)
    (frametime : Single) : runFrame frametime s =
      match runThinks nextthink (s.time + frametime) s.machine.entities.live 0 s with
      | (.ok count, t) =>
        match Room.checkCount (t.frame.toNat + 1) with
        | .ok _ => (do setTime (s.time + frametime); return count) { t with frame := t.frame + 1 }
        | .error stop => (.error stop, t)
      | (.error stop, t) => (.error stop, t) := by
  rw [runFrame, get_bind]
  simp only [next]
  rw [bind_apply]
  cases runThinks nextthink (s.time + frametime) s.machine.entities.live 0 s with
  | mk result t =>
      cases result with
      | error stop => rfl
      | ok count =>
          simp only
          rw [get_bind]
          cases Room.checkCount (t.frame.toNat + 1) <;> rfl

theorem setTime_apply {s : Session} (fit : s.Fit program natives) (time : Single) (count : Nat) :
    (do setTime time; return count : Play Nat) s =
      (.ok count, ({ s with time } : Session).systemSet (·.time) (.ofSingle time)) := by
  have timed : ({ s with time } : Session).Fit program natives := ⟨fit.sound, fit.program, fit.natives⟩
  exact systemSet_bind timed (·.time) (fun p _ => p.time_fits) (.ofSingle time) fun _ => pure count

theorem time_set {s : Session} (fit : s.Fit program natives) {offset : UInt16}
    (placed : program.globals.time = some offset) (time : Single) :
    (s.systemSet (·.time) (.ofSingle time)).machine.single offset.toNat = .ok time := by
  have here : s.machine.program.globals.time = some offset := fit.program ▸ placed
  have inside : offset.toNat < s.machine.globals.size := by
    rw [fit.sound.segment]
    exact s.machine.program.time_fits here
  have found : (s.machine.systemWritten (·.time) (.ofSingle time)).globals.get? offset.toNat =
      some (.ofSingle time) := systemWritten_get here inside _
  rw [single, Segment.single?, systemSet, found]
  rfl

def advanced (last : Session) (deadline : Single) : Session :=
  ({ last with frame := last.frame + 1, time := deadline } : Session).systemSet (·.time)
    (.ofSingle deadline)

theorem completes_of_all {s last : Session} {deadline : Single} {turns : List Turn}
    (sound : s.machine.Sound) (fit : last.Fit s.machine.program natives) (paused : s.Paused last)
    (every : turns.map (·.entity) = s.machine.entities.live)
    (returned : ∀ turn ∈ turns, turn.outcome = .ok ()) (few : last.frame.toNat + 1 < 2 ^ 64) :
    Completes s deadline turns last (turns.countP (·.thinks)) (last.advanced deadline) := by
  refine ⟨returned, fun i used => ?_, rfl, ?_, rfl, rfl, fun offset placed => ?_⟩
  · obtain ⟨e, member, rfl⟩ := ((live_ascending sound.entities).2 i).mp used
    rw [← every] at member
    obtain ⟨turn, taken, rfl⟩ := List.mem_map.mp member
    exact ⟨turn, taken, rfl⟩
  · rw [← paused.frame]
    exact (UInt64.toNat_add _ _).trans (Nat.mod_eq_of_lt few)
  · have moved : ({ last with frame := last.frame + 1, time := deadline } : Session).Fit
        s.machine.program natives := ⟨fit.sound, fit.program, fit.natives⟩
    exact time_set moved placed deadline

/-- A frame is these turns, and then the clock moves. -/
structure Framed (think nextthink : UInt16) (frametime : Single) (s : Session) (turns : List Turn)
    (last : Session) : Prop where
  schedule : Schedule think nextthink (s.time + frametime) s turns last
  ends : Ends s (s.time + frametime) turns last (runFrame frametime s)

theorem framed_of_turns {frametime : Single} {s last : Session} {turns : List Turn}
    {result : Outcome Nat} (sound : s.machine.Sound)
    (next : s.machine.program.fields.nextthink = some nextthink)
    (schedule : Schedule think nextthink (s.time + frametime) s turns last) (paused : s.Paused last)
    (closes : Closes s.machine.entities.live turns result)
    (fit : (∃ total, result = .ok total) → last.Fit s.machine.program natives)
    (runs : runThinks nextthink (s.time + frametime) s.machine.entities.live 0 s = (result, last)) :
    Framed think nextthink frametime s turns last := by
  refine ⟨schedule, ?_⟩
  rw [runFrame_apply next, runs]
  cases closes with
  | @fails earlier failing stop split listed fine failed =>
      exact .abandoned ⟨⟨earlier, failing, split, fine, failed⟩, paused.frame, paused.time⟩
  | all total every fine counted =>
      have fit := fit ⟨total, rfl⟩
      simp only
      rcases checkCount_cases (last.frame.toNat + 1) with ⟨counts, few⟩ | ⟨refused, many⟩
      · have next : ({ last with frame := last.frame + 1 } : Session).Fit s.machine.program natives :=
          ⟨fit.sound, fit.program, fit.natives⟩
        rw [counts]
        simp only [setTime_apply next]
        rw [counted]
        exact .completes (completes_of_all sound fit paused every fine few)
      · rw [refused]
        refine .uncounted fine ?_
        rw [← paused.frame]
        exact Nat.le_antisymm last.frame.toNat_lt many

/-- Whatever thinks do, a frame over a program that thinks is the turns of the records in use. -/
theorem runFrame_takes_turns {s : Session} (sound : s.machine.Sound)
    (keep : s.natives.KeepSound) (thinks : Thinks s.machine.program think nextthink)
    (frametime : Single) :
    ∃ turns last, Framed think nextthink frametime s turns last := by
  obtain ⟨turns, last, result, schedule, paused, closes, fit, runs⟩ :=
    live_turns sound keep thinks (s.time + frametime)
  exact ⟨turns, last, framed_of_turns sound thinks.nextthink schedule paused closes fit runs⟩

end Frame

/-! ## A frame of two thinks -/

/-- A think function that gives record 2 back, spawns, and has what was spawned think in the same frame. What
was spawned then leaves a mark. -/
def hauntedImage : Image where
  statements := #[⟨0, 0, 0, 0⟩, ⟨34, 28, 4, 0⟩, ⟨52, 29, 0, 0⟩, ⟨51, 30, 0, 0⟩, ⟨30, 1, 32, 35⟩,
    ⟨42, 31, 35, 0⟩, ⟨30, 1, 33, 35⟩, ⟨37, 34, 35, 0⟩, ⟨0, 0, 0, 0⟩, ⟨31, 34, 36, 0⟩, ⟨0, 0, 0, 0⟩]
  functions := #[{}, { first := -15 }, { first := -14 }, { first := 1 }, { first := 9 }]
  globals := Array.replicate 28 ⟨0⟩ ++
    #[⟨2⟩, ⟨1⟩, ⟨2⟩, ⟨4⟩, ⟨0⟩, ⟨1⟩, ⟨0x3d4ccccd⟩, ⟨0⟩, ⟨0⟩, ⟨0⟩, ⟨0⟩]
  strings := { StringPool.empty with data := "\x00self\x00time\x00think\x00nextthink\x00" }
  globalDefs := #[⟨.entity, 37, ⟨1⟩, false⟩, ⟨.float, 38, ⟨6⟩, false⟩]
  fieldDefs := #[⟨.function, 0, ⟨11⟩, false⟩, ⟨.float, 1, ⟨17⟩, false⟩]
  entityFields := 2

theorem hauntedImage_globals : hauntedImage.systemGlobals = { self := some 37, time := some 38 } := by
  have self : hauntedImage.strings.resolve ⟨1⟩ = "self" :=
    StringPool.resolve_stored "\x00" "time\x00think\x00nextthink\x00" rfl rfl (by simp [StringPool.Plain])
  have time : hauntedImage.strings.resolve ⟨6⟩ = "time" :=
    StringPool.resolve_stored "\x00self\x00" "think\x00nextthink\x00" rfl rfl (by simp [StringPool.Plain])
  have defs : hauntedImage.globalDefs = #[⟨.entity, 37, ⟨1⟩, false⟩, ⟨.float, 38, ⟨6⟩, false⟩] := rfl
  simp [Image.systemGlobals, Image.findGlobal?, Image.definitionName, defs, self, time]

theorem hauntedImage_fields : hauntedImage.systemFields = { think := some 0, nextthink := some 1 } := by
  have think : hauntedImage.strings.resolve ⟨11⟩ = "think" :=
    StringPool.resolve_stored "\x00self\x00time\x00" "nextthink\x00" rfl rfl (by simp [StringPool.Plain])
  have nextthink : hauntedImage.strings.resolve ⟨17⟩ = "nextthink" :=
    StringPool.resolve_stored "\x00self\x00time\x00think\x00" "" rfl rfl (by simp [StringPool.Plain])
  have defs : hauntedImage.fieldDefs = #[⟨.function, 0, ⟨11⟩, false⟩, ⟨.float, 1, ⟨17⟩, false⟩] := rfl
  simp [Image.systemFields, SystemFields.resolve, Image.findField?, Image.definitionName, defs, think,
    nextthink]

def haunted : Program where
  image := hauntedImage
  globals := { self := some 37, time := some 38 }
  fields := { think := some 0, nextthink := some 1 }
  sound := by decide +kernel
  globals_eq := hauntedImage_globals.symm
  fields_eq := hauntedImage_fields.symm

def stocked (program : Program) (records : Nat) (cells : List Cell) : Session :=
  let m := Machine.create program { entities := { hysteresis := .zero, capacity := 8 } }
  .ofMachine { m with entities := { m.entities with
    cells := Segment.storeAll cells 0 m.entities.cells
    states := Array.replicate records {} } } .reference

def hauntedStart : Session := stocked haunted 3 [⟨0⟩, ⟨0⟩, ⟨3⟩, ⟨0x3d4ccccd⟩]

theorem hauntedStart_sound : hauntedStart.machine.Sound := by
  refine ⟨rfl, rfl, ?_, rfl⟩
  constructor <;> decide +kernel

theorem runFrame_takes_turns_haunted :
    hauntedStart.machine.Sound ∧ hauntedStart.natives.KeepSound ∧
      Thinks hauntedStart.machine.program 0 1 ∧ ∃ turns last s',
        Framed 0 1 ⟨0x3dcccccd⟩ hauntedStart turns last ∧
          runFrame ⟨0x3dcccccd⟩ hauntedStart = (.ok 2, s') ∧ turns.countP (·.thinks) = 2 := by
  have keep : hauntedStart.natives.KeepSound := Natives.reference_keepSound
  have thinks : Thinks hauntedStart.machine.program 0 1 := ⟨rfl, rfl⟩
  have ran : (runFrame ⟨0x3dcccccd⟩ hauntedStart).1.toOption = some 2 := by decide +kernel
  obtain ⟨turns, last, framed⟩ := runFrame_takes_turns hauntedStart_sound keep thinks ⟨0x3dcccccd⟩
  refine ⟨hauntedStart_sound, keep, thinks, turns, last, (runFrame ⟨0x3dcccccd⟩ hauntedStart).2, framed, ?_⟩
  cases outcome : runFrame ⟨0x3dcccccd⟩ hauntedStart with
  | mk result s' =>
      rw [outcome] at ran
      cases result with
      | error stop => cases ran
      | ok count =>
          cases ran
          have ends := framed.ends
          rw [outcome] at ends
          cases ends with
          | completes complete => exact ⟨rfl, complete.counted.symm⟩

end Session
end EntityMachine
