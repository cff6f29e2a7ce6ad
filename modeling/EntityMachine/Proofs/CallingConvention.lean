import EntityMachine.Proofs.Executions

/-!
The calling convention. Arguments, locals and results share the segment and move by copies in a fixed order:
entering saves the range of the function and then copies the arguments in; leaving copies the result out and
then puts the range back. Where the range lies above the slots, neither copy gets in the way of the other.
-/
namespace EntityMachine
open Machine Run

/-! ## Arguments -/

def Function.parameterStart (f : Function) (i : Nat) : Nat := f.localsStart + (f.declaredSizes.take i).sum

/-- The parameters that arguments are passed for hold the first cells of their slots, and no other cell was
changed. -/
structure Function.Passed (f : Function) (arguments : Nat) (g g' : Segment) : Prop where
  size : g'.size = g.size
  held : ∀ i width, i < arguments → f.declaredSizes[i]? = some width → ∀ k, k < width →
    g'.get? (f.parameterStart i + k) = g.get? (Slot.firstParameter + i * Slot.width + k)
  kept : ∀ j, (∀ i width, i < arguments → f.declaredSizes[i]? = some width →
      j < f.parameterStart i ∨ f.parameterStart i + width ≤ j) → g'.get? j = g.get? j

theorem moveAll_arguments {widths : List Nat} {n target : Nat} {s : Segment} {moves : List Move}
    (placed : argumentMoves widths n target = some moves) (slots : n + widths.length ≤ Slot.maxParameters)
    (narrow : ∀ width ∈ widths, width ≤ Slot.width) (above : Slot.reserved ≤ target)
    (admitted : moves.all s.admits = true) :
    (∀ i width, widths[i]? = some width → ∀ k, k < width →
      (s.moveAll moves).get? (target + (widths.take i).sum + k) =
        s.get? (Slot.firstParameter + (n + i) * Slot.width + k)) ∧
      ∀ j, (∀ i width, widths[i]? = some width →
          j < target + (widths.take i).sum ∨ target + (widths.take i).sum + width ≤ j) →
        (s.moveAll moves).get? j = s.get? j := by
  have place (i : Nat) : Slot.firstParameter + i * Slot.width = 4 + i * 3 := rfl
  have bottom : Slot.maxParameters = 8 ∧ Slot.width = 3 ∧ Slot.reserved = 28 := ⟨rfl, rfl, rfl⟩
  -- Over the parameters, with the segment general: each copy goes above the slots, so the slots that are
  -- still to be read are as they were, and below the parameters that are still to be written.
  induction widths generalizing n target s moves with
  | nil =>
      cases placed
      exact ⟨nofun, fun _ _ => rfl⟩
  | cons width rest ih =>
      rw [List.length_cons] at slots
      have slot : Slot.parameter? n = some (Slot.firstParameter + n * Slot.width) := if_pos (by omega)
      cases later : argumentMoves rest (n + 1) (target + width) with
      | none => simp [argumentMoves, slot, later] at placed
      | some behind =>
          let first : Move := ⟨Slot.firstParameter + n * Slot.width, target, width⟩
          obtain rfl : first :: behind = moves := by simpa [argumentMoves, slot, later] using placed
          rw [List.all_cons, Bool.and_eq_true] at admitted
          have slim : width ≤ Slot.width := narrow width List.mem_cons_self
          have still : behind.all (s.move first).admits = true := by
            rw [← admitted.2]
            congr 1
            funext move
            simp only [Segment.admits, Segment.move_size]
          have moved (i : Nat) : (s.move first).get? i = if target ≤ i ∧ i < target + width then
              s.get? (Slot.firstParameter + n * Slot.width + (i - target)) else s.get? i :=
            Segment.move_get admitted.1 i
          obtain ⟨held, kept⟩ := ih later (by omega) (fun w member => narrow w (List.mem_cons_of_mem _ member))
            (by omega) still
          rw [Segment.moveAll]
          refine ⟨fun i w found k inside => ?_, fun j outside => ?_⟩
          · cases i with
            | zero =>
                obtain rfl : width = w := by simpa using found
                rw [List.take_zero, List.sum_nil, Nat.add_zero, Nat.add_zero,
                  kept _ (fun _ _ _ => .inl (by omega)), moved, if_pos (by omega), Nat.add_sub_cancel_left]
            | succ i =>
                rw [List.getElem?_cons_succ] at found
                have known : i < rest.length := (List.getElem?_eq_some_iff.mp found).1
                have thin := narrow w (List.mem_cons_of_mem _ (List.mem_of_getElem? found))
                have next := held i w found k inside
                rw [place] at next ⊢
                rw [List.take_succ_cons, List.sum_cons, ← Nat.add_assoc target, next, moved,
                  if_neg (by omega), Nat.add_right_comm n 1 i, Nat.add_assoc n i 1]
          · have apart : j < target ∨ target + width ≤ j := outside 0 width rfl
            have later (i w : Nat) (found : rest[i]? = some w) :
                j < target + width + (rest.take i).sum ∨ target + width + (rest.take i).sum + w ≤ j := by
              have beyond := outside (i + 1) w found
              rwa [List.take_succ_cons, List.sum_cons, ← Nat.add_assoc target] at beyond
            rw [kept j later, moved, if_neg (by omega)]

theorem Function.passed_of_admission {m : Machine} {id : FunctionId} {f : Function} {saved : Array Cell}
    {moves : List Move} {statements segment : Nat} (fits : f.Fits statements segment)
    (ours : f.nativeNumber? = none) (above : Slot.reserved ≤ f.localsStart)
    (admitted : m.admission id f = .ok (saved, moves)) :
    f.Passed m.argumentCount m.globals (m.globals.moveAll moves) := by
  obtain ⟨-, -, -, placed, -, inside⟩ := (admission_iff m id f saved moves).mp admitted
  obtain ⟨slots, narrow, -⟩ := passedWidths_fit fits ours m.argumentCount
  obtain ⟨held, kept⟩ := moveAll_arguments placed (by rwa [Nat.zero_add]) narrow above inside
  have passed {i width : Nat} (given : i < m.argumentCount) (declared : f.declaredSizes[i]? = some width) :
      (passedWidths f m.argumentCount)[i]? = some width ∧
        ((passedWidths f m.argumentCount).take i).sum = (f.declaredSizes.take i).sum := by
    rw [passedWidths, List.getElem?_take_of_lt given, List.take_take, Nat.min_eq_left (Nat.le_of_lt given)]
    exact ⟨declared, rfl⟩
  refine ⟨Segment.moveAll_size _ _, fun i width given declared k inside => ?_, fun j apart => ?_⟩
  · obtain ⟨here, start⟩ := passed given declared
    have copied := held i width here k inside
    rwa [start, Nat.zero_add] at copied
  · refine kept j fun i width declared => ?_
    have given : i < m.argumentCount := by
      have listed := (List.getElem?_eq_some_iff.mp declared).1
      rw [passedWidths, List.length_take] at listed
      omega
    have same : f.declaredSizes[i]? = some width := by
      rwa [passedWidths, List.getElem?_take_of_lt given] at declared
    rw [(passed given same).2]
    exact apart i width given same

/-! ## Entering -/

namespace Machine
variable {m : Machine} {id : FunctionId} {f : Function}

theorem admission_full (full : m.calls.limit ≤ m.calls.depth) :
    m.admission id f = .fail (.limitExceeded (.callDepth m.calls.limit)) := by
  simp only [admission, CallStack.checkPush, CallStack.isFull, full, decide_true, ↓reduceIte]
  rfl

theorem admission_settled (sound : m.Sound) (found : m.program.function id = .ok f)
    (ours : f.nativeNumber? = none) (room : m.calls.depth < m.calls.limit) :
    if m.locals.size + f.locals.toNat ≤ m.locals.limit then
      ∃ saved moves, m.admission id f = .ok (saved, moves)
    else m.admission id f = .fail (.limitExceeded (.localsStack m.locals.limit)) := by
  obtain ⟨listed, fits⟩ := m.program.function_fits found
  have whole : f.localsEnd ≤ m.globals.size := (sound.covers found).2
  have row : m.globals.slice? f.localsStart f.localsEnd =
      some (m.globals.cells.extract f.localsStart f.localsEnd) := if_pos ⟨Nat.le_add_right _ _, whole⟩
  have extent : (m.globals.cells.extract f.localsStart f.localsEnd).size = f.locals.toNat :=
    (Segment.slice_size row).trans (Nat.add_sub_cancel_left _ _)
  generalize m.globals.cells.extract f.localsStart f.localsEnd = saved at row extent
  have free : ¬ m.calls.limit ≤ m.calls.depth := Nat.not_le.mpr room
  split
  · rename_i spare
    obtain ⟨slots, narrow, inside⟩ := passedWidths_fit fits ours m.argumentCount
    obtain ⟨moves, placed, fit⟩ := argumentMoves_fit _ 0 _ _ (by rwa [Nat.zero_add]) narrow inside
      m.program.valid.segment
    have admitted : moves.all m.globals.admits = true :=
      List.all_eq_true.mpr fun move member => decide_eq_true (sound.segment ▸ fit move member)
    exact ⟨saved, moves, (admission_iff m id f saved moves).mpr
      ⟨room, row, by rwa [extent], placed, (sound.covers found).1, admitted⟩⟩
  · rename_i crowded
    have refused : ¬ m.locals.size + saved.size ≤ m.locals.limit := by rwa [extent]
    simp only [admission, slice, row, CallStack.checkPush, CallStack.isFull, LocalsStack.checkSave,
      LocalsStack.hasRoom, free, refused, decide_false, Bool.false_eq_true, ↓reduceIte,
      Outcome.ofOption_some, Outcome.ok_bind]
    rfl

end Machine

/-! ## Leaving -/

theorem Travels.underWay {policy : Policy} {natives : Natives} {reenter : FunctionId → Run Unit}
    {base : Control} (runs : natives.RestoreInside policy reenter base) {b : Activation}
    {rest : List Activation} {p q : Point}
    (travels : Travels natives reenter base.calls.depth (base.calls.depth + rest.length < ·.depth) p q)
    (level : q.machine.depth = base.calls.depth + rest.length + 1) (within : List Activation)
    (stacked : Stacked base (within ++ b :: rest) p.machine) (good : policy.good p.machine) :
    Stacked base (b :: rest) q.machine ∧ policy.good q.machine := by
  -- Over the run, with the calls made since: the call cannot have returned, for the depth was always
  -- that of the call at least.
  induction travels generalizing within with
  | stay p =>
      have depth := stacked.depth_eq
      rw [List.length_append, List.length_cons] at depth
      obtain rfl : within = [] := List.length_eq_zero_iff.mp (by omega)
      exact ⟨stacked, good⟩
  | @go budget s next m m' q here stepped tail ih =>
      cases within with
      | nil =>
          have advance := step_advances (s := s) runs stacked good
          rw [stepped] at advance
          cases advance with
          | stays inside fine => exact ih level [] inside fine
          | enters _ _ _ inside fine => exact ih level [_] inside fine
          | leaves more left =>
              have back : m'.depth = base.calls.depth + rest.length := left.stacked.depth_eq
              cases tail with
              | stay =>
                  have level : m'.depth = base.calls.depth + rest.length + 1 := level
                  omega
              | go deeper =>
                  have deeper : base.calls.depth + rest.length < m'.depth := deeper
                  omega
      | cons c deeper =>
          have advance := step_advances (s := s) runs stacked good
          rw [stepped] at advance
          cases advance with
          | stays inside fine => exact ih level (c :: deeper) inside fine
          | enters _ _ _ inside fine => exact ih level (_ :: c :: deeper) inside fine
          | leaves more left fine => exact ih level deeper left.stacked fine

def Opcode.returns (op : Opcode) : Prop := op = .done ∨ op = .ret

/-- The caller finds in its return slot the cells that another segment has from an offset on: three, or as
many as there are. -/
def Segment.Received (g : Segment) (offset : Nat) (g' : Segment) : Prop :=
  ∀ k, k < min Slot.width (g.size - offset) → g'.get? (Slot.returnSlot + k) = g.get? (offset + k)

namespace Machine

theorem giveResult_received {m : Machine} {offset : Nat} (sound : m.Sound)
    (inside : offset + 1 ≤ m.globals.size) : ∃ given : Segment,
      giveResult offset m = (.ok (), { m with globals := given }) ∧ given.size = m.globals.size ∧
        m.globals.Received offset given := by
  have room : Slot.reserved ≤ m.globals.size := sound.segment ▸ m.program.valid.segment
  have bottom : Slot.reserved = 28 ∧ Slot.returnSlot = 1 ∧ Slot.width = 3 := ⟨rfl, rfl, rfl⟩
  have ends : offset + min Slot.width (m.globals.size - offset) ≤ m.globals.size := by omega
  have found : m.globals.slice? offset (offset + min Slot.width (m.globals.size - offset)) =
      some (m.globals.cells.extract offset _) := if_pos ⟨Nat.le_add_right _ _, ends⟩
  obtain ⟨-, -, extent, same⟩ := (Segment.slice_iff _ _ _ _).mp found
  generalize m.globals.cells.extract offset _ = cells at found extent same
  have fits : Slot.returnSlot + cells.size ≤ m.globals.size := by omega
  refine ⟨m.globals.overwrite Slot.returnSlot cells, ?_, Segment.overwrite_size _ _ _, fun k few => ?_⟩
  · simp only [giveResult, get_bind, slice, found, Outcome.ofOption_some, ok_bind, write_apply, if_pos fits]
  · rw [Segment.overwrite_get, if_pos (by omega), Nat.add_sub_cancel_left, same k (by omega)]

theorem step_returns {natives : Natives} {reenter : FunctionId → Run Unit} {base : Control}
    {a : Activation} {outer : List Activation} {m : Machine} {s : Nat} {statement : Statement}
    {op : Opcode} (stacked : Stacked base (a :: outer) m) (sound : m.Sound)
    (above : Slot.reserved ≤ a.body.localsStart) (found : m.program.statement? s = some statement)
    (known : statement.opcode? = some op) (returns : op.returns) :
    ∃ next m', step natives reenter base.calls.depth s m = (.ok next, m') ∧ Left base a outer m' ∧
      m.globals.Received statement.a.toNat m'.globals := by
  have named : op.operands.1 = .global 1 := by rcases returns with rfl | rfl <;> rfl
  have asked : m.effect op statement = .ok (.finish statement.a.toNat) := by
    rcases returns with rfl | rfl <;> rfl
  have fits := m.program.valid.statements s statement op found known
  have inside : statement.a.toNat + 1 ≤ m.globals.size := sound.segment ▸ fits.a 1 named
  let ready := m.fetched s statement
  have fine : ready.Sound := sound.of_shape (m.fetched_shape s statement)
  obtain ⟨given, gave, size, received⟩ := giveResult_received (m := ready) fine inside
  have within : Stacked base (a :: outer) { ready with globals := given } := stacked.transfer rfl
  have whole : a.body.localsEnd ≤ given.size := size ▸ (sound.covers stacked.function_found).2
  have departs := departure_stacked within
  rw [if_neg (Nat.not_lt.mpr whole)] at departs
  rw [step_apply]
  simp only [found, (sound.covers stacked.function_found).1, ↓reduceIte, known, asked]
  rw [perform_finish]
  simp only [show giveResult statement.a.toNat (m.fetched s statement) = _ from gave, departs]
  refine ⟨_, _, rfl, departed_stacked within whole, fun k few => ?_⟩
  -- The return slot lies below the range that is put back.
  have bottom : Slot.reserved = 28 ∧ Slot.returnSlot = 1 ∧ Slot.width = 3 := ⟨rfl, rfl, rfl⟩
  rw [show (departed _ a.body a.saved _).globals = given.overwrite a.body.localsStart a.saved from rfl,
    Segment.overwrite_get, if_neg (by omega)]
  exact received k few

/-! ## A call from its entry to its return -/

/-- A call that was entered from a machine is under way, and its own next statement returns the value at an
offset. -/
structure Returning (natives : Natives) (reenter : FunctionId → Run Unit) (entryDepth : Nat) (m : Machine)
    (first : Point) (q : Point) (offset : Nat) : Prop where
  travels : Travels natives reenter entryDepth (m.depth < ·.depth) first q
  level : q.machine.depth = m.depth + 1
  asks : ∃ statement op, q.machine.program.statement? q.statement = some statement ∧
    statement.opcode? = some op ∧ op.returns ∧ statement.a.toNat = offset

theorem entered_returns {natives : Natives} {reenter : FunctionId → Run Unit} {base : Control}
    (runs : natives.RestoreInside .noFault reenter base) {outer : List Activation} {m : Machine}
    (stacked : Stacked base outer m) (sound : m.Sound) {id : FunctionId} {f : Function}
    (found : m.program.function id = .ok f) (ours : f.nativeNumber? = none)
    (above : Slot.reserved ≤ f.localsStart) {saved : Array Cell} {moves : List Move}
    (admitted : m.admission id f = .ok (saved, moves)) {budget : Nat} {q : Point} {offset : Nat}
    (returning : Returning natives reenter base.calls.depth m
      ⟨budget, f.first.toNat, m.entered id saved moves⟩ q offset) :
    ∃ next m', step natives reenter base.calls.depth q.statement q.machine = (.ok next, m') ∧
      m'.control = m.control ∧ q.machine.globals.Received offset m'.globals := by
  obtain ⟨travels, level, statement, op, listed, known, returns, rfl⟩ := returning
  have entered := (entered_stacked stacked found ours admitted).1
  have fine : (m.entered id saved moves).Sound := sound.of_shape (m.entered_shape id saved moves)
  rw [stacked.depth_eq] at travels level
  obtain ⟨inside, good⟩ := travels.underWay runs level [] entered fine
  obtain ⟨next, m', stepped, left, received⟩ := step_returns inside good above listed known returns
  refine ⟨next, m', stepped, ?_, received⟩
  rw [left.stacked.control, left.statement, stacked.control]

/-- A function is refused for the depth of the calls, or else for the cells to save, and nothing has changed
then. Otherwise its parameters hold the arguments; and when it returns a value, however it came there, its
caller finds the value as it was just before the cells of the range were put back. -/
theorem calling_convention {natives : Natives} (restore : natives.Restore .noFault) (nesting : Nat)
    {base : Control} {outer : List Activation} {m : Machine} (stacked : Stacked base outer m)
    (sound : m.Sound) (coherent : m.Coherent) {id : FunctionId} {f : Function}
    (found : m.program.function id = .ok f) (ours : f.nativeNumber? = none)
    (above : Slot.reserved ≤ f.localsStart) :
    if m.config.maxCallDepth ≤ m.depth then
      enter id f m = (Outcome.fail (.limitExceeded (.callDepth m.config.maxCallDepth)), m)
    else if m.config.localsCells < m.locals.size + f.locals.toNat then
      enter id f m = (Outcome.fail (.limitExceeded (.localsStack m.config.localsCells)), m)
    else ∃ m', enter id f m = (.ok f.first.toNat, m') ∧ m'.function = id ∧ m'.depth = m.depth + 1 ∧
      f.Passed m.argumentCount m.globals m'.globals ∧
      ∀ budget q offset, Returning natives (execute natives nesting) base.calls.depth m
        ⟨budget, f.first.toNat, m'⟩ q offset →
          ∃ next m'', step natives (execute natives nesting) base.calls.depth q.statement q.machine =
            (.ok next, m'') ∧ m''.control = m.control ∧ q.machine.globals.Received offset m''.globals := by
  have depthLimit : m.calls.limit = m.config.maxCallDepth := coherent.depthLimit
  have savedLimit : m.locals.limit = m.config.localsCells := coherent.savedLimit
  rw [enter_apply, ← depthLimit, ← savedLimit]
  split
  · rename_i full
    rw [admission_full full]
    rfl
  · rename_i free
    have settled := admission_settled sound found ours (Nat.not_le.mp free)
    split at settled
    · rename_i spare
      rw [if_neg (Nat.not_lt.mpr spare)]
      obtain ⟨saved, moves, admitted⟩ := settled
      have fits := (m.program.function_fits found).2
      have entered := (entered_stacked stacked found ours admitted).1
      refine ⟨m.entered id saved moves, by rw [admitted], rfl, ?_,
        Function.passed_of_admission fits ours above admitted, fun budget q offset returning => ?_⟩
      · rw [entered.depth_eq, stacked.depth_eq, List.length_cons, Nat.add_assoc]
      · have keeps (c : Control) (inner : FunctionId) :
            (execute natives nesting inner).RestoresFrom .noFault c := by
          intro m₁ here good
          obtain ⟨stops, back⟩ := execute_back restore nofun nesting inner m₁ good
          exact ⟨stops, fun returned => ⟨(back returned).1.control.trans here, (back returned).2⟩⟩
        exact entered_returns (fun number g c known _ _ _ => restore number g known c _ (keeps c)) stacked
          sound found ours above admitted returning
    · rename_i crowded
      rw [if_pos (Nat.not_le.mp crowded), settled]
      rfl

def passed : Function where
  first := 1
  parmStart := 28
  locals := 5
  numParms := 2
  parmSizes := #v[3, 1, 0, 0, 0, 0, 0, 0]

/-- A function that calls a native function and then returns a vector out of its own range. -/
def passing : Program where
  image := {
    statements := #[⟨0, 0, 0, 0⟩, ⟨51, 33, 0, 0⟩, ⟨43, 28, 0, 0⟩]
    functions := #[{}, passed, { first := -1 }]
    globals := Array.replicate 4 ⟨0⟩ ++ #[⟨10⟩, ⟨11⟩, ⟨12⟩, ⟨20⟩, ⟨21⟩, ⟨22⟩] ++ Array.replicate 18 ⟨0⟩ ++
      #[⟨1⟩, ⟨2⟩, ⟨3⟩, ⟨4⟩, ⟨5⟩, ⟨2⟩] }
  globals := {}
  fields := {}
  sound := by decide +kernel
  globals_eq := show _ = Image.systemGlobals _ from rfl
  fields_eq := show _ = Image.systemFields _ from rfl

theorem calling_convention_passing :
    let natives := Natives.empty.register 1 ⟨"seven", Samples.plain Samples.giveSeven⟩
    let m : Machine := { create passing {} with argumentCount := 2 }
    natives.Restore .noFault ∧ m.Sound ∧ m.Coherent ∧ ∃ m' q next m'',
      enter ⟨1⟩ passed m = (.ok 1, m') ∧ passed.Passed 2 m.globals m'.globals ∧
        Returning natives (execute natives 1) 0 m ⟨9, 1, m'⟩ q 28 ∧
        step natives (execute natives 1) 0 q.statement q.machine = (.ok next, m'') ∧
        m''.control = m.control ∧ q.machine.globals.Received 28 m''.globals := by
  intro natives m
  have restore : natives.Restore .noFault :=
    (Natives.register_respect (Natives.empty_respect _)
      (Samples.plain_respects fun c => giveCell_matches _) 1).restore
  have sound : m.Sound := (create_sound passing {}).of_shape rfl
  have coherent : m.Coherent := create_coherent passing {}
  have found : m.program.function ⟨1⟩ = .ok passed := by decide +kernel
  have law := calling_convention restore 1 (Stacked.of_control (c := m.control) rfl) sound coherent found
    rfl (by decide)
  rw [if_neg (by decide), if_neg (by decide +kernel)] at law
  obtain ⟨m', entry, -, level, arguments, returns⟩ := law
  obtain rfl : (enter ⟨1⟩ passed m).2 = m' := congrArg Prod.snd entry
  let called := step natives (execute natives 1) 0 1 (enter ⟨1⟩ passed m).2
  have back : called.1 = .ok (some 2) := by decide +kernel
  have returning : Returning natives (execute natives 1) 0 m ⟨9, 1, (enter ⟨1⟩ passed m).2⟩
      ⟨8, 2, called.2⟩ 28 := {
    travels := .go (by rw [level]; exact Nat.lt_succ_self _) (eq_of_outcome back) (.stay _)
    level := by decide +kernel
    asks := ⟨⟨43, 28, 0, 0⟩, .ret, by decide +kernel, rfl, .inr rfl, rfl⟩ }
  obtain ⟨next, m'', stepped, control, received⟩ := returns 9 _ 28 returning
  exact ⟨restore, sound, coherent, _, _, next, m'', entry, arguments, returning, stepped, control, received⟩

end Machine
end EntityMachine
