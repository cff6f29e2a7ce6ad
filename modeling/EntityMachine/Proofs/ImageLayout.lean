import EntityMachine.Proofs.Assembling
import Mathlib.Data.List.Induction

/-!
The layout of assembled images. Requests append, so all that a host was ever given lies one behind the other;
between the opening of a body and its end nothing else is opened, so what was given in between is one run
of cells, and no two bodies share any. Calls may therefore save and put back the cells of a body alone.
-/
namespace EntityMachine

/-- The cells that two functions save are others. -/
def Function.Apart (f g : Function) : Prop := f.localsEnd ≤ g.localsStart ∨ g.localsEnd ≤ f.localsStart

namespace Assembler

/-! ## Many requests -/

/-- Entries one after the other, each leading on from the state that the one before it left. -/
inductive Chain (R : Assembler → Entry → Assembler → Prop) : Assembler → List Entry → Assembler → Prop where
  | done (s : Assembler) : Chain R s [] s
  | step {s s' s'' : Assembler} {e : Entry} {rest : List Entry} (first : R s e s') (further : Chain R s' rest s'') :
      Chain R s (e :: rest) s''

abbrev Performs : Assembler → List Entry → Assembler → Prop :=
  Chain fun s e s' => e.request.perform.run s = some (e.reply, s')

section Chains
variable {R : Assembler → Entry → Assembler → Prop} {s s'' : Assembler} {e : Entry} {before after : List Entry}

theorem chain_cons_iff : Chain R s (e :: after) s'' ↔ ∃ s', R s e s' ∧ Chain R s' after s'' := by
  constructor
  · intro chain
    cases chain with
    | step first further => exact ⟨_, first, further⟩
  · rintro ⟨s', first, further⟩
    exact .step first further

theorem chain_append_iff :
    Chain R s (before ++ after) s'' ↔ ∃ s', Chain R s before s' ∧ Chain R s' after s'' := by
  constructor
  · intro chain
    induction before generalizing s with
    | nil => exact ⟨s, .done s, chain⟩
    | cons e rest ih =>
        obtain ⟨between, first, further⟩ := chain_cons_iff.mp chain
        obtain ⟨s', left, right⟩ := ih further
        exact ⟨s', .step first left, right⟩
  · rintro ⟨s', left, right⟩
    induction left with
    | done => exact right
    | step first _ ih => exact .step first (ih right)

end Chains

abbrev Steps : Assembler → List Entry → Assembler → Prop := Chain Step

section Runs
variable {s s' : Assembler} {entries : List Entry}

theorem Chain.size_le (steps : Steps s entries s') : s.image.globals.size ≤ s'.image.globals.size := by
  induction steps with
  | done => exact Nat.le_refl _
  | step first _ ih => exact Nat.le_trans (by rw [first.size]; exact Nat.le_add_right _ _) ih

theorem Chain.record_le (steps : Steps s entries s') : s.image.entityFields ≤ s'.image.entityFields := by
  induction steps with
  | done => exact Nat.le_refl _
  | step first _ ih => exact Nat.le_trans (by rw [first.record]; exact Nat.le_add_right _ _) ih

theorem Chain.table_le (steps : Steps s entries s') : s.image.functions.size ≤ s'.image.functions.size := by
  induction steps with
  | done => exact Nat.le_refl _
  | step first _ ih => exact Nat.le_trans first.table ih

theorem Chain.steps (performs : Performs s entries s') (small : s'.image.globals.size < 65536) :
    Steps s entries s' := by
  induction performs with
  | done s => exact .done s
  | step first _ ih =>
      have further := ih small
      exact .step (step_of_perform first (Nat.lt_of_le_of_lt further.size_le small)) further

/-! ## What was given out -/

theorem Chain.tile (steps : Steps s entries s') (small : s'.image.globals.size < 65536) :
    Span.Tile s.image.globals.size (entries.flatMap Entry.spans) s'.image.globals.size := by
  induction steps with
  | done s => exact .nil _
  | step first further ih =>
      have short : _ < 65536 := Nat.lt_of_le_of_lt further.size_le small
      rw [first.size] at short
      rw [List.flatMap_cons, Entry.spans, first.cells]
      have given := Span.offsets_tile short
      rw [← first.size] at given
      exact given.append (ih small)

theorem Chain.fieldTile (steps : Steps s entries s') (small : s'.image.entityFields < 65536) :
    Span.Tile s.image.entityFields (entries.flatMap Entry.fieldSpans) s'.image.entityFields := by
  induction steps with
  | done s => exact .nil _
  | step first further ih =>
      have short : _ < 65536 := Nat.lt_of_le_of_lt further.record_le small
      rw [first.record] at short
      rw [List.flatMap_cons, Entry.fieldSpans, first.fields]
      have given := Span.offsets_tile short
      rw [← first.record] at given
      exact given.append (ih small)

theorem Chain.answered (steps : Steps s entries s') : ∀ e ∈ entries,
    e.reply.cells.length = e.request.widths.length ∧ e.reply.fields.length = e.request.fieldWidths.length := by
  induction steps with
  | done => exact nofun
  | step first _ ih =>
      refine List.forall_mem_cons.mpr ⟨⟨?_, ?_⟩, ih⟩
      · rw [first.cells, Span.offsets_length]
      · rw [first.fields, Span.offsets_length]

/-! ## What is kept -/

theorem Chain.kept (steps : Steps s entries s') {i : Nat} (low : i < s.image.globals.size)
    (untouched : ∀ e ∈ entries, ¬ e.request.Sets i) : s'.image.globals[i]? = s.image.globals[i]? := by
  induction steps with
  | done => rfl
  | step first _ ih =>
      obtain ⟨here, later⟩ := List.forall_mem_cons.mp untouched
      have grown := Nat.lt_of_lt_of_le low (first.size.symm ▸ Nat.le_add_right _ _)
      rw [ih grown later, first.kept i low here]

theorem Chain.strings (steps : Steps s entries s') (indexed : s.image.strings.Indexed) :
    s'.image.strings.Indexed ∧ s.image.strings.Extends s'.image.strings := by
  induction steps with
  | done => exact ⟨indexed, .refl _⟩
  | step first _ ih =>
      obtain ⟨between, extended, -⟩ := first.strings indexed
      exact ⟨(ih between).1, extended.trans (ih between).2⟩

theorem Entry.Holds.later {strings strings' : StringPool} {e : Entry} {cells : Array Cell}
    (holds : e.Holds strings cells) (extended : strings.Extends strings') : e.Holds strings' cells := by
  obtain ⟨request, reply⟩ := e
  cases request with
  | stringConstant value =>
      obtain ⟨id, rfl, named⟩ := holds
      exact ⟨id, rfl, named.later extended⟩
  | _ => exact holds

/-! ## Open bodies -/

/-- Between two requests that open bodies there is one that closes the first. -/
def WellBracketed (requests : List Request) : Prop :=
  ∀ before first between second after, requests = before ++ first :: between ++ second :: after →
    first.opens?.isSome → second.opens?.isSome → ∃ q ∈ between, q.closes = true

theorem WellBracketed.of_append {requests more : List Request} (bracketed : WellBracketed (requests ++ more)) :
    WellBracketed requests := by
  rintro before first between second after rfl
  exact bracketed before first between second (after ++ more) (by simp)

theorem Step.kinds {e : Entry} (step : Step s e s') :
    (∃ parameters id, e.request.opens? = some parameters ∧ e.reply.function = some id ∧
      id.toNat < s'.image.functions.size ∧ s'.current = some id.toNat ∧
        ∀ k, s'.row k = if k = id.toNat then opened (s.row k) s.image.globals.size parameters else s.row k) ∨
    (s'.current = none ∧
      ∀ k, s'.row k = if s.current = some k then closed (s.row k) s.image.globals.size else s.row k) ∨
    (e.request.closes = false ∧ s'.current = s.current ∧ ∀ k, s'.row k = s.row k) := by
  cases opens : e.request.opens? with
  | some parameters =>
      obtain ⟨-, id, answer, known, current, rows⟩ := step.opening parameters opens
      exact .inl ⟨parameters, id, rfl, answer, known, current, rows⟩
  | none =>
      cases closes : e.request.closes with
      | true => exact .inr (.inl (step.closing closes))
      | false => exact .inr (.inr ⟨rfl, step.idle opens closes⟩)

theorem Chain.current (steps : Steps s entries s') {k : Nat} (body : s'.current = some k) :
    (s.current = some k ∧ ∀ e ∈ entries, e.request.closes = false) ∨
      ∃ before e between, entries = before ++ e :: between ∧ e.request.opens?.isSome ∧
        e.reply.function.map FunctionId.toNat = some k ∧ ∀ x ∈ between, x.request.closes = false := by
  induction steps with
  | done => exact .inl ⟨body, nofun⟩
  | @step _ _ _ e rest first _ ih =>
      rcases ih body with ⟨opened, unclosed⟩ | ⟨before, other, between, rfl, found⟩
      · rcases first.kinds with ⟨_, id, opens, answer, -, current, -⟩ | ⟨shut, -⟩ | ⟨closes, same, -⟩
        · refine .inr ⟨[], e, rest, rfl, by rw [opens]; rfl, ?_, unclosed⟩
          rw [answer, ← opened, current]
          rfl
        · exact nomatch shut.symm.trans opened
        · exact .inl ⟨same ▸ opened, List.forall_mem_cons.mpr ⟨closes, unclosed⟩⟩
      · exact .inr ⟨e :: before, other, between, rfl, found⟩

theorem Chain.current_inside (steps : Steps s entries s')
    (inside : ∀ k, s.current = some k → k < s.image.functions.size) :
    ∀ k, s'.current = some k → k < s'.image.functions.size := by
  induction steps with
  | done => exact inside
  | step first _ ih =>
      refine ih fun k body => ?_
      rcases first.kinds with ⟨_, id, -, -, known, current, -⟩ | ⟨shut, -⟩ | ⟨-, same, -⟩
      · cases current.symm.trans body
        exact known
      · exact nomatch shut.symm.trans body
      · exact Nat.lt_of_lt_of_le (inside k (same ▸ body)) first.table

theorem Chain.shut (steps : Steps s entries s') (shut : s.current = none) {e : Entry}
    (bracketed : WellBracketed ((entries ++ [e]).map (·.request))) (opens : e.request.opens?.isSome) :
    s'.current = none := by
  cases body : s'.current with
  | none => rfl
  | some k =>
      rcases steps.current body with ⟨earlier, -⟩ | ⟨before, other, between, rfl, opened, -, unclosed⟩
      · exact nomatch shut.symm.trans earlier
      · obtain ⟨q, member, closes⟩ := bracketed (before.map (·.request)) other.request
          (between.map (·.request)) e.request [] (by simp) opened opens
        obtain ⟨x, listed, rfl⟩ := List.mem_map.mp member
        exact nomatch (unclosed x listed).symm.trans closes

/-! ## Bodies apart -/

theorem opened_start {f : Function} {place : Nat} {parameters : List ValueType} (small : place < 65536) :
    (opened f place parameters).localsStart = place := UInt16.toNat_ofNat_of_lt' small

theorem closed_end {f : Function} {place : Nat} (behind : f.localsStart ≤ place) (small : place < 65536) :
    (closed f place).localsEnd = place := by
  have exactly : (UInt16.ofNat place).toNat = place := UInt16.toNat_ofNat_of_lt' small
  have low : f.parmStart ≤ UInt16.ofNat place := UInt16.le_iff_toNat_le.mpr (exactly.symm ▸ behind)
  change f.parmStart.toNat + (UInt16.ofNat place - f.parmStart).toNat = place
  rw [UInt16.toNat_sub_of_le _ _ low, exactly]
  exact Nat.add_sub_cancel' behind

/-- Bodies that are closed share no cells. The open body starts behind them all. -/
structure Parted (s : Assembler) : Prop where
  ends : ∀ k, s.current ≠ some k → (s.row k).localsEnd ≤ s.image.globals.size
  apart : ∀ i j, i ≠ j → s.current ≠ some i → s.current ≠ some j → (s.row i).Apart (s.row j)
  behind : ∀ k, s.current = some k → (s.row k).localsStart ≤ s.image.globals.size ∧
    ∀ i, i ≠ k → (s.row i).localsEnd ≤ (s.row k).localsStart

theorem start_row (k : Nat) : start.row k = {} := by
  cases k <;> rfl

theorem start_parted : Parted start where
  ends := fun k _ => by rw [start_row]; exact Nat.zero_le _
  apart := fun i j _ _ _ => by rw [start_row]; exact .inl (Nat.zero_le _)
  behind := nofun

theorem Parted.functions_apart {s : Assembler} (parted : Parted s) (shut : s.current = none) {i j : Nat}
    {f g : Function} (different : i ≠ j) (left : s.image.functions[i]? = some f)
    (right : s.image.functions[j]? = some g) : f.Apart g := by
  have row {k : Nat} {f : Function} (found : s.image.functions[k]? = some f) : s.row k = placement f := by
    rw [Assembler.row, found]
    rfl
  have none (k : Nat) : s.current ≠ some k := shut ▸ (Option.some_ne_none k).symm
  have apart := parted.apart i j different (none i) (none j)
  rw [row left, row right] at apart
  exact apart

theorem Parted.opened {s s' : Assembler} {id : Nat} {parameters : List ValueType} (parted : Parted s)
    (grown : s.image.globals.size ≤ s'.image.globals.size) (small : s.image.globals.size < 65536)
    (shut : s.current = none) (current : s'.current = some id)
    (rows : ∀ k, s'.row k = if k = id then opened (s.row k) s.image.globals.size parameters else s.row k) :
    Parted s' := by
  have other (k : Nat) (apart : s'.current ≠ some k) : k ≠ id := fun same => apart (same ▸ current)
  have none (k : Nat) : s.current ≠ some k := shut ▸ nofun
  refine ⟨fun k apart => ?_, fun i j different left right => ?_, fun k body => ?_⟩
  · rw [rows, if_neg (other k apart)]
    exact Nat.le_trans (parted.ends k (none k)) grown
  · rw [rows, rows, if_neg (other i left), if_neg (other j right)]
    exact parted.apart i j different (none i) (none j)
  · cases current.symm.trans body
    rw [rows, if_pos rfl, opened_start small]
    refine ⟨grown, fun i different => ?_⟩
    rw [rows, if_neg different]
    exact parted.ends i (none i)

theorem Parted.closed {s s' : Assembler} (parted : Parted s)
    (grown : s.image.globals.size ≤ s'.image.globals.size) (small : s.image.globals.size < 65536)
    (rows : ∀ k, s'.row k = if s.current = some k then closed (s.row k) s.image.globals.size else s.row k)
    (shut : s'.current = none) : Parted s' := by
  -- The body that is closed now lies behind all others and ends where the segment does.
  have ends (k : Nat) : (s'.row k).localsEnd ≤ s.image.globals.size := by
    rw [rows]
    split
    · rename_i body
      exact Nat.le_of_eq (closed_end (parted.behind k body).1 small)
    · rename_i other
      exact parted.ends k other
  have apart (i j : Nat) (different : i ≠ j) (body : s.current = some j) : (s'.row i).Apart (s'.row j) := by
    have other : s.current ≠ some i := fun same => different (Option.some.inj (same.symm.trans body))
    rw [rows, rows, if_neg other, if_pos body]
    exact .inl ((parted.behind j body).2 i different)
  refine ⟨fun k _ => Nat.le_trans (ends k) grown, fun i j different _ _ => ?_, shut ▸ nofun⟩
  by_cases last : s.current = some j
  · exact apart i j different last
  · by_cases first : s.current = some i
    · exact (apart j i different.symm first).symm
    · rw [rows, rows, if_neg first, if_neg last]
      exact parted.apart i j different first last

theorem Parted.idle {s s' : Assembler} (parted : Parted s)
    (grown : s.image.globals.size ≤ s'.image.globals.size) (rows : ∀ k, s'.row k = s.row k)
    (same : s'.current = s.current) : Parted s' := by
  refine ⟨fun k => ?_, fun i j => ?_, fun k => ?_⟩
  · rw [rows, same]
    exact fun other => Nat.le_trans (parted.ends k other) grown
  · rw [rows, rows, same]
    exact parted.apart i j
  · rw [rows, same]
    refine fun body => ⟨Nat.le_trans (parted.behind k body).1 grown, fun i different => ?_⟩
    rw [rows]
    exact (parted.behind k body).2 i different

theorem Parted.step {e : Entry} (parted : Parted s) (first : Step s e s')
    (small : s'.image.globals.size < 65536) (shut : e.request.opens?.isSome → s.current = none) : Parted s' := by
  have grown : s.image.globals.size ≤ s'.image.globals.size := first.size.symm ▸ Nat.le_add_right _ _
  have short : s.image.globals.size < 65536 := Nat.lt_of_le_of_lt grown small
  rcases first.kinds with ⟨_, _, opens, -, -, current, rows⟩ | ⟨ended, rows⟩ | ⟨-, same, rows⟩
  · exact parted.opened grown short (shut (by rw [opens]; rfl)) current rows
  · exact parted.closed grown short rows ended
  · exact parted.idle grown rows same

theorem Chain.parted (steps : Steps start entries s) (small : s.image.globals.size < 65536)
    (bracketed : WellBracketed (entries.map (·.request))) : Parted s := by
  induction entries using List.reverseRecOn generalizing s with
  | nil =>
      cases steps
      exact start_parted
  | append_singleton entries e ih =>
      obtain ⟨between, earlier, last⟩ := chain_append_iff.mp steps
      obtain ⟨_, first, ends⟩ := chain_cons_iff.mp last
      cases ends
      have short := Nat.lt_of_le_of_lt last.size_le small
      have parted := ih earlier short (by rw [List.map_append] at bracketed; exact bracketed.of_append)
      exact parted.step first small fun opens => earlier.shut rfl bracketed opens

/-! ## One body -/

theorem Chain.within (steps : Steps s entries s')
    (inner : ∀ e ∈ entries, e.request.opens? = none ∧ e.request.closes = false) :
    s'.current = s.current ∧ ∀ k, s'.row k = s.row k := by
  induction steps with
  | done => exact ⟨rfl, fun _ => rfl⟩
  | step first _ ih =>
      obtain ⟨⟨opens, closes⟩, later⟩ := List.forall_mem_cons.mp inner
      obtain ⟨current, rows⟩ := first.idle opens closes
      obtain ⟨current', rows'⟩ := ih later
      exact ⟨current'.trans current, fun k => (rows' k).trans (rows k)⟩

theorem Chain.untouched (steps : Steps s entries s') {id : FunctionId} (elsewhere : s.current ≠ some id.toNat)
    (unopened : ∀ e ∈ entries, e.request.opens?.isSome → e.reply.function ≠ some id) :
    s'.row id.toNat = s.row id.toNat := by
  induction steps with
  | done => rfl
  | step first _ ih =>
      obtain ⟨here, later⟩ := List.forall_mem_cons.mp unopened
      rcases first.kinds with ⟨_, other, opens, answer, -, current, rows⟩ | ⟨shut, rows⟩ | ⟨-, same, rows⟩
      · have different : id.toNat ≠ other.toNat := by
          intro same
          refine here (by rw [opens]; rfl) (answer.trans (congrArg some ?_))
          exact congrArg FunctionId.mk (UInt32.toNat_inj.mp same.symm)
        have apart : some other.toNat ≠ some id.toNat := fun same => different (Option.some.inj same).symm
        rw [ih (current ▸ apart) later, rows, if_neg different]
      · rw [ih (shut ▸ nofun) later, rows, if_neg elsewhere]
      · rw [ih (same ▸ elsewhere) later, rows]

theorem opened_sizes (f : Function) (place : Nat) {parameters : List ValueType}
    (few : parameters.length ≤ Slot.maxParameters) :
    (opened f place parameters).declaredSizes = parameters.map (·.width) := by
  have count : (UInt8.ofNat parameters.length).toNat = parameters.length :=
    UInt8.toNat_ofNat_of_lt' (Nat.lt_of_le_of_lt few (by decide))
  have narrow (type : ValueType) : (UInt8.ofNat type.width).toNat = type.width := by
    cases type <;> rfl
  refine List.ext_getElem? fun i => ?_
  change (((Vector.ofFn fun i : Fin 8 =>
    (parameters.map fun type => UInt8.ofNat type.width).getD i 0).toList.take
      (UInt8.ofNat parameters.length).toNat).map (·.toNat))[i]? = _
  simp only [count, List.getElem?_map, List.getElem?_take, Vector.toList_ofFn, List.getElem?_ofFn]
  by_cases inside : i < parameters.length
  · have eight : i < 8 := Nat.lt_of_lt_of_le inside few
    simp [inside, eight, narrow]
  · simp [inside]

theorem Chain.body {before own after : List Entry} {e c : Entry} {parameters : List ValueType} {id : FunctionId}
    (steps : Steps s (before ++ e :: (own ++ c :: after)) s') (small : s'.image.globals.size < 65536)
    (opens : e.request.opens? = some parameters) (answer : e.reply.function = some id)
    (inner : ∀ x ∈ own, x.request.opens? = none ∧ x.request.closes = false) (closes : c.request.closes = true)
    (unopened : ∀ x ∈ after, x.request.opens?.isSome → x.reply.function ≠ some id) :
    ∃ f, s'.image.functions[id.toNat]? = some f ∧ f.declaredSizes = parameters.map (·.width) ∧
      Span.Tile f.localsStart ((e :: own).flatMap Entry.spans) f.localsEnd := by
  obtain ⟨s₀, -, rest⟩ := chain_append_iff.mp steps
  obtain ⟨s₁, first, rest'⟩ := chain_cons_iff.mp rest
  obtain ⟨s₂, middle, rest''⟩ := chain_append_iff.mp rest'
  obtain ⟨s₃, last, later⟩ := chain_cons_iff.mp rest''
  obtain ⟨few, other, answer', inside, current, rows⟩ := first.opening parameters opens
  cases answer.symm.trans answer'
  obtain ⟨current', rows'⟩ := middle.within inner
  obtain ⟨shut, ended⟩ := last.closing closes
  have kept := later.untouched (shut ▸ nofun) unopened
  have there : id.toNat < s'.image.functions.size := Nat.lt_of_lt_of_le inside rest'.table_le
  have short : s₂.image.globals.size < 65536 := Nat.lt_of_le_of_lt rest''.size_le small
  have laid : Steps s₀ (e :: own) s₂ := .step first middle
  have row : placement s'.image.functions[id.toNat] =
      closed (opened (s₀.row id.toNat) s₀.image.globals.size parameters) s₂.image.globals.size := by
    have read : s'.row id.toNat = placement s'.image.functions[id.toNat] := by
      rw [Assembler.row, Array.getElem?_eq_getElem there]
      rfl
    rw [← read, kept, ended, current', current, if_pos rfl, rows', rows, if_pos rfl]
  have begins : (opened (s₀.row id.toNat) s₀.image.globals.size parameters).localsStart =
      s₀.image.globals.size := opened_start (Nat.lt_of_le_of_lt laid.size_le short)
  have starts : s'.image.functions[id.toNat].localsStart = s₀.image.globals.size :=
    (congrArg Function.localsStart row).trans begins
  have ends : s'.image.functions[id.toNat].localsEnd = s₂.image.globals.size :=
    (congrArg Function.localsEnd row).trans (closed_end (begins.symm ▸ laid.size_le) short)
  refine ⟨_, Array.getElem?_eq_getElem there, ?_, ?_⟩
  · exact (congrArg Function.declaredSizes row).trans (opened_sizes (s₀.row id.toNat) s₀.image.globals.size few)
  · rw [starts, ends]
    exact laid.tile short

/-! ## Constants -/

theorem Entry.Holds.single {strings : StringPool} {e : Entry} {cells : Array Cell} (holds : e.Holds strings cells)
    {k : Nat} {c : Cell} (there : cells[k]? = some c) : ∃ width, e.request.widths = [width] := by
  obtain ⟨request, reply⟩ := e
  cases request with
  | floatConstant | vectorConstant | stringConstant | functionConstant | field => exact ⟨_, rfl⟩
  | _ =>
      cases holds
      cases there

theorem Chain.constant {before after : List Entry} {e : Entry} (steps : Steps s (before ++ e :: after) s')
    (indexed : s.image.strings.Indexed) (small : s'.image.globals.size < 65536) :
    ∃ cells, e.Holds s'.image.strings cells ∧ ∀ x ∈ e.spans, ∀ (k : Nat) c, cells[k]? = some c →
      (∀ y ∈ after, ¬ y.request.Sets (x.first + k)) → s'.image.globals[x.first + k]? = some c := by
  obtain ⟨s₀, earlier, rest⟩ := chain_append_iff.mp steps
  obtain ⟨s₁, first, later⟩ := chain_cons_iff.mp rest
  obtain ⟨indexed', -, cells, holds, stored⟩ := first.strings (earlier.strings indexed).1
  refine ⟨cells, holds.later (later.strings indexed').2, fun x member k c there untouched => ?_⟩
  have place : x.first = s₀.image.globals.size := by
    obtain ⟨width, single⟩ := holds.single there
    rw [Entry.spans, first.cells, single] at member
    rw [List.mem_singleton.mp member]
    exact UInt16.toNat_ofNat_of_lt' (Nat.lt_of_le_of_lt rest.size_le small)
  rw [place] at untouched ⊢
  have found := stored k c there
  rw [later.kept (Array.getElem?_eq_some_iff.mp found).1 untouched, found]

/-! ## The image -/

/-- How an image is laid out for whoever made these requests. -/
structure LaidOut (entries : List Entry) (image : Image) : Prop where
  /-- There is a place for everything that a request asks for. -/
  answered : ∀ e ∈ entries, e.reply.cells.length = e.request.widths.length ∧
    e.reply.fields.length = e.request.fieldWidths.length
  apart : (entries.flatMap Entry.spans).Pairwise fun x y => x.last ≤ y.first
  inside : ∀ x ∈ entries.flatMap Entry.spans, Slot.reserved ≤ x.first ∧ x.last ≤ image.globals.size
  fieldsApart : (entries.flatMap Entry.fieldSpans).Pairwise fun x y => x.last ≤ y.first
  fieldsInside : ∀ x ∈ entries.flatMap Entry.fieldSpans, x.last ≤ image.entityFields
  /-- Calls of a function save its parameters, which come first, and what else was given out until its body was
  closed, and nothing else; the last body that was opened counts. -/
  bodies : ∀ before e rest parameters, entries = before ++ e :: rest → e.request.opens? = some parameters →
    ∃ id, e.reply.function = some id ∧
      ((∀ x ∈ rest, x.request.opens?.isSome → x.reply.function ≠ some id) →
        ∃ f, image.functions[id.toNat]? = some f ∧ f.declaredSizes = parameters.map (·.width) ∧
          Span.Tile f.localsStart ((e :: rest.takeWhile fun x => !x.request.closes).flatMap Entry.spans)
            f.localsEnd)
  functionsApart : ∀ (i j : Nat) f g, i ≠ j → image.functions[i]? = some f → image.functions[j]? = some g →
    f.Apart g
  constants : ∀ before e after, entries = before ++ e :: after → ∃ cells, e.Holds image.strings cells ∧
    ∀ x ∈ e.spans, ∀ (k : Nat) c, cells[k]? = some c → (∀ y ∈ after, ¬ y.request.Sets (x.first + k)) →
      image.globals[x.first + k]? = some c

def lastEnd : Entry := ⟨.endFunction, {}⟩

theorem lastEnd_opens : ¬ lastEnd.request.opens?.isSome := nofun

theorem lastEnd_sets (place : Nat) : ¬ lastEnd.request.Sets place := nofun

theorem start_shut (k : Nat) : start.current ≠ some k := nofun

theorem endFunction_ends (inside : ∀ k, s.current = some k → k < s.image.functions.size) :
    ∃ s', endFunction.run s = some ((), s') := by
  rw [endFunction_eq]
  cases body : s.current with
  | none => exact ⟨s, rfl⟩
  | some k => exact ⟨_, (modifyFunction_iff k _ ()).mpr ⟨_, Array.getElem?_eq_getElem (inside k body), rfl⟩⟩

theorem exists_close (rest : List Entry) : ∃ c after,
    rest ++ [lastEnd] = (rest.takeWhile fun x => !x.request.closes) ++ c :: after ∧ c.request.closes = true ∧
      ∀ x ∈ after, x ∈ rest ∨ x = lastEnd := by
  have parts := List.takeWhile_append_dropWhile (p := fun x : Entry => !x.request.closes) (l := rest)
  cases last : rest.dropWhile fun x => !x.request.closes with
  | nil =>
      rw [last, List.append_nil] at parts
      exact ⟨lastEnd, [], by rw [parts], rfl, nofun⟩
  | cons c after =>
      have closes : c.request.closes = true := by
        have stopped := List.head_dropWhile_not (fun x : Entry => !x.request.closes) (by rw [last]; exact nofun)
        simpa [last] using stopped
      rw [last] at parts
      refine ⟨c, after ++ [lastEnd], ?_, closes, fun x member => ?_⟩
      · rw [← List.cons_append, ← List.append_assoc, parts]
      · rcases List.mem_append.mp member with further | final
        · exact .inl (parts ▸ List.mem_append_right _ (List.mem_cons_of_mem c further))
        · exact .inr (List.mem_singleton.mp final)

theorem WellBracketed.own {before rest : List Entry} {e : Entry}
    (bracketed : WellBracketed ((before ++ e :: rest).map (·.request))) (opens : e.request.opens?.isSome) :
    ∀ x ∈ rest.takeWhile fun x => !x.request.closes, x.request.opens? = none ∧ x.request.closes = false := by
  have unclosed : ∀ x ∈ rest.takeWhile fun x => !x.request.closes, x.request.closes = false := by
    intro x member
    simpa using List.mem_takeWhile_imp member
  refine fun x member => ⟨?_, unclosed x member⟩
  obtain ⟨earlier, later, parts⟩ := List.append_of_mem member
  have whole := List.takeWhile_append_dropWhile (p := fun x : Entry => !x.request.closes) (l := rest)
  rw [parts] at whole unclosed
  generalize rest.dropWhile _ = others at whole
  by_contra nested
  obtain ⟨q, between, closes⟩ := bracketed (before.map (·.request)) e.request (earlier.map (·.request))
    x.request ((later ++ others).map (·.request)) (by rw [← whole]; simp) opens
    (Option.isSome_iff_ne_none.mpr nested)
  obtain ⟨y, listed, rfl⟩ := List.mem_map.mp between
  exact nomatch (unclosed y (List.mem_append_left _ listed)).symm.trans closes

theorem Chain.last_body {before rest : List Entry} {e : Entry} {parameters : List ValueType}
    (steps : Steps s (before ++ e :: (rest ++ [lastEnd])) s') (small : s'.image.globals.size < 65536)
    (bracketed : WellBracketed ((before ++ e :: rest).map (·.request)))
    (opens : e.request.opens? = some parameters) :
    ∃ id, e.reply.function = some id ∧
      ((∀ x ∈ rest, x.request.opens?.isSome → x.reply.function ≠ some id) →
        ∃ f, s'.image.functions[id.toNat]? = some f ∧ f.declaredSizes = parameters.map (·.width) ∧
          Span.Tile f.localsStart ((e :: rest.takeWhile fun x => !x.request.closes).flatMap Entry.spans)
            f.localsEnd) := by
  obtain ⟨_, -, onward⟩ := chain_append_iff.mp steps
  obtain ⟨_, first, -⟩ := chain_cons_iff.mp onward
  obtain ⟨-, id, answer, -⟩ := first.opening parameters opens
  refine ⟨id, answer, fun unopened => ?_⟩
  obtain ⟨c, after, parts, closes, among⟩ := exists_close rest
  rw [parts] at steps
  refine steps.body small opens answer (bracketed.own (by rw [opens]; rfl)) closes fun x member => ?_
  rcases among x member with later | rfl
  · exact unopened x later
  · exact fun opens => absurd opens lastEnd_opens

/-- Whatever a host asks for, as long as it closes each body before it opens the next and segment and record
stay within sixteen bits. -/
theorem assembled_images_are_laid_out (performs : Performs start entries s)
    (bracketed : WellBracketed (entries.map (·.request))) (small : s.image.globals.size < 65536)
    (record : s.image.entityFields < 65536) :
    ∃ image, s.build = some (Program.ofImage image) ∧ LaidOut entries image := by
  have steps := performs.steps small
  obtain ⟨s', ended⟩ := endFunction_ends (steps.current_inside fun k body => absurd body (start_shut k))
  have last : Step s lastEnd s' := endFunction_step ended
  have whole : Steps start (entries ++ [lastEnd]) s' :=
    chain_append_iff.mpr ⟨s, steps, .step last (.done s')⟩
  have size : s'.image.globals.size = s.image.globals.size := last.size
  have fields : s'.image.entityFields = s.image.entityFields := last.record
  have small' : s'.image.globals.size < 65536 := size ▸ small
  have tile := steps.tile small
  have fieldTile := steps.fieldTile record
  have parted := (steps.parted small bracketed).step last small' fun opens => absurd opens lastEnd_opens
  refine ⟨s'.image, ?_, steps.answered, tile.apart, ?_, fieldTile.apart, ?_, ?_, ?_, ?_⟩
  · rw [build, ended]
    rfl
  · rw [size]
    exact tile.inside
  · rw [fields]
    exact fun x member => (fieldTile.inside x member).2
  · rintro before e rest parameters rfl opens
    rw [List.append_assoc, List.cons_append] at whole
    exact whole.last_body small' bracketed opens
  · exact fun i j f g => parted.functions_apart (last.closing rfl).1
  · rintro before e after rfl
    rw [List.append_assoc, List.cons_append] at whole
    obtain ⟨cells, holds, stored⟩ := whole.constant StringPool.empty_indexed small'
    refine ⟨cells, holds, fun x member k c there untouched => stored x member k c there fun y later => ?_⟩
    rcases List.mem_append.mp later with other | final
    · exact untouched y other
    · rw [List.mem_singleton.mp final]
      exact lastEnd_sets _

end Runs

/-- A function is given another body once its first one is closed; the second is left open. -/
def redefining : List Request :=
  [.floatConstant .one, .beginFunction "add" [.float, .vector], .unnamed .float, .endFunction,
    .setGlobal 28 ⟨7⟩, .beginBody ⟨1⟩ [.entity]]

theorem redefining_bracketed : WellBracketed redefining := by
  intro before first between second after parts left right
  have opening {i : Nat} {q : Request} (found : redefining[i]? = some q) (opens : q.opens?.isSome) :
      i = 1 ∨ i = 5 := by
    have inside : i < redefining.length := (List.getElem?_eq_some_iff.mp found).1
    have listed : ∀ i < redefining.length, (redefining[i]?.bind Request.opens?).isSome → i = 1 ∨ i = 5 := by
      decide
    exact listed i inside (by rw [found]; exact opens)
  have place : redefining[before.length]? = some first := by simp [parts]
  have place' : redefining[before.length + (between.length + 1)]? = some second := by simp [parts]
  have one := opening place left
  have five := opening place' right
  have start : before.length = 1 := by omega
  have length : between.length = 3 := by omega
  have ended : redefining[3]? = some .endFunction := rfl
  rw [parts, List.append_assoc, List.getElem?_append_right (by omega), start, List.cons_append,
    List.getElem?_cons_succ, List.getElem?_append_left (by omega)] at ended
  exact ⟨_, List.mem_of_getElem? ended, rfl⟩

theorem redefining_performs : ∃ entries s, entries.map (·.request) = redefining ∧ Performs start entries s ∧
    s.image.globals.size = 35 ∧ s.image.entityFields = 0 := by
  obtain ⟨label, named, stored, bound⟩ :=
    StringPool.intern?_bounded (show StringPool.empty.size < StringPool.offsetLimit by decide) "add"
  have small : named.size < StringPool.offsetLimit := Nat.lt_of_le_of_lt bound (by decide)
  obtain ⟨file, pool, stored', -⟩ := StringPool.intern?_bounded small "builder"
  have declared : (declare "add").run (start.appended #[.ofSingle .one]) = some (⟨1⟩, _) :=
    (declare_iff _ _).mpr ⟨label, named, stored, file, pool, stored', rfl, rfl⟩
  have begun : (Request.beginFunction "add" [.float, .vector]).perform.run
      (start.appended #[.ofSingle .one]) = some ({ cells := [29, 30], function := some ⟨1⟩ }, _) :=
    (answered_iff _ _ _).mpr ⟨(⟨1⟩, [29, 30]), (beginFunction_iff _ _ _ _).mpr ⟨_, declared,
      (beginBody_iff _ _ _).mpr ⟨by decide, _, rfl, rfl, rfl⟩⟩, rfl⟩
  exact ⟨[⟨.floatConstant .one, { cells := [28] }⟩,
    ⟨.beginFunction "add" [.float, .vector], { cells := [29, 30], function := some ⟨1⟩ }⟩,
    ⟨.unnamed .float, { cells := [33] }⟩, ⟨.endFunction, {}⟩, ⟨.setGlobal 28 ⟨7⟩, {}⟩,
    ⟨.beginBody ⟨1⟩ [.entity], { cells := [34], function := some ⟨1⟩ }⟩], _, rfl,
    .step rfl (.step begun (.step rfl (.step rfl (.step rfl (.step rfl (.done _)))))), rfl, rfl⟩

theorem redefined_image_is_laid_out : ∃ entries s image, entries.map (·.request) = redefining ∧
    Performs start entries s ∧ WellBracketed (entries.map (·.request)) ∧ s.image.globals.size < 65536 ∧
      s.image.entityFields < 65536 ∧ s.build = some (Program.ofImage image) ∧ LaidOut entries image := by
  obtain ⟨entries, s, asked, performs, size, record⟩ := redefining_performs
  have bracketed : WellBracketed (entries.map (·.request)) := asked ▸ redefining_bracketed
  have small : s.image.globals.size < 65536 := by
    rw [size]
    decide
  have short : s.image.entityFields < 65536 := by
    rw [record]
    decide
  obtain ⟨image, built, laid⟩ := assembled_images_are_laid_out performs bracketed small short
  exact ⟨entries, s, image, asked, performs, bracketed, small, short, built, laid⟩

end Assembler
end EntityMachine
